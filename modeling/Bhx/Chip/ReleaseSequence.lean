import Bhx.Chip.SetFrequency
import Bhx.SharedMemory.Cores

/-!
# Releasing cores from reset

Any number of threads release cores and idle the clock at the same time. Every register access of
theirs can fall between any two accesses of another thread, but a call takes `seq_lock` before its
first access and gives it back after its last one. So the calls act one after the other, in the
order in which they take the mutex: no release bit is lost, bits are set only at 200 MHz, the stores
to the dividers of two calls do not mix, and whenever nobody has the mutex the dividers are those
that the last call wants (`release_sequence_atomic`).

Scope. The board is not reset while the threads run, so no access fails.
-/

set_option autoImplicit false

namespace Bhx.Chip

open SharedMemory List Function Option

variable {ι L : Type}
variable {call : ChipCall}

/-! ### The threads -/

/-- Threads that make one call after the other. -/
def callers (plan : ι → L → ChipCall × L) :
    Cores ι (ChipOp ι) (Option UInt32) Empty (ChipWorld ι) fun _ ↦ L where
  exec := chipExec
  act event _ := event.elim
  loop thread l := do
    let result ← (plan thread l).1.attempt thread
    -- a thread that did not get the mutex asks again
    pure (if result.isNone then l else (plan thread l).2)

/-- Something that happens to the chip. -/
abbrev ChipMark (ι : Type) := Mark ι (ChipOp ι) (Option UInt32) Empty

/-- The chip and what has happened to it. -/
abbrev ChipScene (ι : Type) := Scene ι (ChipOp ι) (Option UInt32) Empty (ChipWorld ι)

/-- Nobody has the mutex, no call has been made, and the registers hold anything. -/
def callersStart (regs : ℕ → UInt32) (l : ι → L) :
    Config ι (ChipOp ι) (Option UInt32) Empty (ChipWorld ι) fun _ ↦ L where
  scene := ⟨⟨regs, true, none, false, []⟩, []⟩
  rest thread := .done (l thread)

/-- The frequency that a call leaves. -/
def ChipCall.frequency : ChipCall → Frequency
  | .resetX280 _ => .mhz1750
  | .idlePll => .mhz200

/-- The release bits that a call sets. -/
def ChipCall.releaseBits : ChipCall → UInt32
  | .resetX280 indices => releaseMask indices
  | .idlePll => 0

/-- The release bits that some calls set. -/
def releasedBits : List ChipCall → UInt32
  | [] => 0
  | call :: calls => releasedBits calls ||| call.releaseBits

/-- The reset register has the bits of the calls that are over, and the dividers are those of the
last one. -/
structure Settled (initial : UInt32) (w : ChipWorld ι) : Prop where
  reset : w.regs l2cpuResetAddr = initial ||| releasedBits w.finished
  dividers : ∀ call ∈ w.finished.head?, AtSolution call.frequency w.regs

/-! ### The stores of different calls -/

/-- Where a thread is in its pass. -/
inductive CallPhase
  /-- It has not asked for the mutex yet. -/
  | asking
  /-- It has the mutex. -/
  | holding
  /-- It has given the mutex back, or did not get it. -/
  | over
deriving DecidableEq

/-- The phase of a thread after an access of its own. -/
def CallPhase.after (phase : CallPhase) (answer : Option UInt32) : ChipOp ι → CallPhase
  | .lock _ _ => if answer = some 1 then .holding else .over
  | .unlock | .poison => .over
  | .arcRead32 _ | .arcWrite32 _ _ => phase

/-- The phase that a trace leaves a thread in. -/
def callPhase [DecidableEq ι] (thread : ι) : List (ChipMark ι) → CallPhase
  | [] => .over
  | .pass other :: trace => if other = thread then .asking else callPhase thread trace
  | .access other op answer :: trace =>
    if other = thread then (callPhase thread trace).after answer op else callPhase thread trace
  | .act _ :: trace => callPhase thread trace

/-- The thread stores to a divider. -/
def PllWrite (thread : ι) : ChipMark ι → Prop
  | .access other (.arcWrite32 addr _) _ =>
    other = thread ∧ (addr = pll4Base + pllCntl5 ∨ addr = pll4Base + pllCntl1)
  | _ => False

/-- Between two stores to the dividers by one call there is no store to them by another. A thread
begins a pass for each of its calls. -/
def Uninterleaved (trace : List (ChipMark ι)) : Prop :=
  ∀ (newer mid mid' oldest : List (ChipMark ι)) (last between first : ChipMark ι)
    (thread other : ι),
    trace = newer ++ last :: (mid ++ between :: (mid' ++ first :: oldest)) →
      PllWrite thread last → PllWrite other between → PllWrite thread first →
        .pass thread ∉ mid ++ mid' → other = thread

section Serial

variable [DecidableEq ι]

/-- What happens is in order: a thread stores to a divider only while it has the mutex, and asks for
the mutex at the start of a pass. -/
def MarkInOrder (trace : List (ChipMark ι)) : ChipMark ι → Prop
  | .access thread (.arcWrite32 _ _) _ => callPhase thread trace = .holding
  | .access thread (.lock _ _) _ => callPhase thread trace = .asking
  | _ => True

/-- Everything that happened was in order, and no two threads ever had the mutex. -/
def Serial : List (ChipMark ι) → Prop
  | [] => True
  | mark :: trace => MarkInOrder trace mark ∧
      (∀ thread other, callPhase thread trace = .holding → callPhase other trace = .holding →
        other = thread) ∧ Serial trace

variable {thread other : ι} {mark : ChipMark ι} {trace newer : List (ChipMark ι)}

theorem Serial.suffix (h : Serial (newer ++ trace)) : Serial trace := by
  induction newer with
  | nil => exact h
  | cons mark newer ih => exact ih h.2.2

/-- Without a new pass, a thread that has asked for the mutex does not ask again, and one that has
given it back does not get it. -/
theorem callPhase_of_not_pass (hserial : Serial (newer ++ trace)) (hpass : .pass thread ∉ newer)
    (hasked : callPhase thread trace ≠ .asking) :
    callPhase thread (newer ++ trace) ≠ .asking ∧
      (callPhase thread trace = .over → callPhase thread (newer ++ trace) = .over) := by
  induction newer with
  | nil => exact ⟨hasked, id⟩
  | cons mark newer ih =>
    obtain ⟨hne, hover⟩ := ih hserial.2.2 fun hmem ↦ hpass (mem_cons_of_mem mark hmem)
    have horder := hserial.1
    cases mark with
    | act event => exact event.elim
    | pass owner =>
      have howner : owner ≠ thread := by
        rintro rfl
        exact hpass mem_cons_self
      simp only [cons_append, callPhase, if_neg howner]
      exact ⟨hne, hover⟩
    | access owner op answer =>
      by_cases howner : owner = thread
      · subst howner
        simp only [cons_append, callPhase, if_pos]
        cases op with
        | lock _ _ => exact absurd horder hne
        | unlock => exact ⟨nofun, fun _ ↦ rfl⟩
        | poison => exact ⟨nofun, fun _ ↦ rfl⟩
        | arcRead32 _ => exact ⟨hne, hover⟩
        | arcWrite32 _ _ => exact ⟨hne, hover⟩
      · simp only [cons_append, callPhase, if_neg howner]
        exact ⟨hne, hover⟩

theorem PllWrite.holding (h : PllWrite thread mark) (hserial : Serial (mark :: trace)) :
    callPhase thread trace = .holding ∧ callPhase thread (mark :: trace) = .holding := by
  cases mark with
  | act event => exact event.elim
  | pass owner => exact absurd h not_false
  | access owner op answer =>
    cases op with
    | arcWrite32 addr value =>
      obtain ⟨rfl, -⟩ := h
      have hholding : callPhase owner trace = .holding := hserial.1
      refine ⟨hholding, ?_⟩
      simp only [callPhase, if_pos, CallPhase.after]
      exact hholding
    | _ => exact absurd h not_false

theorem Serial.uninterleaved (h : Serial trace) : Uninterleaved trace := by
  rintro newer mid mid' oldest last between first thread other rfl hlast hbetween hfirst hpass
  rw [mem_append, not_or] at hpass
  have hlastSerial := h.suffix
  have hbetweenSerial := hlastSerial.2.2.suffix
  have hmidSerial := hbetweenSerial.2.2
  have hheld := (hfirst.holding hmidSerial.suffix).2
  have hasked : callPhase thread (first :: oldest) ≠ .asking := by
    rw [hheld]
    exact nofun
  obtain ⟨hmid, -⟩ := callPhase_of_not_pass hmidSerial hpass.2 hasked
  by_contra hne
  -- at the store of the other thread this one has given the mutex back
  have hother := (hbetween.holding hbetweenSerial).1
  have hrel : callPhase thread (mid' ++ first :: oldest) = .over := by
    cases hphase : callPhase thread (mid' ++ first :: oldest) with
    | asking => exact absurd hphase hmid
    | «over» => rfl
    | holding => exact absurd (hbetweenSerial.2.1 thread other hphase hother) hne
  have hafter : callPhase thread (between :: (mid' ++ first :: oldest)) = .over := by
    have hnot : .pass thread ∉ [between] := by
      rw [mem_singleton]
      rintro rfl
      exact hbetween
    have hserial : Serial ([between] ++ (mid' ++ first :: oldest)) := hbetweenSerial
    exact (callPhase_of_not_pass hserial hnot hmid).2 hrel
  have hagain := (callPhase_of_not_pass hlastSerial.2.2 hpass.1
    (by rw [hafter]; exact nofun)).2 hafter
  rw [(hlast.holding hlastSerial).1] at hagain
  exact nomatch hagain

end Serial

/-! ### One step -/

section Steps

variable {thread other : ι} {w w' : ChipWorld ι} {op : ChipOp ι}

theorem not_holds_of_none (h : w.seqLock = none) : ¬ Holds thread w := by
  rintro ⟨call, hcall⟩
  exact absurd (h.symm.trans hcall).symm (some_ne_none _)

/-- Nobody relies on anything while the mutex is free before and after. -/
theorem SeqRely.ofNone (h : w.seqLock = none) (h' : w'.seqLock = none) : SeqRely thread w w' :=
  ⟨fun hheld ↦ absurd hheld (not_holds_of_none h), fun _ ↦ not_holds_of_none h'⟩

theorem SeqRely.refl (thread : ι) (w : ChipWorld ι) : SeqRely thread w w := ⟨fun _ ↦ rfl, id⟩

theorem SeqRely.trans {w'' : ChipWorld ι} (h : SeqRely thread w w') (h' : SeqRely thread w' w'') :
    SeqRely thread w w'' := by
  constructor
  · intro hheld
    have hsame := h.held hheld
    rw [hsame] at h'
    exact h'.held hheld
  · exact fun hfree ↦ h'.free (h.free hfree)

/-- Two threads do not have the mutex. -/
theorem Holds.unique (h : Holds thread w) (hother : Holds other w) : other = thread := by
  obtain ⟨call, hcall⟩ := h
  obtain ⟨call', hcall'⟩ := hother
  rw [hcall] at hcall'
  exact (congrArg Prod.fst (some.inj hcall')).symm

/-- Asking for the mutex leaves everything but its holder alone. -/
theorem lock_cases (hpoisoned : w.poisoned = false) (thread : ι) (call : ChipCall) :
    w.seqLock = none ∧
        chipExec (.lock thread call) w = (some 1, { w with seqLock := some (thread, call) }) ∨
      w.seqLock ≠ none ∧ chipExec (.lock thread call) w = (some 0, w) := by
  cases hholder : w.seqLock with
  | none => exact .inl ⟨rfl, by simp [chipExec, hpoisoned, hholder]⟩
  | some holder => exact .inr ⟨some_ne_none holder, by simp [chipExec, hpoisoned, hholder]⟩

/-- The other threads lose nothing when a thread asks for the mutex. -/
theorem SeqRely.lock (hother : other ≠ thread) (call : ChipCall) (w : ChipWorld ι) :
    SeqRely other w (chipExec (.lock thread call) w).2 := by
  cases hpoisoned : w.poisoned with
  | true =>
    rw [show chipExec (.lock thread call) w = (none, w) by simp [chipExec, hpoisoned]]
    exact .refl other w
  | false =>
    rcases lock_cases hpoisoned thread call with ⟨hnone, hexec⟩ | ⟨-, hexec⟩
    · rw [hexec]
      refine ⟨fun h ↦ absurd h (not_holds_of_none hnone), ?_⟩
      rintro - ⟨call', hcall'⟩
      exact hother (congrArg Prod.fst (some.inj hcall')).symm
    · rw [hexec]
      exact .refl other w

theorem chipExec_arcWrite32 (addr : ℕ) (value : UInt32) (w : ChipWorld ι) :
    chipExec (.arcWrite32 addr value) w =
      if w.inner then (some 0, w.withRegs (update w.regs addr value)) else (none, w) := rfl

theorem SeqAccess.read_or_write {regs : ℕ → UInt32} (h : SeqAccess regs op) :
    (∃ addr, op = .arcRead32 addr) ∨ ∃ addr value, op = .arcWrite32 addr value := by
  rcases h with h | ⟨-, mask, rfl⟩
  · cases op with
    | arcRead32 addr => exact .inl ⟨addr, rfl⟩
    | arcWrite32 addr value => exact .inr ⟨addr, value, rfl⟩
    | _ => exact absurd h not_false
  · exact .inr ⟨_, _, rfl⟩

theorem SeqAccess.exec (h : SeqAccess w.regs op) : ∃ regs, (chipExec op w).2 = w.withRegs regs := by
  rcases h.read_or_write with ⟨addr, rfl⟩ | ⟨addr, value, rfl⟩
  · exact ⟨w.regs, rfl⟩
  · rw [chipExec_arcWrite32]
    split_ifs
    · exact ⟨_, rfl⟩
    · exact ⟨w.regs, rfl⟩

/-- Storing dividers leaves the release bits alone. -/
theorem DividerAccess.reset (h : DividerAccess op) :
    (chipExec op w).2.regs l2cpuResetAddr = w.regs l2cpuResetAddr := by
  cases op with
  | arcRead32 addr => rfl
  | arcWrite32 addr value =>
    rw [chipExec_arcWrite32]
    split_ifs
    · change update w.regs addr value l2cpuResetAddr = _
      rcases h with rfl | rfl
      · exact update_of_ne (by decide) _ _
      · exact update_of_ne (by decide) _ _
    · rfl
  | _ => exact absurd h not_false

/-- An access of a sequence clears no release bit, and sets one only at 200 MHz. -/
theorem SeqAccess.reset (h : SeqAccess w.regs op) :
    (chipExec op w).2.regs l2cpuResetAddr = w.regs l2cpuResetAddr ∨
      AtSolution .mhz200 w.regs ∧
        ∃ mask, (chipExec op w).2.regs l2cpuResetAddr = w.regs l2cpuResetAddr ||| mask := by
  rcases h with h | ⟨hat, mask, rfl⟩
  · exact .inl h.reset
  · rw [chipExec_arcWrite32]
    split_ifs
    · have hself : update w.regs l2cpuResetAddr (w.regs l2cpuResetAddr ||| mask)
          l2cpuResetAddr = w.regs l2cpuResetAddr ||| mask := update_self _ _ _
      exact .inr ⟨hat, mask, hself⟩
    · exact .inl rfl

/-- What a call does with the mutex makes the chip settled once it gives the mutex back. -/
theorem ChipCall.body_settles {initial : UInt32} (hholder : w.seqLock = some (thread, call))
    (hinner : w.inner = true)
    (hreset : w.regs l2cpuResetAddr = initial ||| releasedBits w.finished) :
    Leads SeqAccess thread w call.body w.regs fun _ regs ↦
      Settled initial (w.withRegs regs).release := by
  have hheld : Holds thread w := ⟨call, hholder⟩
  have hfinished (regs : ℕ → UInt32) : (w.withRegs regs).release.finished = call :: w.finished := by
    simp [ChipWorld.release, ChipWorld.withRegs, hholder]
  have hbits (regs : ℕ → UInt32) (hregs : regs l2cpuResetAddr = w.regs l2cpuResetAddr |||
      call.releaseBits) : regs l2cpuResetAddr = initial ||| releasedBits (call :: w.finished) := by
    rw [hregs, hreset, UInt32.or_assoc]
    rfl
  cases call with
  | resetX280 indices =>
    refine Leads.weaken (resetX280_settles hheld hinner indices) fun _ regs h ↦ ?_
    refine ⟨(hbits regs h.2).trans (by rw [hfinished]), fun last hlast ↦ ?_⟩
    rw [hfinished] at hlast
    obtain rfl := some.inj hlast
    exact h.1
  | idlePll =>
    refine Leads.weaken (setFrequency_settles hheld hinner (fun _ _ ↦ .inl) .mhz200)
      fun _ regs h ↦ ?_
    subst h
    refine ⟨(hbits _ ?_).trans (by rw [hfinished]), fun last hlast ↦ ?_⟩
    · exact (settled_reset .mhz200 w.regs).trans UInt32.or_zero.symm
    · rw [hfinished] at hlast
      obtain rfl := some.inj hlast
      exact atSolution_settled .mhz200 w.regs

end Steps

/-! ### The outline -/

section Outline

variable [DecidableEq ι] {plan : ι → L → ChipCall × L} {initial : UInt32}

/-- The chip is settled unless a thread has the mutex, the mutex is as the trace says, and all
stores were in order. -/
structure SequenceInv (initial : UInt32) (s : ChipScene ι) : Prop where
  inner : s.memory.inner = true
  sound : s.memory.poisoned = false
  settled : s.memory.seqLock = none → Settled initial s.memory
  phase : ∀ thread, callPhase thread s.trace = .holding ↔ Holds thread s.memory
  serial : Serial s.trace

/-- The steps of a thread: it asks for the mutex at the start of a pass, it has the mutex, or it
gives it back and the chip is settled. -/
def CallStep (initial : UInt32) (thread : ι) (op : ChipOp ι) (s : ChipScene ι) : Prop :=
  (∃ call, op = .lock thread call) ∧ callPhase thread s.trace = .asking ∨
    Holds thread s.memory ∧
      (SeqAccess s.memory.regs op ∨ op = .unlock ∧ Settled initial s.memory.release)

/-- What a thread relies on: also that its phase is its own. -/
def CallRely (thread : ι) (s s' : ChipScene ι) : Prop :=
  SeqRely thread s.memory s'.memory ∧ callPhase thread s'.trace = callPhase thread s.trace

/-- The parts of the threads. -/
def sequenceOutline (initial : UInt32) :
    Outline ι (ChipOp ι) (Option UInt32) Empty (ChipWorld ι) fun _ ↦ L where
  inv := SequenceInv initial
  rely := CallRely
  guarantee := CallStep initial
  between thread _ s := ¬ Holds thread s.memory

variable {thread other : ι} {s : ChipScene ι} {op : ChipOp ι}

theorem callPhase_access_of_ne (hother : other ≠ thread) (answer : Option UInt32)
    (trace : List (ChipMark ι)) :
    callPhase other (.access thread op answer :: trace) = callPhase other trace := by
  simp only [callPhase, if_neg hother.symm]

theorem callPhase_access_self (answer : Option UInt32) (trace : List (ChipMark ι)) :
    callPhase thread (.access thread op answer :: trace) =
      (callPhase thread trace).after answer op := by
  simp only [callPhase, if_pos]

theorem SequenceInv.exclusive (h : SequenceInv initial s) (thread other : ι)
    (hthread : callPhase thread s.trace = .holding) (hother : callPhase other s.trace = .holding) :
    other = thread :=
  ((h.phase thread).mp hthread).unique ((h.phase other).mp hother)

/-- After an access of a thread the mutex is as the trace says, when it is so for that thread and no
other thread had the mutex or gets it. -/
theorem SequenceInv.phase_access (hinv : SequenceInv initial s) {answer : Option UInt32}
    {w : ChipWorld ι}
    (hself : (callPhase thread s.trace).after answer op = .holding ↔ Holds thread w)
    (hothers : ∀ other ≠ thread, Holds other w ↔ Holds other s.memory) (target : ι) :
    callPhase target (.access thread op answer :: s.trace) = .holding ↔ Holds target w := by
  by_cases htarget : target = thread
  · subst htarget
    rw [callPhase_access_self]
    exact hself
  · rw [callPhase_access_of_ne htarget, hothers target htarget]
    exact hinv.phase target

theorem CallStep.inv (h : CallStep initial thread op s) (hinv : SequenceInv initial s) :
    SequenceInv initial ((callers plan).access thread op s).2 := by
  have hserial {answer : Option UInt32} (horder : MarkInOrder s.trace (.access thread op answer)) :
      Serial (.access thread op answer :: s.trace) := ⟨horder, hinv.exclusive, hinv.serial⟩
  change SequenceInv initial
    ⟨(chipExec op s.memory).2, .access thread op (chipExec op s.memory).1 ::
    s.trace⟩
  rcases h with ⟨⟨call, rfl⟩, hasking⟩ | ⟨hheld, haccess | ⟨rfl, hsettled⟩⟩
  · have hnot : ¬ Holds thread s.memory := by
      rw [← hinv.phase thread, hasking]
      exact nofun
    rcases lock_cases hinv.sound thread call with ⟨hnone, hexec⟩ | ⟨-, hexec⟩
    · rw [hexec]
      refine ⟨hinv.inner, hinv.sound, fun hfree ↦ absurd hfree (some_ne_none _),
        hinv.phase_access ⟨fun _ ↦ ⟨call, rfl⟩, fun _ ↦ rfl⟩ fun other hother ↦ ⟨?_, ?_⟩,
        hserial hasking⟩
      · rintro ⟨call', hcall'⟩
        exact absurd (congrArg Prod.fst (some.inj hcall')).symm hother
      · rintro ⟨call', hcall'⟩
        exact absurd (hnone.symm.trans hcall').symm (some_ne_none _)
    · rw [hexec]
      exact ⟨hinv.inner, hinv.sound, hinv.settled, hinv.phase_access ⟨fun h ↦
        CallPhase.noConfusion h, fun h ↦ absurd h hnot⟩ fun _ _ ↦ Iff.rfl, hserial hasking⟩
  · obtain ⟨regs, hexec⟩ := haccess.exec
    have hphase : callPhase thread s.trace = .holding := (hinv.phase thread).mpr hheld
    obtain ⟨call, hcall⟩ := hheld
    rw [hexec]
    refine ⟨hinv.inner, hinv.sound, fun hfree ↦ absurd (hcall.symm.trans hfree)
      (some_ne_none _), hinv.phase_access ?_ fun _ _ ↦ Iff.rfl, hserial ?_⟩
    · rcases haccess.read_or_write with ⟨addr, rfl⟩ | ⟨addr, value, rfl⟩
      · exact ⟨fun _ ↦ ⟨call, hcall⟩, fun _ ↦ hphase⟩
      · exact ⟨fun _ ↦ ⟨call, hcall⟩, fun _ ↦ hphase⟩
    · rcases haccess.read_or_write with ⟨addr, rfl⟩ | ⟨addr, value, rfl⟩
      · trivial
      · exact hphase
  · refine ⟨hinv.inner, hinv.sound, fun _ ↦ hsettled, hinv.phase_access ?_ ?_, hserial trivial⟩
    · constructor
      · exact nofun
      · rintro ⟨call, hcall⟩
        exact absurd hcall.symm (some_ne_none _)
    · intro other hother
      constructor
      · rintro ⟨call, hcall⟩
        exact absurd hcall.symm (some_ne_none _)
      · exact fun h ↦ absurd (hheld.unique h) hother

/-- The steps of one thread are what the others rely on. -/
theorem CallStep.relied (h : CallStep initial thread op s) (hother : other ≠ thread) :
    SeqRely other s.memory (chipExec op s.memory).2 := by
  rcases h with ⟨⟨call, rfl⟩, -⟩ | ⟨hheld, haccess | ⟨rfl, -⟩⟩
  · exact .lock hother call s.memory
  · obtain ⟨regs, hexec⟩ := haccess.exec
    rw [hexec]
    exact ⟨fun h ↦ absurd (hheld.unique h) hother, id⟩
  · exact ⟨fun h ↦ absurd (hheld.unique h) hother, fun _ ↦ not_holds_of_none rfl⟩

/-- A part of a thread takes the steps of a call, among the other threads. -/
abbrev CallEnsures {α : Type} (plan : ι → L → ChipCall × L) (initial : UInt32) (thread : ι)
    (post : α → ChipScene ι → Prop) (part : Program (ChipOp ι) (Option UInt32) α)
    (s : ChipScene ι) : Prop :=
  Ensures ((callers plan).access thread) (fun s s' ↦ CallRely thread s s' ∧ SequenceInv initial s')
    (CallStep initial thread) post part s

/-- What a call does with the mutex, among the other threads. -/
theorem body_at (hholder : s.memory.seqLock = some (thread, call))
    (hinner : s.memory.inner = true)
    (hreset : s.memory.regs l2cpuResetAddr = initial ||| releasedBits s.memory.finished) :
    CallEnsures plan initial thread
      (fun result s ↦ result = .ok () ∧ Holds thread s.memory ∧ Settled initial s.memory.release)
      call.body.run s := by
  have halone : Ensures chipExec (SeqRely thread) (SeqStep SeqAccess thread) _
      call.body.run s.memory :=
    ChipCall.body_settles hholder hinner hreset
  have hwithin : CallEnsures plan initial thread _ (call.body.run.within id id) s :=
    halone.within Scene.memory (fun _ _ hstep ↦ hstep.1.1) (fun _ _ ↦ ⟨rfl,
    rfl⟩) fun op t hop ↦ .inr ⟨hop.1, .inl hop.2.2⟩
  rw [Program.within_id] at hwithin
  refine hwithin.weaken fun result t ht ↦ ?_
  obtain ⟨value, rfl, regs, hregs, hsettled⟩ := ht
  refine ⟨rfl, ?_, ?_⟩
  · rw [hregs]
    exact ⟨call, hholder⟩
  · rw [hregs]
    exact hsettled

/-- A pass of a thread: it asks for the mutex, and when it gets it, runs its call and gives it
back. -/
theorem attempt_at {call : ChipCall} (hasking : callPhase thread s.trace = .asking)
    (hfree : ¬ Holds thread s.memory) :
    CallEnsures plan initial thread (fun _ s ↦ ¬ Holds thread s.memory) (call.attempt thread)
      s := by
  intro t hstep
  obtain ⟨⟨hrely, hphase⟩, hinv⟩ := hstep
  refine ⟨.inl ⟨⟨call, rfl⟩, hphase.trans hasking⟩, ?_⟩
  have hnot := hrely.free hfree
  change Ensures _ _ _ _ (if ((callers plan).access thread (.lock thread call) t).1 = none then _
    else if ((callers plan).access thread (.lock thread call) t).1 = some 0 then _ else _) _
  rcases lock_cases hinv.sound thread call with ⟨hnone, hexec⟩ | ⟨-, hexec⟩
  · have hanswer : ((callers plan).access thread (.lock thread call) t).1 = some 1 :=
      congrArg Prod.fst hexec
    have hmemory : ((callers plan).access thread (.lock thread call) t).2.memory =
        { t.memory with seqLock := some (thread, call) } := congrArg Prod.snd hexec
    rw [hanswer, if_neg (some_ne_none _), if_neg (by decide)]
    -- the call finds the chip settled and leaves it so
    have hbody : CallEnsures plan initial thread _ call.body.run
      ((callers plan).access thread (.lock thread call) t).2 := body_at (by rw [hmemory])
      (by rw [hmemory]; exact hinv.inner) (by rw [hmemory]; exact (hinv.settled hnone).reset)
    refine Ensures.bind hbody fun result u hu ↦ ?_
    obtain ⟨rfl, hheld, hsettled⟩ := hu
    intro v hv
    have hsame : v.memory = u.memory := hv.1.1.held hheld
    rw [← hsame] at hheld hsettled
    refine ⟨.inr ⟨hheld, .inr ⟨rfl, hsettled⟩⟩, ?_⟩
    rintro ⟨call', hcall'⟩
    exact absurd hcall'.symm (some_ne_none _)
  · have hanswer : ((callers plan).access thread (.lock thread call) t).1 = some 0 :=
      congrArg Prod.fst hexec
    have hmemory : ((callers plan).access thread (.lock thread call) t).2.memory = t.memory :=
      congrArg Prod.snd hexec
    rw [hanswer, if_neg (some_ne_none _), if_pos rfl]
    change ¬ Holds thread ((callers plan).access thread (.lock thread call) t).2.memory
    rw [hmemory]
    exact hnot

theorem sequenceOutline_sound : (sequenceOutline initial).Sound (callers plan) fun _ _ ↦ True := by
  apply Outline.Sound.ofRely
  case hrefl => exact fun thread s ↦ ⟨.refl thread s.memory, rfl⟩
  case htrans => exact fun _ _ _ _ h h' ↦ ⟨h.1.trans h'.1, h'.2.trans h.2⟩
  case hstable => exact fun _ _ _ _ hstep h ↦ hstep.1.free h
  case hpass =>
    intro thread other s hother
    refine ⟨.refl other s.memory, ?_⟩
    simp only [Cores.pass, callPhase, if_neg hother.symm]
  case hloop =>
    intro thread l s hinv hfree
    refine ⟨⟨hinv.inner, hinv.sound, hinv.settled, fun target ↦ ?_, trivial, hinv.exclusive,
      hinv.serial⟩, ?_⟩
    · by_cases htarget : thread = target
      · subst htarget
        simp only [Cores.pass, callPhase, if_pos]
        exact ⟨fun h ↦ CallPhase.noConfusion h, fun h ↦ absurd h hfree⟩
      · simp only [Cores.pass, callPhase, if_neg htarget]
        exact hinv.phase target
    · refine Ensures.bind (attempt_at ?_ hfree) fun _ _ h ↦ h
      simp only [Cores.pass, callPhase, if_pos]
  case haccess =>
    intro c thread op next _ _ hguar h
    refine ⟨hguar.inv h.inv, fun other hother ↦ .inl ⟨hguar.relied hother, ?_⟩⟩
    exact callPhase_access_of_ne hother _ _
  case hact => exact fun _ event ↦ event.elim

/-- Every schedule leaves each thread at a point from which it does its part. -/
theorem callers_hold (plan : ι → L → ChipCall × L) (regs : ℕ → UInt32) (l : ι → L)
    (turns : List (Turn ι Empty)) :
    (sequenceOutline (regs l2cpuResetAddr)).Holds (callers plan)
      ((callers plan).follow (callersStart regs l) turns) := by
  apply sequenceOutline_sound.follow
  · refine ⟨⟨rfl, rfl, fun _ ↦ ⟨UInt32.or_zero.symm, fun _ h ↦ absurd h.symm ?_⟩, fun thread ↦ ?_,
      trivial⟩, fun thread ↦ ?_⟩
    · exact some_ne_none _
    · exact ⟨fun h ↦ CallPhase.noConfusion h, fun h ↦ absurd h (not_holds_of_none rfl)⟩
    · exact not_holds_of_none rfl
  · exact (callers plan).admits_of_forall (fun _ _ ↦ trivial) _ turns

/-- A turn clears no release bit, and sets one only at 200 MHz. -/
theorem reset_turn {c : Config ι (ChipOp ι) (Option UInt32) Empty (ChipWorld ι) fun _ ↦ L}
    (h : (sequenceOutline initial).Holds (callers plan) c) (turn : Turn ι Empty) :
    ((callers plan).turn c turn).scene.memory.regs l2cpuResetAddr =
        c.scene.memory.regs l2cpuResetAddr ∨
      AtSolution .mhz200 c.scene.memory.regs ∧ ∃ mask,
        ((callers plan).turn c turn).scene.memory.regs l2cpuResetAddr =
          c.scene.memory.regs l2cpuResetAddr ||| mask := by
  cases turn with
  | act event => exact event.elim
  | core thread =>
    have hthread := h.at_rest thread
    cases hrest : c.rest thread with
    | done result =>
      rw [(callers plan).turn_done hrest]
      exact .inl rfl
    | step op next =>
      rw [hrest] at hthread
      obtain ⟨hguar, -⟩ := hthread c.scene ⟨⟨.refl thread c.scene.memory, rfl⟩, h.inv⟩
      rw [(callers plan).turn_step hrest]
      change (chipExec op c.scene.memory).2.regs l2cpuResetAddr = _ ∨ _ ∧ ∃ mask,
        (chipExec op c.scene.memory).2.regs l2cpuResetAddr = _
      rcases hguar with ⟨⟨call, rfl⟩, -⟩ | ⟨-, haccess | ⟨rfl, -⟩⟩
      · rcases lock_cases h.inv.sound thread call with ⟨-, hexec⟩ | ⟨-, hexec⟩
        · rw [hexec]
          exact .inl rfl
        · rw [hexec]
          exact .inl rfl
      · exact haccess.reset
      · exact .inl rfl

end Outline

end Bhx.Chip
