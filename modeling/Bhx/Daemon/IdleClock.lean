import Bhx.Chip.ReleaseSequence
import Bhx.Daemon.RequestSteps

/-!
# The clock of a running core

A core that has been released is meant to run at 1750 MHz: the clock is stepped down only for the
moment in which another core is released, and when no core is released at all. The daemon does not
ensure the second. `maybe_idle_pll` looks at the slots and at the release bits before it takes
`seq_lock`, and in between another request may release a core, which then runs at 200 MHz
(`idle_after_release`). A reset of the board in the middle of a release does no better, since the
thread goes on with dividers that it read before the reset.

These are the only ways. When the board is never reset while a thread has `seq_lock`, and no thread
stores release bits while another one is between its reads in `maybe_idle_pll` and the mutex, then
whenever nobody has the mutex and a release bit is set the dividers are those of 1750 MHz, whatever
requests are carried out and whichever of their steps fail (`released_core_clocked`).
-/

set_option autoImplicit false

namespace Bhx.Daemon

open SharedMemory Chip Option

variable {ι : Type}
variable (l2cpu : L2CpuIdx) (args : BootArgs)

/-! ### Calls that may fail -/

/-- Released cores are clocked at 1750 MHz. -/
def Clocked (regs : ℕ → UInt32) : Prop := (∃ l2cpu, Released regs l2cpu) → AtSolution .mhz1750 regs

/-- Released cores are clocked unless a thread has the mutex, and none is released while a thread
idles the clock. -/
structure ClockInv (w : ChipWorld ι) : Prop where
  clocked : w.seqLock = none → Clocked w.regs
  idle : ∀ thread, w.seqLock = some (thread, .idlePll) → ∀ l2cpu, ¬ Released w.regs l2cpu

/-- The accesses of a thread to the chip: it reads a register, asks for the mutex or has it, and
gives it back when released cores are clocked. It asks for it to idle the clock while no core is
released. -/
def ClockStep (thread : ι) (op : ChipOp ι) (w : ChipWorld ι) : Prop :=
  (∃ addr, op = .arcRead32 addr) ∨
    (∃ call, op = .lock thread call ∧ (call = .idlePll → ∀ l2cpu, ¬ Released w.regs l2cpu)) ∨
    Holds thread w ∧
      (SeqAccess w.regs op ∧ (w.seqLock = some (thread, .idlePll) → DividerAccess op) ∨
        (op = .unlock ∨ op = .poison) ∧ Clocked w.regs)

/-- A part of a thread takes such steps, while the other threads keep the invariant. -/
abbrev KeepsClock {α : Type} (thread : ι) (post : α → ChipWorld ι → Prop)
    (part : Program (ChipOp ι) (Option UInt32) α) (w : ChipWorld ι) : Prop :=
  Ensures chipExec (fun w w' ↦ SeqRely thread w w' ∧ ClockInv w') (ClockStep thread) post part w

section Call

variable {thread : ι} {w : ChipWorld ι} {call : ChipCall}

/-- Every call begins with a read of the dividers, and panics when that fails. -/
theorem body_first (ι : Type) (call : ChipCall) :
    ∃ next : Option UInt32 → Program (ChipOp ι) (Option UInt32) (Except Failure Unit),
      call.body.run = .step (.arcRead32 (pll4Base + pllCntl5)) next ∧
        next none = .done (.error .panic) := by
  cases call with
  | resetX280 indices => exact ⟨_, rfl, rfl⟩
  | idlePll => exact ⟨_, rfl, rfl⟩

/-- What a call does with the mutex leaves released cores clocked, also when it fails. -/
theorem body_clocked (hholder : w.seqLock = some (thread, call)) (hclocked : Clocked w.regs) :
    KeepsClock thread
      (fun _ w' ↦ w'.seqLock = some (thread, call) ∧ (call ≠ .idlePll → Clocked w'.regs))
      call.body.run w := by
  have hheld : Holds thread w := ⟨call, hholder⟩
  by_cases hinner : w.inner = true
  · -- the sequence runs to its end, and the call it belongs to stays
    have hkept {access : (ℕ → UInt32) → ChipOp ι → Prop} {post : Unit → (ℕ → UInt32) → Prop}
        (hbody : Leads access thread w call.body w.regs post) (haccess : ∀ regs op,
        access regs op → SeqAccess regs op ∧ (call = .idlePll → DividerAccess op))
        (hpost : ∀ value regs, post value regs → call ≠ .idlePll → Clocked regs) :
        KeepsClock thread (fun _ w' ↦ w'.seqLock = some (thread, call) ∧
          (call ≠ .idlePll → Clocked w'.regs)) call.body.run w := by
      have hcall := Ensures.withInvariant hbody (fun s ↦ s.seqLock = some (thread, call)) hholder
        (fun s s' hs hstep ↦ by rw [hstep.held ⟨call, hs⟩]; exact hs) (fun op s hs hop ↦ by
          obtain ⟨regs, hregs⟩ := (haccess s.regs op hop.2.2).1.exec
          rw [hregs]
          exact hs)
      refine hcall.mono (fun _ _ h ↦ h.1) (fun op s h ↦ .inr (.inr ⟨h.1.1, .inl ⟨?_, ?_⟩⟩)) ?_
      · exact (haccess s.regs op h.1.2.2).1
      · intro hidle
        rw [h.2] at hidle
        exact (haccess s.regs op h.1.2.2).2 (congrArg Prod.snd (some.inj hidle))
      · rintro _ _ ⟨⟨_, -, regs, rfl, hregs⟩, hcall⟩
        exact ⟨hcall, hpost _ regs hregs⟩
    cases call with
    | resetX280 indices =>
      exact hkept (resetX280_settles hheld hinner indices)
        (fun _ _ h ↦ ⟨h, fun hidle ↦ nomatch hidle⟩) fun _ _ h _ _ ↦ h.1
    | idlePll =>
      have hbody : Leads (fun _ op ↦ DividerAccess op) thread w (ChipCall.idlePll).body w.regs
          fun _ regs ↦ regs = settled .mhz200 w.regs :=
        setFrequency_settles hheld hinner (fun _ _ ↦ id) .mhz200
      exact hkept hbody (fun _ _ h ↦ ⟨.inl h, fun _ ↦ h⟩) fun _ _ _ h ↦ absurd rfl h
  · obtain ⟨next, hnext, hpanic⟩ := body_first ι call
    rw [hnext]
    intro w' hstep
    obtain rfl := hstep.1.held hheld
    refine ⟨.inl ⟨_, rfl⟩, ?_⟩
    change Ensures _ _ _ _ (next (if w'.inner then some (w'.regs _) else none)) w'
    rw [if_neg hinner, hpanic]
    exact ⟨hholder, fun _ ↦ hclocked⟩

/-- A thread gets the mutex when nobody has it, and otherwise nothing happens. -/
theorem lock_outcomes (w : ChipWorld ι) (thread : ι) (call : ChipCall) :
    w.seqLock = none ∧
        chipExec (.lock thread call) w = (some 1, { w with seqLock := some (thread, call) }) ∨
      (chipExec (.lock thread call) w = (none, w) ∨
        chipExec (.lock thread call) w = (some 0, w)) := by
  by_cases hpoisoned : w.poisoned = true
  · right
    left
    simp [chipExec, hpoisoned]
  · rw [Bool.not_eq_true] at hpoisoned
    rcases lock_cases hpoisoned thread call with ⟨hnone, hexec⟩ | ⟨-, hexec⟩
    · exact .inl ⟨hnone, hexec⟩
    · exact .inr (.inr hexec)

/-- A call gives the mutex back when released cores are clocked. -/
theorem dropGuard_clocked {result : Except Failure Unit}
    (hholder : w.seqLock = some (thread, call)) (hclocked : call ≠ .idlePll → Clocked w.regs) :
    KeepsClock thread (fun _ w' ↦ ¬ Holds thread w') (dropGuard result) w := by
  intro w' hstep
  obtain rfl := hstep.1.held ⟨call, hholder⟩
  have hregs : Clocked w'.regs := by
    by_cases hidle : call = .idlePll
    · subst hidle
      rintro ⟨l2cpu, hreleased⟩
      exact absurd hreleased (hstep.2.idle thread hholder l2cpu)
    · exact hclocked hidle
  have hnot : ¬ Holds thread w'.release := not_holds_of_none rfl
  split_ifs with hpanic
  · exact ⟨.inr (.inr ⟨⟨call, hholder⟩, .inr ⟨.inr rfl, hregs⟩⟩), hnot⟩
  · exact ⟨.inr (.inr ⟨⟨call, hholder⟩, .inr ⟨.inl rfl, hregs⟩⟩), hnot⟩

/-- What a call does once it has the mutex, to the end. -/
theorem held_clocked (call : ChipCall) (hclocked : Clocked w.regs) :
    KeepsClock thread (fun result w' ↦ result.isSome ∧ ¬ Holds thread w')
      (do let result ← call.body.run; dropGuard result; pure (some result))
      { w with seqLock := some (thread, call) } :=
  Ensures.bind (body_clocked rfl hclocked) fun _ _ hw1 ↦
    Ensures.bind (dropGuard_clocked hw1.1 hw1.2) fun _ _ hw2 ↦ ⟨rfl, hw2⟩

theorem held_run (thread : ι) (w : ChipWorld ι) (call : ChipCall) (patience : ℕ)
    (hclocked : Clocked w.regs) :
    KeepsClock thread (fun _ w' ↦ ¬ Holds thread w')
      ((do let result ← call.body.run; dropGuard result; pure (some result)) >>= fun result ↦
        match result with
        | some result => pure result
        | none => call.run thread patience) { w with seqLock := some (thread, call) } := by
  refine Ensures.bind (held_clocked call hclocked) fun result w hw ↦ ?_
  cases result with
  | some result => exact hw.2
  | none => exact absurd hw.1 Bool.false_ne_true

/-- A thread asks for the mutex once and runs a call when it gets it. -/
theorem attempt_clocked (hcall : call ≠ .idlePll) (hfree : ¬ Holds thread w) :
    KeepsClock thread (fun _ w' ↦ ¬ Holds thread w') (call.attempt thread) w := by
  intro w' hstep
  refine ⟨.inr (.inl ⟨call, rfl, fun hidle ↦ absurd hidle hcall⟩), ?_⟩
  have hnot := hstep.1.free hfree
  change Ensures _ _ _ _ (if (chipExec (.lock thread call) w').1 = none then _ else
    if (chipExec (.lock thread call) w').1 = some 0 then _ else _) _
  rcases lock_outcomes w' thread call with ⟨hnone, hexec⟩ | hexec | hexec
  · rw [hexec]
    exact (held_clocked call (hstep.2.clocked hnone)).weaken fun _ _ h ↦ h.2
  · rw [hexec, if_pos rfl]
    exact hnot
  · rw [hexec]
    exact hnot

theorem run_clocked (hcall : call ≠ .idlePll) (patience : ℕ) (hfree : ¬ Holds thread w) :
    KeepsClock thread (fun _ w' ↦ ¬ Holds thread w') (call.run thread patience) w := by
  induction patience generalizing w with
  | zero => exact hfree
  | succ patience ih =>
    refine Ensures.bind (attempt_clocked hcall hfree) fun result w' hw' ↦ ?_
    cases result with
    | some result => exact hw'
    | none => exact ih hw'

end Call

section Step

variable {thread other : ι} {w : ChipWorld ι} {op : ChipOp ι}

/-- A step that takes the mutex or works with it keeps the invariant. -/
theorem ClockStep.inv (h : ClockStep thread op w) (hinv : ClockInv w) :
    ClockInv (chipExec op w).2 := by
  rcases h with ⟨addr, rfl⟩ | ⟨call, rfl, hclear⟩ |
    ⟨⟨call, hcall⟩, ⟨haccess, hidle⟩ | ⟨hop, hclocked⟩⟩
  · exact hinv
  · rcases lock_outcomes w thread call with ⟨hnone, hexec⟩ | hexec | hexec
    · rw [hexec]
      refine ⟨fun h ↦ absurd h (some_ne_none _), fun holder hholder ↦ ?_⟩
      exact hclear (congrArg Prod.snd (some.inj hholder))
    · rw [hexec]
      exact hinv
    · rw [hexec]
      exact hinv
  · obtain ⟨regs, hexec⟩ := haccess.exec
    have hlock : (chipExec op w).2.seqLock = some (thread, call) := by rw [hexec]; exact hcall
    refine ⟨fun h ↦ absurd (hlock.symm.trans h) (some_ne_none _), fun holder hholder ↦ ?_⟩
    have hholder' := hlock.symm.trans hholder
    obtain rfl : call = .idlePll := congrArg Prod.snd (some.inj hholder')
    -- a thread that idles the clock stores no release bit
    intro l2cpu hreleased
    apply hinv.idle thread hcall l2cpu
    unfold Released at hreleased ⊢
    rw [(hidle hcall).reset] at hreleased
    exact hreleased
  · have hfree : ClockInv w.release :=
      ⟨fun _ ↦ hclocked, fun holder h ↦ absurd h.symm (some_ne_none _)⟩
    rcases hop with rfl | rfl
    · exact hfree
    · exact ⟨hfree.clocked, hfree.idle⟩

/-- The steps of one thread on the chip are what the others rely on. -/
theorem ClockStep.relied (h : ClockStep thread op w) (hother : other ≠ thread) :
    SeqRely other w (chipExec op w).2 := by
  rcases h with ⟨addr, rfl⟩ | ⟨call, rfl, -⟩ | ⟨hheld, ⟨haccess, -⟩ | ⟨hop, -⟩⟩
  · exact .refl other w
  · exact .lock hother call w
  · obtain ⟨regs, hexec⟩ := haccess.exec
    rw [hexec]
    exact ⟨fun h ↦ absurd (hheld.unique h) hother, id⟩
  · refine ⟨fun h ↦ absurd (hheld.unique h) hother, fun _ ↦ not_holds_of_none ?_⟩
    rcases hop with rfl | rfl
    · rfl
    · rfl

/-- Only a store to L2CPU_RESET changes release bits. -/
theorem ClockStep.spares (h : ClockStep thread op w)
    (hop : ∀ value, op ≠ .arcWrite32 l2cpuResetAddr value) :
    (chipExec op w).2.regs l2cpuResetAddr = w.regs l2cpuResetAddr := by
  rcases h with ⟨addr, rfl⟩ | ⟨call, rfl, -⟩ | ⟨-, ⟨haccess, -⟩ | ⟨rfl | rfl, -⟩⟩
  · rfl
  · rcases lock_outcomes w thread call with ⟨-, hexec⟩ | hexec | hexec <;> rw [hexec]
  · rcases haccess with hdivider | ⟨-, mask, rfl⟩
    · exact hdivider.reset
    · exact absurd rfl (hop _)
  · rfl
  · rfl

end Step

/-! ### The threads -/

/-- The steps of a thread. It does not reset the board while it has the mutex. -/
def DaemonStep (thread : ι) (op : DaemonOp ι) (s : DaemonScene ι) : Prop :=
  match op with
  | .chip op => ClockStep thread op s.memory.chip
  | .resetBoard => ¬ Holds thread s.memory.chip
  | .rpc _ | .readFlag | .setFlag => True

/-- By its own steps, the newest first, a thread is between its reads of the release bits and the
mutex: it has read L2CPU_RESET, and since then has at most asked for the mutex in vain. A thread
that releases a core reads that register too, but has the mutex then. -/
def weighing : List (DaemonOp ι × Reply) → Bool
  | (.chip (.arcRead32 addr), _) :: _ => addr = l2cpuResetAddr
  | (.chip (.lock _ .idlePll), answer) :: log => answer.word = some 0 && weighing log
  | _ => false

variable {platform : Platform}

theorem resetBoard_seqLock (platform : Platform) (w : DaemonWorld ι) :
    (daemonExec platform .resetBoard w).2.chip.seqLock = w.chip.seqLock := by
  change (if w.luck then _ else if w.tried.luck then _ else _ :
    Reply × DaemonWorld ι).2.chip.seqLock = _
  split_ifs
  · rfl
  · rfl
  · rfl

/-- The steps of a thread outside the mutex. -/
def DaemonOp.Plain : DaemonOp ι → Prop
  | .rpc _ | .resetBoard | .readFlag | .setFlag | .chip (.arcRead32 _) => True
  | _ => False

theorem DaemonOp.Plain.seqLock_eq {op : DaemonOp ι} (h : op.Plain) (w : DaemonWorld ι) :
    (daemonExec platform op w).2.chip.seqLock = w.chip.seqLock := by
  cases op with
  | rpc op => exact congrArg ChipWorld.seqLock (rpcExec_chip op w)
  | resetBoard => exact resetBoard_seqLock platform w
  | readFlag => rfl
  | setFlag => rfl
  | chip op =>
    cases op with
    | arcRead32 addr => rfl
    | _ => exact absurd h not_false

/-- A reset of the board leaves the registers or holds every core. -/
theorem resetBoard_clocked (platform : Platform) {w : DaemonWorld ι} (h : Clocked w.chip.regs) :
    Clocked (daemonExec platform .resetBoard w).2.chip.regs := by
  have hboard : Clocked platform.boardRegs := by
    rintro ⟨l2cpu, hreleased⟩
    exact absurd ((platform.held l2cpu).symm.trans hreleased) Bool.false_ne_true
  change Clocked (if w.luck then _ else if w.tried.luck then _ else _ :
    Reply × DaemonWorld ι).2.chip.regs
  split_ifs
  · exact hboard
  · exact h
  · exact hboard

/-- A reset of the board sets no release bit. -/
theorem resetBoard_clear {w : DaemonWorld ι} {l2cpu : L2CpuIdx} (h : ¬ Released w.chip.regs l2cpu) :
    ¬ Released (daemonExec platform .resetBoard w).2.chip.regs l2cpu := by
  have hboard : ¬ Released platform.boardRegs l2cpu := by
    intro hreleased
    exact absurd ((platform.held l2cpu).symm.trans hreleased) Bool.false_ne_true
  change ¬ Released (if w.luck then _ else if w.tried.luck then _ else _ :
    Reply × DaemonWorld ι).2.chip.regs l2cpu
  split_ifs
  · exact hboard
  · exact h
  · exact hboard

variable [DecidableEq ι]

/-- What a thread relies on: the others keep to the mutex, and set no release bit while the thread
weighs whether to idle the clock. -/
structure ClockRely (thread : ι) (s s' : DaemonScene ι) : Prop where
  seq : SeqRely thread s.memory.chip s'.memory.chip
  log : Cores.accesses thread s'.trace = Cores.accesses thread s.trace
  clear : weighing (Cores.accesses thread s.trace) = true →
    ∀ l2cpu, ¬ Released s.memory.chip.regs l2cpu → ¬ Released s'.memory.chip.regs l2cpu

theorem ClockRely.refl (thread : ι) (s : DaemonScene ι) : ClockRely thread s s :=
  ⟨.refl thread _, rfl, fun _ _ h ↦ h⟩

theorem ClockRely.trans {thread : ι} {s s' s'' : DaemonScene ι} (h : ClockRely thread s s')
    (h' : ClockRely thread s' s'') : ClockRely thread s s'' := by
  refine ⟨h.seq.trans h'.seq, h'.log.trans h.log, fun hweighing l2cpu hclear ↦ ?_⟩
  refine h'.clear ?_ l2cpu (h.clear hweighing l2cpu hclear)
  rw [h.log]
  exact hweighing

/-- The parts of the threads. -/
def clockOutline (ι : Type) [DecidableEq ι] :
    Outline ι (DaemonOp ι) Reply Incident (DaemonWorld ι) fun _ ↦ Worker where
  inv s := ClockInv s.memory.chip
  rely := ClockRely
  guarantee := DaemonStep
  between thread _ s := ¬ Holds thread s.memory.chip

/-- What a part of a thread leads from and to. -/
abbrev Clocks {α : Type} (platform : Platform) (thread : ι) (pre : DaemonScene ι → Prop)
    (program : Program (DaemonOp ι) Reply α) (post : α → DaemonScene ι → Prop) : Prop :=
  ∀ s, pre s → Ensures ((rpcThreads platform).access thread)
    (fun s s' ↦ (clockOutline ι).rely thread s s' ∧ (clockOutline ι).inv s') (DaemonStep thread)
    post program s

/-- A part of a thread that has the mutex neither before nor after. -/
abbrev Tidy {α : Type} (platform : Platform) (thread : ι)
    (program : Program (DaemonOp ι) Reply α) : Prop :=
  Clocks platform thread (fun s ↦ ¬ Holds thread s.memory.chip) program
    fun _ s ↦ ¬ Holds thread s.memory.chip

section Threads

variable {α β : Type} {thread : ι} {program : Program (DaemonOp ι) Reply α}

theorem tidy_plain (h : program.Performs DaemonOp.Plain) : Tidy platform thread program := by
  intro s hs
  have halways : Ensures ((rpcThreads platform).access thread)
      (fun s s' ↦ (clockOutline ι).rely thread s s' ∧ (clockOutline ι).inv s')
      (fun op _ ↦ op.Plain) (fun _ _ ↦ True) program s := .ofAlways h s
  have hkept := halways.withInvariant (fun s ↦ ¬ Holds thread s.memory.chip) hs
    (fun _ _ hs hstep ↦ hstep.1.seq.free hs) fun op s hs hop ↦ ?_
  · refine hkept.mono (fun _ _ h ↦ h) (fun op s hop ↦ ?_) fun _ _ h ↦ h.2
    obtain ⟨hplain, hnot⟩ := hop
    cases op with
    | rpc op => trivial
    | readFlag => trivial
    | setFlag => trivial
    | resetBoard => exact hnot
    | chip op =>
      cases op with
      | arcRead32 addr => exact .inl ⟨addr, rfl⟩
      | _ => exact absurd hplain not_false
  · rintro ⟨call, hcall⟩
    exact hs ⟨call, (hop.seqLock_eq s.memory).symm.trans hcall⟩

theorem Tidy.bind {next : α → Program (DaemonOp ι) Reply β} (h : Tidy platform thread program)
    (hnext : ∀ result, Tidy platform thread (next result)) :
    Tidy platform thread (program >>= next) :=
  fun s hs ↦ (h s hs).bind fun result s' hs' ↦ hnext result s' hs'

theorem tidy_done {result : α} : Tidy platform thread (.done result) := fun _ hs ↦ hs

theorem Tidy.andThen {part : DaemonM ι α} {next : α → DaemonM ι β}
    (h : Tidy platform thread part.run) (hnext : ∀ value, Tidy platform thread (next value).run) :
    Tidy platform thread (part >>= next).run := by
  refine h.bind fun result ↦ ?_
  cases result with
  | ok value => exact hnext value
  | error failure => exact tidy_done

theorem tidy_pure (value : α) : Tidy platform thread (pure value : DaemonM ι α).run :=
  tidy_done

theorem tidy_rpc {part : RpcM α} : Tidy platform thread (rpc part : DaemonM ι α).run :=
  tidy_plain (Program.always_embed _ fun _ ↦ trivial)

theorem tidy_chipCall {call : ChipCall} (hcall : call ≠ .idlePll) :
    Tidy platform thread (chipCall platform thread call).run := by
  intro s hs
  have halone := run_clocked hcall platform.patience hs
  exact halone.within (fun s : DaemonScene ι ↦ s.memory.chip) (fun _ _ h ↦ ⟨h.1.seq, h.2⟩)
    (fun _ _ ↦ ⟨rfl, rfl⟩) fun _ _ h ↦ h

/-! ### Idling the clock -/

/-- The thread weighs whether to idle the clock, and has found the release bits of some L2CPUs
clear. They still are. -/
def FoundClear (thread : ι) (found : L2CpuIdx → Prop) (s : DaemonScene ι) : Prop :=
  ¬ Holds thread s.memory.chip ∧ ∀ l2cpu, found l2cpu →
    weighing (Cores.accesses thread s.trace) = true ∧ ¬ Released s.memory.chip.regs l2cpu

theorem FoundClear.rely {found : L2CpuIdx → Prop} {s s' : DaemonScene ι}
    (hs : FoundClear thread found s) (h : ClockRely thread s s') : FoundClear thread found s' := by
  refine ⟨h.seq.free hs.1, fun l2cpu hfound ↦ ?_⟩
  obtain ⟨hweighing, hclear⟩ := hs.2 l2cpu hfound
  rw [h.log]
  exact ⟨hweighing, h.clear hweighing l2cpu hclear⟩

/-- `l2cpu_is_running` looks at the release bit. -/
theorem running_iff (value : UInt32) (l2cpu : L2CpuIdx) :
    value >>> UInt32.ofNat (l2cpu.val + 4) &&& 1 = 1 ↔
      value.toNat.testBit (l2cpu.val + 4) = true := by
  have hshift : (UInt32.ofNat (l2cpu.val + 4)).toNat % 32 = l2cpu.val + 4 := by
    rw [UInt32.toNat_ofNat']
    omega
  rw [← UInt32.toNat_inj, UInt32.toNat_and, UInt32.toNat_shiftRight, hshift,
    Nat.testBit_eq_decide_div_mod_eq, Nat.shiftRight_eq_div_pow]
  change _ &&& 1 = 1 ↔ _
  rw [Nat.and_one_is_mod, decide_eq_true_iff]

/-- A read of the release bit of one more L2CPU. -/
theorem clocks_l2cpuIsRunning (l2cpu : L2CpuIdx) (found : L2CpuIdx → Prop) :
    Clocks platform thread (FoundClear thread found)
      (onChip (l2cpuIsRunning l2cpu).run : DaemonM ι (Except Failure Bool)).run
      fun result s ↦ ¬ Holds thread s.memory.chip ∧ (result = .ok (.ok false) →
        FoundClear thread (fun other ↦ found other ∨ other = l2cpu) s) := by
  intro s hs s' hstep
  have hs' := hs.rely hstep.1
  refine ⟨.inl ⟨_, rfl⟩, ?_⟩
  generalize hanswer : ((rpcThreads platform).access thread
    (.chip (.arcRead32 l2cpuResetAddr)) s').1 = answer
  obtain ⟨word, slot, ok⟩ := answer
  cases word with
  | none => exact ⟨hs'.1, fun hresult ↦ nomatch hresult⟩
  | some word =>
    refine ⟨hs'.1, fun hresult ↦ ⟨hs'.1, fun other hother ↦ ⟨?_, ?_⟩⟩⟩
    · rw [Cores.accesses_access_self]
      exact decide_eq_true rfl
    · rcases hother with hfound | rfl
      · exact (hs'.2 other hfound).2
      · have hword : (chipExec (.arcRead32 l2cpuResetAddr) s'.memory.chip).1 = some word :=
          congrArg Reply.word hanswer
        have hregs : s'.memory.chip.regs l2cpuResetAddr = word := by
          change (if s'.memory.chip.inner then _ else none) = some word at hword
          split_ifs at hword
          exact Option.some.inj hword
        have hbit : decide (word >>> UInt32.ofNat (other.val + 4) &&& 1 = 1) = false :=
          Except.ok.inj (Except.ok.inj hresult)
        intro hreleased
        refine of_decide_eq_false hbit ((running_iff word other).mpr ?_)
        rw [← hregs]
        exact hreleased

/-- When `anyRunning` says no, no release bit that it has looked at is set. -/
theorem clocks_anyRunning (l2cpus : List L2CpuIdx) (found : L2CpuIdx → Prop) :
    Clocks platform thread (FoundClear thread found) (anyRunning l2cpus : DaemonM ι Bool).run
      fun result s ↦ ¬ Holds thread s.memory.chip ∧ (result = .ok false →
        FoundClear thread (fun l2cpu ↦ found l2cpu ∨ l2cpu ∈ l2cpus) s) := by
  induction l2cpus generalizing found with
  | nil =>
    refine fun s hs ↦ ⟨hs.1, fun _ ↦ ⟨hs.1, ?_⟩⟩
    rintro l2cpu (hfound | hmem)
    · exact hs.2 l2cpu hfound
    · exact absurd hmem List.not_mem_nil
  | cons l2cpu l2cpus ih =>
    refine fun s hs ↦ Ensures.bind (clocks_l2cpuIsRunning l2cpu found s hs) fun result s1 hs1 ↦ ?_
    rcases result with failure | failure | running
    · exact ⟨hs1.1, fun hresult ↦ nomatch hresult⟩
    · exact ⟨hs1.1, fun hresult ↦ nomatch hresult⟩
    · cases running with
      | true => exact ⟨hs1.1, fun hresult ↦ nomatch hresult⟩
      | false =>
        refine (ih _ s1 (hs1.2 rfl)).weaken fun result s2 hs2 ↦ ⟨hs2.1, fun hresult ↦ ?_⟩
        obtain ⟨hfree, hclear⟩ := hs2.2 hresult
        refine ⟨hfree, fun other hother ↦ hclear other ?_⟩
        rcases hother with hfound | hmem
        · exact .inl (.inl hfound)
        · exact (List.mem_cons.mp hmem).elim (fun heq ↦ .inl (.inr heq)) .inr

/-- A thread that has found all release bits clear idles the clock while they still are. -/
theorem clocks_idlePll :
    Clocks platform thread (FoundClear thread fun _ ↦ True)
      (chipCall platform thread .idlePll).run fun _ s ↦ ¬ Holds thread s.memory.chip := by
  have hrun (patience : ℕ) : Clocks platform thread (FoundClear thread fun _ ↦ True)
      ((ChipCall.idlePll.run thread patience).within .chip Reply.word)
      fun _ s ↦ ¬ Holds thread s.memory.chip := by
    induction patience with
    | zero => exact fun s hs ↦ hs.1
    | succ patience ih =>
      intro s hs s' hstep
      have hs' := hs.rely hstep.1
      refine ⟨.inr (.inl ⟨_, rfl, fun _ l2cpu ↦ (hs'.2 l2cpu trivial).2⟩), ?_⟩
      change Ensures _ _ _ _ (Program.within _ _
        ((if (chipExec (.lock thread .idlePll) s'.memory.chip).1 = none then _ else
          if (chipExec (.lock thread .idlePll) s'.memory.chip).1 = some 0 then _ else _ :
            Program _ _ _) >>= _)) _
      have hchip : ((rpcThreads platform).access thread
          (.chip (.lock thread .idlePll)) s').2.memory.chip =
        (chipExec (.lock thread .idlePll) s'.memory.chip).2 := rfl
      rcases lock_outcomes s'.memory.chip thread .idlePll with ⟨hnone, hexec⟩ | hexec | hexec
      · have hrest := held_run thread s'.memory.chip .idlePll patience (hstep.2.clocked hnone)
        have hgot := hchip.trans (congrArg Prod.snd hexec)
        dsimp only at hgot
        rw [← hgot] at hrest
        rw [hexec]
        exact hrest.within (fun s : DaemonScene ι ↦ s.memory.chip) (fun _ _ h ↦ ⟨h.1.seq, h.2⟩)
          (fun _ _ ↦ ⟨rfl, rfl⟩) fun _ _ h ↦ h
      · rw [hexec]
        change ¬ Holds thread (chipExec (.lock thread .idlePll) s'.memory.chip).2
        rw [hexec]
        exact hs'.1
      · rw [hexec]
        refine ih _ ⟨?_, fun l2cpu _ ↦ ⟨?_, ?_⟩⟩
        · rw [hchip, hexec]
          exact hs'.1
        · rw [Cores.accesses_access_self]
          change (decide ((chipExec (.lock thread .idlePll) s'.memory.chip).1 = some 0) && _) = true
          rw [hexec, (hs'.2 l2cpu trivial).1]
          rfl
        · rw [hchip, hexec]
          exact (hs'.2 l2cpu trivial).2
  exact hrun platform.patience

theorem tidy_maybeIdlePll : Tidy platform thread (maybeIdlePll platform thread).run := by
  refine tidy_rpc.andThen fun booted ↦ ?_
  split_ifs
  · exact tidy_pure ()
  · intro s hs
    have hstart : FoundClear thread (fun _ ↦ False) s := ⟨hs, fun _ ↦ False.elim⟩
    refine Ensures.bind (clocks_anyRunning allL2Cpus _ s hstart) fun result s1 hs1 ↦ ?_
    rcases result with failure | running
    · exact hs1.1
    · cases running with
      | true => exact hs1.1
      | false =>
        obtain ⟨hfree, hclear⟩ := hs1.2 rfl
        exact clocks_idlePll s1 ⟨hfree, fun l2cpu _ ↦ hclear l2cpu (.inr (List.mem_finRange l2cpu))⟩

theorem tidy_internalStop : Tidy platform thread (internalStop platform thread l2cpu).run := by
  refine tidy_rpc.andThen fun reply ↦ ?_
  split_ifs
  · exact tidy_pure false
  · refine tidy_rpc.andThen fun _ ↦ ?_
    exact tidy_maybeIdlePll.andThen fun _ ↦ tidy_pure true

theorem tidy_dispatchStop : Tidy platform thread (dispatchStop platform thread l2cpu).run := by
  refine (tidy_internalStop l2cpu).andThen fun stopped ↦ ?_
  split_ifs
  · exact tidy_rpc
  · exact tidy_done

theorem tidy_forM (items : List β) {body : β → DaemonM ι Unit}
    (h : ∀ item, Tidy platform thread (body item).run) :
    Tidy platform thread (items.forM body).run := by
  induction items with
  | nil => exact tidy_pure ()
  | cons item items ih => exact (h item).andThen fun _ ↦ ih

theorem tidy_step (op : DaemonOp ι) (h : op.Plain) :
    Tidy platform thread (step op : DaemonM ι Reply).run :=
  tidy_plain ⟨h, fun _ ↦ trivial⟩

theorem tidy_maybeOpportunisticResetBoard {target : L2CpuIdx} :
    Tidy platform thread (maybeOpportunisticResetBoard platform thread target).run := by
  refine (tidy_step .readFlag trivial).andThen fun flag ↦ ?_
  split_ifs
  · exact tidy_pure ()
  · refine tidy_rpc.andThen fun siblings ↦ ?_
    split_ifs
    · exact tidy_pure ()
    · refine (tidy_forM _ fun l2cpu ↦ ?_).andThen fun _ ↦ ?_
      · exact (tidy_internalStop l2cpu).andThen fun _ ↦ tidy_pure ()
      · refine tidy_rpc.andThen fun _ ↦ ?_
        refine (tidy_step .resetBoard trivial).andThen fun reply ↦ ?_
        refine tidy_rpc.andThen fun _ ↦ ?_
        exact (tidy_step .setFlag trivial).andThen fun _ ↦ tidy_pure ()

theorem tidy_coldBoot : Tidy platform thread (coldBoot platform thread args).run := by
  refine tidy_rpc.andThen fun _ ↦ tidy_rpc.andThen fun _ ↦ ?_
  refine tidy_maybeOpportunisticResetBoard.andThen fun _ ↦ ?_
  refine tidy_rpc.andThen fun dtb ↦ tidy_rpc.andThen fun _ ↦ ?_
  refine tidy_rpc.andThen fun _ ↦ tidy_rpc.andThen fun slot ↦ ?_
  have hrelease : Tidy platform thread (releaseL2cpuFromReset platform thread args.l2cpu).run := by
    refine tidy_rpc.andThen fun _ ↦ tidy_rpc.andThen fun _ ↦ ?_
    exact (tidy_chipCall ChipCall.noConfusion).andThen fun _ ↦ tidy_rpc
  exact hrelease.andThen fun _ ↦ tidy_rpc.andThen fun _ ↦ tidy_rpc

theorem tidy_dispatchBoot : Tidy platform thread (dispatchBoot platform thread args).run := by
  refine tidy_rpc.andThen fun _ ↦ tidy_rpc.andThen fun _ ↦ tidy_rpc.andThen fun parked ↦ ?_
  cases parked with
  | some parked => exact tidy_rpc
  | none => exact tidy_coldBoot args

theorem tidy_pass (worker : Worker) : Tidy platform thread (worker.pass platform thread) := by
  unfold Worker.pass
  cases worker.jobs with
  | nil => exact tidy_done
  | cons job jobs =>
    have hjob : Tidy platform thread (job.run platform thread worker.lastParked).run := by
      cases job with
      | boot args => exact (tidy_dispatchBoot args).andThen fun _ ↦ tidy_pure _
      | stop l2cpu => exact (tidy_dispatchStop l2cpu).andThen fun _ ↦ tidy_pure _
      | device l2cpu request =>
        exact tidy_rpc.andThen fun _ ↦ tidy_rpc.andThen fun _ ↦ tidy_pure _
      | probe l2cpu fresh => exact tidy_rpc
    have hover : Tidy platform thread (job.over : Program (DaemonOp ι) Reply Unit) := by
      cases job with
      | boot args => exact tidy_plain ⟨trivial, fun _ ↦ trivial⟩
      | _ => exact tidy_done
    exact hjob.bind fun _ ↦ hover.bind fun _ ↦ tidy_done

end Threads

/-! ### The order that the clock needs -/

/-- The board is reset only while nobody has the mutex, and release bits are stored only while no
other thread weighs whether to idle the clock. -/
def DaemonOp.Prudent (thread : ι) (op : DaemonOp ι) (s : DaemonScene ι) : Prop :=
  match op with
  | .resetBoard => s.memory.chip.seqLock = none
  | .chip (.arcWrite32 addr _) => addr = l2cpuResetAddr →
    ∀ other, other ≠ thread → weighing (Cores.accesses other s.trace) = false
  | _ => True

instance [Fintype ι] (thread : ι) (s : DaemonScene ι) :
    (op : DaemonOp ι) → Decidable (op.Prudent thread s)
  | .resetBoard =>
    decidable_of_iff (s.memory.chip.seqLock.isNone = true) Option.isNone_iff_eq_none
  | .chip (.arcWrite32 addr _) =>
    inferInstanceAs (Decidable (addr = l2cpuResetAddr → ∀ other, other ≠ thread → _ = false))
  | .chip (.lock _ _) | .chip .unlock | .chip .poison | .chip (.arcRead32 _) | .rpc _ | .readFlag
  | .setFlag => .isTrue trivial

/-- A turn keeps to that order. -/
def Prudent (c : DaemonConfig ι) : Turn ι Incident → Prop
  | .core thread => ∀ op ∈ (c.rest thread).nextOp, op.Prudent thread c.scene
  | .act _ => True

instance [Fintype ι] (c : DaemonConfig ι) :
    (turn : Turn ι Incident) → Decidable (Prudent c turn)
  | .core thread => inferInstanceAs (Decidable (∀ op ∈ (c.rest thread).nextOp, _))
  | .act _ => .isTrue trivial

section Order

variable {thread other : ι} {op : ChipOp ι}

/-- The accesses of one thread to the chip are what the others rely on, while release bits are
stored only when nobody weighs. -/
theorem ClockStep.clockRely {s : DaemonScene ι} (h : ClockStep thread op s.memory.chip)
    (hprudent : (DaemonOp.chip op).Prudent thread s) (hother : other ≠ thread) :
    ClockRely other s ((rpcThreads platform).access thread (.chip op) s).2 := by
  refine ⟨h.relied hother, Cores.accesses_access_of_ne _ hother.symm _ _, ?_⟩
  intro hweighing l2cpu hclear hreleased
  by_cases hop : ∃ value, op = .arcWrite32 l2cpuResetAddr value
  · obtain ⟨value, rfl⟩ := hop
    exact absurd ((hprudent rfl other hother).symm.trans hweighing) Bool.false_ne_true
  · refine hclear ?_
    unfold Released at hreleased ⊢
    rw [← h.spares fun value heq ↦ hop ⟨value, heq⟩]
    exact hreleased

/-- A step that leaves the chip alone is relied on. -/
theorem ClockRely.ofChip {s : DaemonScene ι} {op : DaemonOp ι} (hother : other ≠ thread)
    (hchip : (daemonExec platform op s.memory).2.chip = s.memory.chip) :
    ClockRely other s ((rpcThreads platform).access thread op s).2 := by
  have hmemory : ((rpcThreads platform).access thread op s).2.memory.chip = s.memory.chip := hchip
  refine ⟨?_, Cores.accesses_access_of_ne _ hother.symm _ _, fun _ l2cpu hclear ↦ ?_⟩
  · rw [hmemory]
    exact .refl other _
  · rw [hmemory]
    exact hclear

theorem clockOutline_sound (platform : Platform) :
    (clockOutline ι).Sound (rpcThreads platform) Prudent := by
  apply Outline.Sound.ofRely
  case hrefl => exact fun thread s ↦ .refl thread s
  case htrans => exact fun _ _ _ _ h h' ↦ h.trans h'
  case hstable => exact fun _ _ _ _ hstep h ↦ hstep.seq.free h
  case hpass => exact fun _ other s _ ↦ ⟨.refl other s.memory.chip, rfl, fun _ _ h ↦ h⟩
  case hloop => exact fun thread worker s hinv hfree ↦ ⟨hinv, tidy_pass worker _ hfree⟩
  case haccess =>
    intro c thread op next hallowed hrest hguar h
    have hprudent : op.Prudent thread c.scene := hallowed op (by rw [hrest]; rfl)
    cases op with
    | rpc op =>
      refine ⟨?_, fun other hother ↦ .inl (.ofChip hother (rpcExec_chip op c.scene.memory))⟩
      change ClockInv (rpcExec op c.scene.memory).2.chip
      rw [rpcExec_chip op c.scene.memory]
      exact h.inv
    | readFlag => exact ⟨h.inv, fun other hother ↦ .inl (.ofChip hother rfl)⟩
    | setFlag => exact ⟨h.inv, fun other hother ↦ .inl (.ofChip hother rfl)⟩
    | chip op =>
      refine ⟨ClockStep.inv hguar h.inv, fun other hother ↦ .inl ?_⟩
      exact ClockStep.clockRely hguar hprudent hother
    | resetBoard =>
      have hnone := (resetBoard_seqLock platform c.scene.memory).trans hprudent
      have hclocked := resetBoard_clocked platform (h.inv.clocked hprudent)
      refine ⟨⟨fun _ ↦ hclocked, fun holder hholder ↦ ?_⟩, fun other hother ↦
        .inl ⟨SeqRely.ofNone hprudent hnone, ?_, fun _ _ ↦ resetBoard_clear⟩⟩
      · exact absurd (hnone.symm.trans hholder).symm (some_ne_none _)
      · exact Cores.accesses_access_of_ne _ hother.symm _ _
  case hact =>
    intro c event _ h
    cases event with
    | guestWrite | poison =>
      exact ⟨h.inv, fun thread ↦ .inl ⟨.refl thread _, rfl, fun _ _ hclear ↦ hclear⟩⟩

/-- Released cores are clocked. Assumes: any number of threads that carry out any boot and stop
requests, with `--force` or not, and probe for parks, next to guests that store to their memories;
any failures of steps; to begin with nobody has `seq_lock` and released cores are clocked; and along
the schedule the board is reset only while nobody has `seq_lock`, and a thread stores release bits
only while no other one is between its reads of them in `maybe_idle_pll` and `seq_lock`. Whenever
nobody has `seq_lock` and some release bit is set, the dividers are those of 1750 MHz. -/
theorem released_core_clocked (platform : Platform) (w : DaemonWorld ι) (workers : ι → Worker)
    (turns : List (Turn ι Incident)) (hfree : w.chip.seqLock = none)
    (hclocked : Clocked w.chip.regs)
    (hturns : (rpcThreads platform).Admits Prudent (rpcStart w workers) turns) :
    let c := (rpcThreads platform).follow (rpcStart w workers) turns
    c.scene.memory.chip.seqLock = none → (∃ l2cpu, Released c.scene.memory.chip.regs l2cpu) →
      AtSolution .mhz1750 c.scene.memory.chip.regs := by
  have hstart : (clockOutline ι).Holds (rpcThreads platform) (rpcStart w workers) := by
    refine ⟨⟨fun _ ↦ hclocked, fun thread h ↦ ?_⟩, fun thread ↦ ?_⟩
    · exact absurd (hfree.symm.trans h).symm (some_ne_none _)
    · exact not_holds_of_none hfree
  exact ((clockOutline_sound platform).follow hstart hturns).inv.clocked

end Order

/-- A thread that stops L2CPU 0, and one that boots L2CPU 1. -/
def stopAndBoot : Bool → Worker
  | false => ⟨[.stop 0], false⟩
  | true => ⟨[.boot (plainBoot 1)], false⟩

/-- They do so one after the other. -/
def stopThenBoot : List (Turn Bool Incident) :=
  List.replicate 19 (.core false) ++ List.replicate 124 (.core true)

/-- What they leave of a daemon that has taken over a guest on L2CPU 0. -/
def bootedAfterStop : DaemonConfig Bool :=
  (rpcThreads smallPlatform).follow (rpcStart (startedWorld Bool [0]) stopAndBoot) stopThenBoot

theorem released_core_clocked_boot :
    Released bootedAfterStop.scene.memory.chip.regs 1 ∧
      AtSolution .mhz1750 bootedAfterStop.scene.memory.chip.regs := by
  have hclocked : Clocked (startedWorld Bool [0]).chip.regs := fun _ ↦ by decide +kernel
  have hturns : (rpcThreads smallPlatform).Admits Prudent
      (rpcStart (startedWorld Bool [0]) stopAndBoot) stopThenBoot := by
    decide +kernel
  have hfree : bootedAfterStop.scene.memory.chip.seqLock = none := by
    decide +kernel
  have hreleased : Released bootedAfterStop.scene.memory.chip.regs 1 := by decide +kernel
  have hrun := released_core_clocked smallPlatform (startedWorld Bool [0]) stopAndBoot
    stopThenBoot rfl hclocked hturns
  unfold bootedAfterStop at hfree hreleased ⊢
  exact ⟨hreleased, hrun hfree ⟨1, hreleased⟩⟩

/-! ### A core that was released too late -/

/-- The first thread takes the slot of L2CPU 0 and finds all slots empty. The second one finds them
empty as well and resets the board, and the first reads that no release bit is set. Then the second
releases L2CPU 1 and completes its boot, and the first idles the clock. -/
def idleRace : List (Turn Bool Incident) :=
  List.replicate 17 (.core false) ++ List.replicate 11 (.core true) ++
    List.replicate 4 (.core false) ++ List.replicate 112 (.core true) ++
    List.replicate 72 (.core false)

/-- A running core is idled to 200 MHz. The daemon has taken over a guest on L2CPU 0, which runs at
1750 MHz; L2CPU 0 is stopped while L2CPU 1 is booted. Both requests are carried out, L2CPU 1 is
released and its slot is taken, and nobody has `seq_lock`. -/
theorem idle_after_release :
    let w := startedWorld Bool [0]
    let c := (rpcThreads smallPlatform).follow (rpcStart w stopAndBoot) idleRace
    (w.chip.seqLock = none ∧ Clocked w.chip.regs) ∧ c.scene.memory.chip.seqLock = none ∧
      (c.scene.memory.slots 1).isSome ∧ Released c.scene.memory.chip.regs 1 ∧
      AtSolution .mhz200 c.scene.memory.chip.regs ∧
      ¬ AtSolution .mhz1750 c.scene.memory.chip.regs := by
  intro w c
  have hfree : c.scene.memory.chip.seqLock = none := by
    decide +kernel
  refine ⟨⟨rfl, fun _ ↦ by decide +kernel⟩, hfree, ?_, ?_, ?_, ?_⟩
  · decide +kernel
  · decide +kernel
  · decide +kernel
  · decide +kernel

end Bhx.Daemon
