import Mathlib.Data.Fintype.Basic
import Mathlib.Tactic.FinCases
import Mathlib.Tactic.NormNum
import Bhx.Chip.SharedChip

/-!
# Stepping the clock

A thread that has `seq_lock` finds every register as it left it, so what a sequence of accesses does
is a function of the registers it starts from. `set_frequency` reads the dividers once, steps its
own copies and stores each step; wherever the dividers start, it ends with the dividers of the
solution and has changed nothing else (`setFrequency_settles`). `reset_x280` sets its release bits
on the way, while the dividers are those of 200 MHz (`resetX280_settles`).
-/

set_option autoImplicit false

namespace Bhx.Chip

open SharedMemory Function

variable {ι : Type} {next : ℕ → Option ℕ} (f : Frequency) {failure : Failure}
  {store : ℕ → ChipM ι Unit} (target : ℕ) {addr : ℕ} (regs : ℕ → UInt32) {value : UInt32}
  (val : UInt32) {β : Type}

/-! ### Words and dividers -/

theorem PllCntl5.toU32_fromU32 : (PllCntl5.fromU32 val).toU32 = val := by
  have hlt := val.toNat_lt
  apply UInt32.toNat.inj
  change (val.toNat / 256 ^ 0 % 256 + 256 * (val.toNat / 256 ^ 1 % 256) +
    65536 * (val.toNat / 256 ^ 2 % 256) + 16777216 * (val.toNat / 256 ^ 3 % 256)) % 2 ^ 32 = _
  omega

theorem PllCntl5.fromU32_toU32 (c : PllCntl5) (hbyte : ∀ i, c.postdiv i < 256) :
    fromU32 c.toU32 = c := by
  ext i
  have h0 := hbyte 0
  have h1 := hbyte 1
  have h2 := hbyte 2
  have h3 := hbyte 3
  have hword : c.toU32.toNat =
      c.postdiv 0 + 256 * c.postdiv 1 + 65536 * c.postdiv 2 + 16777216 * c.postdiv 3 := by
    rw [toU32, UInt32.toNat_ofNat']
    omega
  fin_cases i
  · change _ / 256 ^ 0 % 256 = c.postdiv 0
    omega
  · change _ / 256 ^ 1 % 256 = c.postdiv 1
    omega
  · change _ / 256 ^ 2 % 256 = c.postdiv 2
    omega
  · change _ / 256 ^ 3 % 256 = c.postdiv 3
    omega

theorem PllCntl1.toU32_fromU32 : (PllCntl1.fromU32 val).toU32 = val := by
  have hlt := val.toNat_lt
  apply UInt32.toNat.inj
  rw [toU32, UInt32.toNat_ofNat']
  simp only [fromU32]
  omega

theorem PllCntl1.fbdiv_fromU32_toU32 (c : PllCntl1) (hrefdiv : c.refdiv < 256)
    (hpostdiv : c.postdiv < 256) (hfbdiv : c.fbdiv < 65536) :
    (fromU32 c.toU32).fbdiv = c.fbdiv := by
  simp only [fromU32, toU32, UInt32.toNat_ofNat']
  omega

theorem Frequency.postdiv_le : f.postdiv ≤ 99 := by cases f <;> decide

theorem Frequency.fbdiv_le : f.fbdiv ≤ 140 := by cases f <;> decide

/-- The post dividers of a frequency. -/
def Frequency.postdivs (f : Frequency) : PllCntl5 := ⟨fun _ ↦ f.postdiv⟩

/-- The registers hold the dividers of a frequency. -/
structure AtSolution (f : Frequency) (regs : ℕ → UInt32) : Prop where
  postdivs : PllCntl5.fromU32 (regs (pll4Base + pllCntl5)) = f.postdivs
  fbdiv : (PllCntl1.fromU32 (regs (pll4Base + pllCntl1))).fbdiv = f.fbdiv

instance (f : Frequency) (regs : ℕ → UInt32) : Decidable (AtSolution f regs) :=
  decidable_of_iff
    ((∀ i, (PllCntl5.fromU32 (regs (pll4Base + pllCntl5))).postdiv i = f.postdiv) ∧
      (PllCntl1.fromU32 (regs (pll4Base + pllCntl1))).fbdiv = f.fbdiv)
    ⟨fun h ↦ ⟨congrArg PllCntl5.mk (funext h.1), h.2⟩,
      fun h ↦ ⟨congrFun (congrArg PllCntl5.postdiv h.postdivs), h.fbdiv⟩⟩

/-- The registers with the dividers of a frequency. -/
def settled (f : Frequency) (regs : ℕ → UInt32) : ℕ → UInt32 :=
  update (update regs (pll4Base + pllCntl5) f.postdivs.toU32)
    (pll4Base + pllCntl1)
    { PllCntl1.fromU32 (regs (pll4Base + pllCntl1)) with fbdiv := f.fbdiv }.toU32

theorem settled_reset : settled f regs l2cpuResetAddr = regs l2cpuResetAddr := by
  unfold settled
  rw [update_of_ne (by decide), update_of_ne (by decide)]

theorem atSolution_settled : AtSolution f (settled f regs) := by
  constructor
  · unfold settled
    apply PllCntl5.fromU32_toU32
    exact fun _ ↦ f.postdiv_le.trans_lt (by decide)
  · unfold settled
    apply PllCntl1.fbdiv_fromU32_toU32
    · exact Nat.mod_lt _ (by decide)
    · exact Nat.mod_lt _ (by decide)
    · exact f.fbdiv_le.trans_lt (by decide)

/-! ### A thread with the mutex -/

/-- The thread has `seq_lock`. -/
def Holds (thread : ι) (w : ChipWorld ι) : Prop := ∃ call, w.seqLock = some (thread, call)

/-- What a thread relies on: while it has the mutex, nothing of the chip changes, and nobody else
takes the mutex in its name. -/
structure SeqRely (thread : ι) (w w' : ChipWorld ι) : Prop where
  held : Holds thread w → w' = w
  free : ¬ Holds thread w → ¬ Holds thread w'

/-- The accesses of `set_frequency`: it reads and stores dividers. -/
def DividerAccess : ChipOp ι → Prop
  | .arcRead32 _ => True
  | .arcWrite32 addr _ => addr = pll4Base + pllCntl5 ∨ addr = pll4Base + pllCntl1
  | _ => False

/-- The accesses of a sequence: it also sets release bits while the dividers are those of
200 MHz. -/
def SeqAccess (regs : ℕ → UInt32) (op : ChipOp ι) : Prop :=
  DividerAccess op ∨ AtSolution .mhz200 regs ∧
    ∃ mask, op = .arcWrite32 l2cpuResetAddr (regs l2cpuResetAddr ||| mask)

/-- What a thread does with the mutex. -/
def SeqStep (access : (ℕ → UInt32) → ChipOp ι → Prop) (thread : ι) (op : ChipOp ι)
    (w : ChipWorld ι) : Prop :=
  Holds thread w ∧ w.inner = true ∧ access w.regs op

/-- The world with other registers. -/
def ChipWorld.withRegs (w : ChipWorld ι) (regs : ℕ → UInt32) : ChipWorld ι :=
  { w with regs := regs }

section Sequence

variable {access : (ℕ → UInt32) → ChipOp ι → Prop} {thread : ι} {w : ChipWorld ι}
  {regs : ℕ → UInt32} {α : Type} {post : α → (ℕ → UInt32) → Prop} {program : ChipM ι α}

/-- A sequence of the thread makes these accesses and leaves this result and these registers,
whatever the others do. -/
def Leads (access : (ℕ → UInt32) → ChipOp ι → Prop) (thread : ι) (w : ChipWorld ι)
    (program : ChipM ι α) (regs : ℕ → UInt32) (post : α → (ℕ → UInt32) → Prop) : Prop :=
  Succeeds chipExec (SeqRely thread) (SeqStep access thread)
    (fun value s ↦ ∃ regs', s = w.withRegs regs' ∧ post value regs') program (w.withRegs regs)

theorem Leads.bind {next : α → ChipM ι β} {final : β → (ℕ → UInt32) → Prop}
    (h : Leads access thread w program regs post)
    (hnext : ∀ value regs', post value regs' → Leads access thread w (next value) regs' final) :
    Leads access thread w (program >>= next) regs final := by
  refine Succeeds.bind h fun value s hs ↦ ?_
  obtain ⟨regs', rfl, hpost⟩ := hs
  exact hnext value regs' hpost

theorem Leads.weaken {post' : α → (ℕ → UInt32) → Prop}
    (h : Leads access thread w program regs post)
    (hpost : ∀ value r, post value r → post' value r) :
    Leads access thread w program regs post' := by
  refine Succeeds.weaken h fun value s hs ↦ ?_
  obtain ⟨regs', rfl, hvalue⟩ := hs
  exact ⟨regs', rfl, hpost value regs' hvalue⟩

theorem leads_pure {value : α} (h : post value regs) :
    Leads access thread w (pure value) regs post :=
  succeeds_pure ⟨regs, rfl, h⟩

theorem leads_foldlM {advance : β → α → β} {body : β → α → ChipM ι β}
    {holds : β → (ℕ → UInt32) → Prop} (h : ∀ value item r, holds value r →
      Leads access thread w (body value item) r fun value' r' ↦ value' = advance value item ∧
        holds value' r') (items : List α) {value : β} (hregs : holds value regs) :
    Leads access thread w (items.foldlM body value) regs fun value' r' ↦
      value' = items.foldl advance value ∧ holds value' r' := by
  have hfold : Succeeds chipExec (SeqRely thread) (SeqStep access thread)
      (fun value' s ↦ value' = items.foldl advance value ∧ ∃ r, s = w.withRegs r ∧ holds value' r)
      (items.foldlM body value) (w.withRegs regs) := by
    apply succeeds_foldlM
    · rintro value item _ ⟨r, rfl, hr⟩
      refine Succeeds.weaken (h value item r hr) fun value' s hs ↦ ?_
      obtain ⟨r', rfl, hvalue, hr'⟩ := hs
      exact ⟨hvalue, r', rfl, hr'⟩
    · exact ⟨regs, rfl, hregs⟩
  refine hfold.weaken fun value' s hs ↦ ?_
  obtain ⟨hvalue, r, rfl, hr⟩ := hs
  exact ⟨r, rfl, hvalue, hr⟩

/-! ### The accesses -/

section Accesses

variable (hheld : Holds thread w) (hinner : w.inner = true)
include hheld hinner

/-- An access of the thread finds the registers as it left them. -/
theorem leads_perform {op : ChipOp ι} {post : UInt32 → (ℕ → UInt32) → Prop}
    (haccess : access regs op) {answer : UInt32} {regs' : ℕ → UInt32}
    (hexec : chipExec op (w.withRegs regs) = (some answer, w.withRegs regs'))
    (hpost : post answer regs') :
    Leads access thread w (Fallible.perform failure op) regs post := by
  apply succeeds_perform
  intro s hs
  obtain rfl := hs.held hheld
  refine ⟨⟨hheld, hinner, haccess⟩, answer, congrArg Prod.fst hexec, regs', ?_, hpost⟩
  exact congrArg Prod.snd hexec

theorem leads_read {addr : ℕ} (haccess : access regs (.arcRead32 addr)) :
    Leads access thread w (Fallible.perform failure (.arcRead32 addr)) regs fun value r ↦
      value = regs addr ∧ r = regs := by
  refine leads_perform hheld hinner haccess ?_ ⟨rfl, rfl⟩
  change (if w.inner then some (regs addr) else none, w.withRegs regs) = _
  rw [if_pos hinner]

theorem leads_write (haccess : access regs (.arcWrite32 addr value)) :
    Leads access thread w (Fallible.perform failure (.arcWrite32 addr value)) regs fun _ r ↦
      r = update regs addr value := by
  have hexec : chipExec (.arcWrite32 addr value) (w.withRegs regs) =
      (some 0, w.withRegs (update regs addr value)) := by
    change (if w.inner then _ else _) = _
    rw [if_pos hinner]
    rfl
  exact leads_perform hheld hinner haccess hexec rfl

theorem leads_pllWrite32 (haccess : access regs (.arcWrite32 addr value)) :
    Leads access thread w (pllWrite32 addr value) regs fun _ r ↦
      r = update regs addr value := by
  refine Leads.bind (leads_write hheld hinner haccess) fun _ r hr ↦ ?_
  exact leads_pure hr

end Accesses

/-! ### The loops -/

/-- Stepping a divider ends where the steps lead, when they lead there in as many rounds. -/
theorem leads_stepDivider {settle distance : ℕ → ℕ} {holds : ℕ → (ℕ → UInt32) → Prop}
    (hstop : ∀ d, next d = none → settle d = d)
    (hnext : ∀ d d', next d = some d' → settle d' = settle d ∧ distance d' < distance d)
    {hstore : ∀ d d' r, holds d r → Leads access thread w (store d') r fun _ r' ↦ holds d' r'}
    {steps divider : ℕ} (hsteps : distance divider ≤ steps) (hregs : holds divider regs) :
    Leads access thread w (stepDivider next store steps divider) regs fun d r ↦
      d = settle divider ∧ holds d r := by
  induction steps generalizing divider regs with
  | zero =>
    have hdone : next divider = none := by
      cases hd : next divider with
      | none => rfl
      | some d' => exact absurd (hnext divider d' hd).2 (by omega)
    exact leads_pure ⟨(hstop divider hdone).symm, hregs⟩
  | succ steps ih =>
    unfold stepDivider
    cases hd : next divider with
    | none => exact leads_pure ⟨(hstop divider hd).symm, hregs⟩
    | some d' =>
      obtain ⟨hsettle, hcloser⟩ := hnext divider d' hd
      refine Leads.bind (hstore divider d' regs hregs) fun _ r hr ↦ ?_
      rw [← hsettle]
      exact ih (by omega) hr

theorem raise_cases :
    (∀ d, raise target d = none → max d target = d) ∧
      ∀ d d', raise target d = some d' →
        max d' target = max d target ∧ target - d' < target - d := by
  constructor
  · intro d h
    unfold raise at h
    split_ifs at h with hd
    omega
  · intro d d' h
    unfold raise at h
    split_ifs at h with hd
    obtain rfl := Option.some.inj h
    omega

theorem approach_cases :
    (∀ d, approach target d = none → target = d) ∧
      ∀ d d', approach target d = some d' →
        target = target ∧ target - d' + (d' - target) < target - d + (d - target) := by
  constructor
  · intro d h
    unfold approach at h
    split_ifs at h with hd
    exact (not_not.mp hd).symm
  · intro d d' h
    unfold approach at h
    split_ifs at h with hd hup
    · obtain rfl := Option.some.inj h
      omega
    · obtain rfl := Option.some.inj h
      omega

theorem lower_cases :
    (∀ d, lower target d = none → min d target = d) ∧
      ∀ d d', lower target d = some d' →
        min d' target = min d target ∧ d' - target < d - target := by
  constructor
  · intro d h
    unfold lower at h
    split_ifs at h with hd
    omega
  · intro d d' h
    unfold lower at h
    split_ifs at h with hd
    obtain rfl := Option.some.inj h
    omega

/-- Every post divider gets the value that its own loop leads to. -/
theorem foldl_set (settle : ℕ → ℕ) (c : PllCntl5) :
    (List.finRange 4).foldl (fun c i ↦ c.set i (settle (c.postdiv i))) c =
      ⟨fun i ↦ settle (c.postdiv i)⟩ := by
  ext i
  fin_cases i
  · rfl
  · rfl
  · rfl
  · rfl

section Loops

variable (hheld : Holds thread w) (hinner : w.inner = true)
  (haccess : ∀ regs op, DividerAccess op → access regs op)
include hheld hinner haccess

/-- The loop of one post divider, with the register at the thread's copy before and after. -/
theorem leads_stepPostdiv {settle distance : ℕ → ℕ} (hstop : ∀ d, next d = none → settle d = d)
    (hnext : ∀ d d', next d = some d' → settle d' = settle d ∧ distance d' < distance d)
    (c : PllCntl5) (i : Fin 4) (hsteps : distance (c.postdiv i) ≤ 255) :
    Leads access thread w (stepPostdiv next c i)
      (update regs (pll4Base + pllCntl5) c.toU32) fun c' r ↦
        c' = c.set i (settle (c.postdiv i)) ∧
          r = update regs (pll4Base + pllCntl5) c'.toU32 := by
  have hself : c.set i (c.postdiv i) = c := by
    unfold PllCntl5.set
    rw [update_eq_self]
  have hloop : Leads access thread w (stepDivider next (fun divider ↦ pllWrite32
      (pll4Base + pllCntl5) (c.set i divider).toU32) 255 (c.postdiv i)) (update regs
      (pll4Base + pllCntl5) c.toU32) fun d r ↦ d = settle (c.postdiv i) ∧ r = update regs
      (pll4Base + pllCntl5) (c.set i d).toU32 := by
    apply leads_stepDivider hstop hnext hsteps
    · rw [hself]
    · rintro d d' _ rfl
      refine Leads.weaken (leads_pllWrite32 hheld hinner (haccess _ _ (.inl rfl))) fun _ r hr ↦ ?_
      rw [hr, update_idem]
  refine Leads.bind hloop fun d r hd ↦ ?_
  obtain ⟨rfl, hr⟩ := hd
  exact leads_pure ⟨rfl, hr⟩

theorem leads_stepPostdivs {settle distance : ℕ → ℕ} (hstop : ∀ d, next d = none → settle d = d)
    (hnext : ∀ d d', next d = some d' → settle d' = settle d ∧ distance d' < distance d)
    (hbyte : ∀ d ≤ 255, settle d ≤ 255 ∧ distance d ≤ 255) (regs : ℕ → UInt32) (c : PllCntl5)
    (hc : ∀ i, c.postdiv i ≤ 255) :
    Leads access thread w ((List.finRange 4).foldlM (stepPostdiv next) c)
      (update regs (pll4Base + pllCntl5) c.toU32) fun c' r ↦
        c' = ⟨fun i ↦ settle (c.postdiv i)⟩ ∧
          r = update regs (pll4Base + pllCntl5) c'.toU32 := by
  have hfold : Leads access thread w ((List.finRange 4).foldlM (stepPostdiv next) c)
      (update regs (pll4Base + pllCntl5) c.toU32) fun c' r ↦ c' = (List.finRange 4).foldl
      (fun c i ↦ c.set i (settle (c.postdiv i))) c ∧ (∀ i,
      c'.postdiv i ≤ 255) ∧ r = update regs (pll4Base + pllCntl5) c'.toU32 := by
    apply leads_foldlM
    · rintro c i _ ⟨hc, rfl⟩
      obtain ⟨hsettle, hdistance⟩ := hbyte _ (hc i)
      refine Leads.weaken (leads_stepPostdiv hheld hinner haccess hstop hnext c i hdistance)
        fun c' r h ↦ ?_
      obtain ⟨rfl, hr⟩ := h
      refine ⟨rfl, fun j ↦ ?_, hr⟩
      by_cases hj : j = i
      · subst hj
        simpa [PllCntl5.set] using hsettle
      · simpa [PllCntl5.set, hj] using hc j
    · exact ⟨hc, rfl⟩
  refine hfold.weaken fun c' r h ↦ ?_
  rw [foldl_set] at h
  exact ⟨h.1, h.2.2⟩

/-- `set_frequency` leaves the dividers of the solution, wherever it starts, and nothing else
changes. -/
theorem setFrequency_settles (f : Frequency) :
    Leads access thread w (setFrequency f) regs fun _ r ↦ r = settled f regs := by
  -- the copies of the thread are what the registers hold
  refine Leads.bind (leads_read hheld hinner (haccess _ _ trivial)) fun postdivWord r hread ↦ ?_
  obtain ⟨rfl, rfl⟩ := hread
  refine Leads.bind (leads_read hheld hinner (haccess _ _ trivial)) fun fbdivWord r hread ↦ ?_
  obtain ⟨rfl, rfl⟩ := hread
  let postdivs := PllCntl5.fromU32 (r (pll4Base + pllCntl5))
  let cntl1 := PllCntl1.fromU32 (r (pll4Base + pllCntl1))
  have hstart : update r (pll4Base + pllCntl5) postdivs.toU32 = r := by
    rw [PllCntl5.toU32_fromU32, update_eq_self]
  have hpostdivs : ∀ i, postdivs.postdiv i ≤ 255 := fun i ↦
    Nat.le_of_lt_succ (Nat.mod_lt _ (by decide))
  have hfbdiv : cntl1.fbdiv < 65536 := Nat.mod_lt _ (by decide)
  have htarget := f.postdiv_le
  -- step 1
  obtain ⟨hraiseStop, hraiseNext⟩ := raise_cases f.postdiv
  have hraise := leads_stepPostdivs hheld hinner haccess hraiseStop hraiseNext
    (fun d hd ↦ ⟨by omega, by omega⟩) r postdivs hpostdivs
  rw [hstart] at hraise
  refine Leads.bind hraise fun raised r1 hraised ↦ ?_
  obtain ⟨hraised, rfl⟩ := hraised
  -- step 2
  let stored (fbdiv : ℕ) : UInt32 := { cntl1 with fbdiv := fbdiv }.toU32
  have hbefore : stored cntl1.fbdiv = r (pll4Base + pllCntl1) := PllCntl1.toU32_fromU32 _
  obtain ⟨hstop, hnext⟩ := approach_cases f.fbdiv
  have happroach : Leads access thread w (stepDivider (approach f.fbdiv) (fun fbdiv ↦ pllWrite32
      (pll4Base + pllCntl1) (stored fbdiv)) 65535 cntl1.fbdiv) (update r (pll4Base +
      pllCntl5) raised.toU32) fun fbdiv r' ↦ fbdiv = f.fbdiv ∧ r' = update (update
      r (pll4Base + pllCntl1) (stored fbdiv)) (pll4Base + pllCntl5) raised.toU32 := by
    have hle := f.fbdiv_le
    apply leads_stepDivider hstop hnext (by omega)
    · rw [hbefore, update_eq_self]
    · rintro d d' _ rfl
      refine Leads.weaken (leads_pllWrite32 hheld hinner (haccess _ _ (.inr rfl))) fun _ r' hr' ↦ ?_
      rw [hr', update_comm (by decide), update_idem]
  refine Leads.bind happroach fun fbdiv r2 hfbdiv ↦ ?_
  obtain ⟨rfl, rfl⟩ := hfbdiv
  -- step 3
  obtain ⟨hlowerStop, hlowerNext⟩ := lower_cases f.postdiv
  have hraisedByte : ∀ i, raised.postdiv i ≤ 255 := by
    intro i
    have hi := hpostdivs i
    rw [hraised]
    change max (postdivs.postdiv i) f.postdiv ≤ 255
    omega
  refine Leads.bind (leads_stepPostdivs hheld hinner haccess hlowerStop hlowerNext
    (fun d hd ↦ ⟨by omega, by omega⟩) _ raised hraisedByte) fun lowered r3 hlowered ↦ ?_
  obtain ⟨hlowered, rfl⟩ := hlowered
  have hsolution : lowered = f.postdivs := by
    rw [hlowered, hraised]
    ext i
    exact min_eq_right (le_max_right _ _)
  apply leads_pure
  rw [hsolution, update_comm (by decide)]
  rfl

end Loops

/-- `reset_x280` sets its release bits and leaves the dividers of 1750 MHz. -/
theorem resetX280_settles (hheld : Holds thread w) (hinner : w.inner = true)
    (indices : List L2CpuIdx) :
    Leads SeqAccess thread w (resetX280 indices) regs fun _ r ↦ AtSolution .mhz1750 r ∧
      r l2cpuResetAddr = regs l2cpuResetAddr ||| releaseMask indices := by
  have hdivider (regs : ℕ → UInt32) (op : ChipOp ι) (h : DividerAccess op) : SeqAccess regs op :=
    .inl h
  refine Leads.bind (setFrequency_settles hheld hinner hdivider .mhz200) fun _ r1 hr1 ↦ ?_
  subst hr1
  have hbits : Leads SeqAccess thread w (applyReleaseBits indices) (settled .mhz200 regs) fun _ r ↦
      r = update (settled .mhz200 regs) l2cpuResetAddr
        (regs l2cpuResetAddr ||| releaseMask indices) := by
    refine Leads.bind (leads_read hheld hinner (hdivider _ _ trivial)) fun before r hbefore ↦ ?_
    obtain ⟨rfl, rfl⟩ := hbefore
    have hrelease : SeqAccess (settled .mhz200 regs) (.arcWrite32 l2cpuResetAddr
        (regs l2cpuResetAddr ||| releaseMask indices) : ChipOp ι) :=
      .inr ⟨atSolution_settled .mhz200 regs, releaseMask indices, by rw [settled_reset]⟩
    exact Leads.bind (leads_write hheld hinner hrelease) fun _ r hr ↦ leads_pure hr
  refine Leads.bind hbits fun _ r2 hr2 ↦ ?_
  refine Leads.bind (leads_read hheld hinner (hdivider _ _ trivial)) fun _ r3 hr3 ↦ ?_
  obtain ⟨-, rfl⟩ := hr3
  subst hr2
  refine Leads.weaken (setFrequency_settles hheld hinner hdivider .mhz1750) fun _ r hr ↦ ?_
  subst hr
  refine ⟨atSolution_settled .mhz1750 _, ?_⟩
  rw [settled_reset, update_self]

end Sequence

/-! ### The accesses whatever happens -/

section Accesses

variable (ι)

theorem stepDivider_only (hstore : ∀ divider, (store divider).Only DividerAccess)
    (steps divider : ℕ) : (stepDivider next store steps divider).Only DividerAccess := by
  induction steps generalizing divider with
  | zero => exact only_pure divider
  | succ steps ih =>
    unfold stepDivider
    cases next divider with
    | none => exact only_pure divider
    | some divider' => exact (hstore divider').bind fun _ ↦ ih divider'

theorem pllWrite32_only {value : UInt32}
    (haddr : addr = pll4Base + pllCntl5 ∨ addr = pll4Base + pllCntl1) :
    (pllWrite32 addr value : ChipM ι Unit).Only DividerAccess :=
  Fallible.Only.map (only_perform haddr)

theorem stepPostdiv_only {next : ℕ → Option ℕ} {current : PllCntl5} {i : Fin 4} :
    (stepPostdiv next current i : ChipM ι PllCntl5).Only DividerAccess :=
  (stepDivider_only ι (fun _ ↦ pllWrite32_only ι (.inl rfl)) _ _).map

/-- Also when it fails, `set_frequency` reads and stores dividers only. -/
theorem setFrequency_only : (setFrequency f : ChipM ι Unit).Only DividerAccess := by
  refine (only_perform).bind fun _ ↦ (only_perform).bind fun _ ↦ ?_
  refine (only_foldlM _ (fun _ _ ↦ stepPostdiv_only ι) _).bind fun raised ↦ ?_
  refine (stepDivider_only ι (fun _ ↦ pllWrite32_only ι (.inr rfl)) _ _).bind fun _ ↦ ?_
  exact (only_foldlM _ (fun _ _ ↦ stepPostdiv_only ι) _).map

end Accesses

end Bhx.Chip
