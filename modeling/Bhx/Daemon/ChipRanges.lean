import Mathlib.Algebra.Group.Nat.Defs
import Mathlib.Data.List.Infix

/-!
The registry of chip-mapped address ranges that the fault handler consults. A writer loads the
pointer to the published snapshot, copies the snapshot with its change, leaks the copy and publishes
it by a compare and exchange, and starts again when another writer was faster. Snapshots are never
freed, so a pointer names the same ranges for ever, and an exchange that succeeds changes the
snapshot it was computed from.

Every interleaving is one of a registry whose calls take effect at one instant each (`Takes`). A
call that publishes nothing takes effect at its last load. A lookup would answer wrongly only for
the last address of the address space, in a range that contains it. The daemon registers the windows
that it has mapped, and none of them ends there (`Call.Mapped`).

Scope. A step is one access to the pointer, with the work since the one before.
-/

set_option autoImplicit false

namespace Bhx.Daemon.ChipRanges

open List

structure ChipRange where
  start : UInt64
  len : UInt64
  deriving DecidableEq

def usizeMax : ℕ := 2 ^ 64 - 1

/-- The range covers `[start, start + len)`. -/
def ChipRange.Covers (range : ChipRange) (addr : UInt64) : Prop :=
  range.start.toNat ≤ addr.toNat ∧ addr.toNat < range.start.toNat + range.len.toNat

instance (range : ChipRange) (addr : UInt64) : Decidable (range.Covers addr) :=
  inferInstanceAs (Decidable (_ ∧ _))

def saturatingAdd (a b : UInt64) : ℕ := min (a.toNat + b.toNat) usizeMax

/-- The walk of `addr_is_in_chip_range` over the snapshot it loaded. -/
def addrIsInChipRange (slice : List ChipRange) (addr : UInt64) : Bool :=
  slice.any fun r ↦ r.start.toNat ≤ addr.toNat ∧ addr.toNat < saturatingAdd r.start r.len

inductive Call
  | register (start len : UInt64)
  | unregister (start : UInt64)
  | lookup (addr : UInt64)
  deriving DecidableEq

/-- The copy of the snapshot that a call makes. -/
def Call.change (slice : List ChipRange) : Call → List ChipRange
  | .register start len => slice ++ [⟨start, len⟩]
  | .unregister start => slice.filter (·.start ≠ start)
  | .lookup _ => slice

/-- The result of a call that publishes nothing after it has loaded this snapshot. -/
def Call.result (slice : List ChipRange) : Call → Option (Option Bool)
  | .register _ _ => none
  | .unregister start => if slice.any (·.start = start) then none else some none
  | .lookup addr => some (some (addrIsInChipRange slice addr))

/-- Where a thread is in its call. -/
inductive Pc
  | idle
  | start (call : Call)
  | loaded (call : Call) (cur : Option ℕ)
  | returned (call : Call) (result : Option Bool)
  deriving DecidableEq

/-- `register_chip_range` returns at once for an empty range. -/
def Call.enter : Call → Pc
  | .register _ 0 => .idle
  | call => .start call

/-- The pointer `CHIP_RANGES` and the leaked slices. A pointer that is not null is the number of its
slice. -/
structure Memory where
  chipRanges : Option ℕ
  leaked : List (List ChipRange)

def sliceAt (leaked : List (List ChipRange)) (pointer : Option ℕ) : List ChipRange :=
  (pointer.bind (leaked[·]?)).getD []

/-- The snapshot that is published. -/
def Memory.current (m : Memory) : List ChipRange := sliceAt m.leaked m.chipRanges

/-- A thread calls, or takes its next step. -/
inductive Action
  | call (call : Call)
  | step

def step (m : Memory) : Action → Pc → Memory × Pc
  | .call call, .idle => (m, call.enter)
  | .step, .start call => (m, .loaded call m.chipRanges)
  | .step, .loaded call cur =>
    let slice := sliceAt m.leaked cur
    match call.result slice with
    | some result => (m, .returned call result)
    | none =>
      let leaked := m.leaked ++ [call.change slice]
      if m.chipRanges = cur then (⟨some m.leaked.length, leaked⟩, .returned call none)
      else (⟨m.chipRanges, leaked⟩, .start call)
  | .step, .returned _ _ => (m, .idle)
  | _, pc => (m, pc)

structure State (ι : Type) where
  memory : Memory
  pc : ι → Pc

section Runs

variable {ι : Type} [DecidableEq ι]

def State.init : State ι := ⟨⟨none, []⟩, fun _ ↦ .idle⟩

def State.after (s : State ι) (event : ι × Action) : State ι :=
  let (memory, pc) := step s.memory event.2 (s.pc event.1)
  ⟨memory, Function.update s.pc event.1 pc⟩

def run (events : List (ι × Action)) : State ι := events.foldl State.after .init

end Runs

/-! ### The atomic registry -/

inductive Status
  | idle
  | waiting (call : Call)
  | done (call : Call) (result : Option Bool)

/-- A thread of the atomic registry acts: the ranges and its status before and after. -/
inductive Takes (ranges : List ChipRange) : Action → Status → List ChipRange → Status → Prop
  | stay (action : Action) (status : Status) : Takes ranges action status ranges status
  | call (call : Call) : Takes ranges (.call call) .idle ranges (.waiting call)
  | register (start len : UInt64) : Takes ranges .step (.waiting (.register start len))
      (ranges ++ [⟨start, len⟩]) (.done (.register start len) none)
  | unregister (start : UInt64) : Takes ranges .step (.waiting (.unregister start))
      (ranges.filter fun range ↦ range.start ≠ start) (.done (.unregister start) none)
  | lookup (addr : UInt64) : Takes ranges .step (.waiting (.lookup addr)) ranges
      (.done (.lookup addr) (some (decide (∃ range ∈ ranges, range.Covers addr))))
  | return (call : Call) (result : Option Bool) :
      Takes ranges .step (.done call result) ranges .idle

/-- A call that publishes nothing has had its instant once it has loaded. -/
def status (leaked : List (List ChipRange)) : Pc → Status
  | .idle => .idle
  | .start call => .waiting call
  | .loaded call cur => (call.result (sliceAt leaked cur)).elim (.waiting call) (.done call)
  | .returned call result => .done call result

/-- A range that does not contain the last address. -/
def ChipRange.Mapped (range : ChipRange) : Prop :=
  range.start.toNat + range.len.toNat ≤ usizeMax

/-- A range that is registered is a window that was mapped. -/
def Call.Mapped : Call → Prop
  | .register start len => ChipRange.Mapped ⟨start, len⟩
  | _ => True

def Action.Mapped : Action → Prop
  | .call called => called.Mapped
  | .step => True

instance (action : Action) : Decidable action.Mapped :=
  match action with
  | .call (.register _ _) => inferInstanceAs (Decidable (_ ≤ _))
  | .call (.unregister _) => .isTrue trivial
  | .call (.lookup _) => .isTrue trivial
  | .step => .isTrue trivial

theorem addrIsInChipRange_eq {slice : List ChipRange} (hmapped : ∀ range ∈ slice, range.Mapped)
    (addr : UInt64) :
    addrIsInChipRange slice addr = decide (∃ range ∈ slice, range.Covers addr) := by
  rw [addrIsInChipRange, Bool.eq_iff_iff, any_eq_true, decide_eq_true_eq]
  refine exists_congr fun range ↦ and_congr_right fun hrange ↦ ?_
  rw [decide_eq_true_eq, ChipRange.Covers, saturatingAdd, min_eq_left (hmapped range hrange)]

/-- The load of a call is its instant, or changes nothing. -/
theorem takes_load (call : Call) {slice : List ChipRange}
    (hmapped : ∀ range ∈ slice, range.Mapped) : Takes slice .step (.waiting call) slice
      ((call.result slice).elim (.waiting call) (.done call)) := by
  cases call with
  | register start len => exact .stay _ _
  | unregister start =>
    rw [Call.result]
    split_ifs with hfound
    · exact .stay _ _
    · have htakes : Takes slice .step _ _ _ := .unregister start
      have hall : slice.filter (·.start ≠ start) = slice := by simpa using hfound
      rwa [hall] at htakes
  | lookup addr =>
    rw [Call.result, addrIsInChipRange_eq hmapped]
    exact .lookup addr

/-- The exchange of a call that publishes is its instant. -/
theorem takes_publish {call : Call} {slice : List ChipRange} (hresult : call.result slice = none) :
    Takes slice .step (.waiting call) (call.change slice) (.done call none) := by
  cases call with
  | register start len => exact .register start len
  | unregister start => exact .unregister start
  | lookup addr => cases hresult

/-! ### Leaked snapshots stay -/

section Steps

variable {leaked leaked' : List (List ChipRange)} {m : Memory} {pc : Pc}

def Valid (leaked : List (List ChipRange)) (pointer : Option ℕ) : Prop :=
  ∀ p ∈ pointer, p < leaked.length

/-- The pointer leads to a snapshot, and all snapshots hold mapped windows. -/
structure Memory.Sound (m : Memory) : Prop where
  valid : Valid m.leaked m.chipRanges
  mapped : ∀ slice ∈ m.leaked, ∀ range ∈ slice, range.Mapped

def Pc.Sound (leaked : List (List ChipRange)) : Pc → Prop
  | .start call => call.Mapped
  | .loaded call cur => call.Mapped ∧ Valid leaked cur
  | _ => True

theorem Valid.grown (hgrow : leaked <+: leaked') {pointer : Option ℕ} (h : Valid leaked pointer) :
    Valid leaked' pointer ∧ sliceAt leaked' pointer = sliceAt leaked pointer := by
  cases pointer with
  | none => exact ⟨nofun, rfl⟩
  | some p =>
    refine ⟨fun q hq ↦ (h q hq).trans_le hgrow.length_le, ?_⟩
    obtain ⟨more, rfl⟩ := hgrow
    simp [sliceAt, getElem?_append_left (h p rfl)]

theorem Pc.Sound.grown (hgrow : leaked <+: leaked') (h : pc.Sound leaked) :
    pc.Sound leaked' ∧ status leaked' pc = status leaked pc := by
  cases pc with
  | loaded call cur =>
    obtain ⟨hvalid, hslice⟩ := Valid.grown hgrow h.2
    exact ⟨⟨h.1, hvalid⟩, by rw [status, status, hslice]⟩
  | start call => exact ⟨h, rfl⟩
  | _ => exact ⟨trivial, rfl⟩

theorem Memory.Sound.sliceAt (h : m.Sound) (pointer : Option ℕ) :
    ∀ range ∈ sliceAt m.leaked pointer, range.Mapped := by
  intro range hrange
  cases hslice : pointer.bind (m.leaked[·]?) with
  | none =>
    rw [ChipRanges.sliceAt, hslice] at hrange
    cases hrange
  | some slice =>
    rw [ChipRanges.sliceAt, hslice] at hrange
    obtain ⟨p, -, hp⟩ := Option.bind_eq_some_iff.mp hslice
    exact h.mapped slice (mem_of_getElem? hp) range hrange

theorem Call.Mapped.change {call : Call} (hcall : call.Mapped) {slice : List ChipRange}
    (hslice : ∀ range ∈ slice, range.Mapped) : ∀ range ∈ call.change slice, range.Mapped := by
  intro range hrange
  cases call with
  | register start len =>
    rcases mem_append.mp hrange with hold | hnew
    · exact hslice range hold
    · rw [mem_singleton.mp hnew]
      exact hcall
  | unregister start => exact hslice range (mem_of_mem_filter hrange)
  | lookup addr => exact hslice range hrange

/-- A copy that is leaked keeps the memory sound, whichever snapshot is published then. -/
theorem Memory.Sound.leak (h : m.Sound) {call : Call} (hcall : call.Mapped) (cur : Option ℕ)
    {pointer : Option ℕ}
    (hvalid : Valid (m.leaked ++ [call.change (ChipRanges.sliceAt m.leaked cur)]) pointer) :
    Memory.Sound ⟨pointer, m.leaked ++ [call.change (ChipRanges.sliceAt m.leaked cur)]⟩ := by
  refine ⟨hvalid, fun slice hslice ↦ ?_⟩
  rcases mem_append.mp hslice with hold | hnew
  · exact h.mapped slice hold
  · rw [mem_singleton.mp hnew]
    exact hcall.change (h.sliceAt cur)

theorem Call.Mapped.enter {call : Call} (h : call.Mapped) :
    call.enter = .idle ∨ call.enter = .start call ∧ call.Mapped := by
  unfold Call.enter
  split
  · exact .inl rfl
  · exact .inr ⟨rfl, h⟩

/-- A step leaks what it publishes, keeps what was leaked, and is a step of the atomic registry. -/
theorem step_takes {action : Action} (haction : action.Mapped) (hm : m.Sound)
    (h : pc.Sound m.leaked) :
    (m.leaked <+: (step m action pc).1.leaked ∧ (step m action pc).1.Sound ∧
      (step m action pc).2.Sound (step m action pc).1.leaked) ∧
    Takes m.current action (status m.leaked pc) (step m action pc).1.current
      (status (step m action pc).1.leaked (step m action pc).2) := by
  cases action with
  | call call => cases pc with
    | idle =>
      simp only [step]
      rcases Call.Mapped.enter haction with henter | ⟨henter, hcall⟩
      · rw [henter]
        exact ⟨⟨prefix_rfl, hm, trivial⟩, .stay _ _⟩
      · rw [henter]
        exact ⟨⟨prefix_rfl, hm, hcall⟩, .call _⟩
    | _ => exact ⟨⟨prefix_rfl, hm, h⟩, .stay _ _⟩
  | step => cases pc with
    | start call => exact ⟨⟨prefix_rfl, hm, h, hm.valid⟩, takes_load call (hm.sliceAt _)⟩
    | loaded call cur =>
      have hgrow := prefix_append m.leaked [call.change (sliceAt m.leaked cur)]
      cases hresult : call.result (sliceAt m.leaked cur) with
      | some result =>
        simp only [step, status, hresult]
        exact ⟨⟨prefix_rfl, hm, trivial⟩, .stay _ _⟩
      | none =>
        simp only [step, status, hresult]
        split_ifs with hsame
        · refine ⟨⟨hgrow, hm.leak h.1 cur fun p hp ↦ ?_, trivial⟩, ?_⟩
          · cases hp
            simp
          · have htakes := takes_publish hresult
            simpa [Memory.current, hsame, sliceAt] using htakes
        · refine ⟨⟨hgrow, hm.leak h.1 cur (hm.valid.grown hgrow).1, h.1⟩, ?_⟩
          rw [Memory.current, Memory.current, (hm.valid.grown hgrow).2]
          exact .stay _ _
    | returned call result => exact ⟨⟨prefix_rfl, hm, trivial⟩, .return _ _⟩
    | idle => exact ⟨⟨prefix_rfl, hm, trivial⟩, .stay _ _⟩

end Steps

section Interleavings

variable {ι : Type} [DecidableEq ι]

/-- The step is one of the atomic registry, which leaves the other threads alone. -/
def State.Atomically (s : State ι) (event : ι × Action) : Prop :=
  Takes s.memory.current event.2 (status s.memory.leaked (s.pc event.1))
      (s.after event).memory.current
      (status (s.after event).memory.leaked ((s.after event).pc event.1)) ∧
    ∀ other ≠ event.1, status (s.after event).memory.leaked ((s.after event).pc other) =
      status s.memory.leaked (s.pc other)

structure State.Sound (s : State ι) : Prop where
  memory : s.memory.Sound
  pc : ∀ thread, (s.pc thread).Sound s.memory.leaked

theorem State.Sound.after {s : State ι} (h : s.Sound) {event : ι × Action}
    (hevent : event.2.Mapped) : (s.after event).Sound ∧ s.Atomically event := by
  obtain ⟨⟨hgrow, hmemory, hsound⟩, htakes⟩ := step_takes hevent h.memory (h.pc event.1)
  have hother (other : ι) (hne : other ≠ event.1) : (s.after event).pc other = s.pc other :=
    Function.update_of_ne hne _ _
  have hself : (s.after event).pc event.1 = (step s.memory event.2 (s.pc event.1)).2 :=
    Function.update_self _ _ _
  refine ⟨⟨hmemory, fun thread ↦ ?_⟩, ?_, fun other hne ↦ ?_⟩
  · rcases eq_or_ne thread event.1 with rfl | hne
    · rwa [hself]
    · rw [hother _ hne]
      exact ((h.pc thread).grown hgrow).1
  · rwa [hself]
  · rw [hother _ hne]
    exact ((h.pc other).grown hgrow).2

theorem run_sound {events : List (ι × Action)} (hmapped : ∀ event ∈ events, event.2.Mapped) :
    (run events).Sound := by
  induction events using reverseRecOn with
  | nil => exact ⟨⟨nofun, nofun⟩, fun _ ↦ trivial⟩
  | append_singleton events event ih =>
    rw [run, foldl_concat]
    have hbefore := ih fun other hother ↦ hmapped other (mem_append_left _ hother)
    exact (hbefore.after (hmapped event (mem_append_right _ mem_cons_self))).1

end Interleavings

/-- Two threads register a window each. Both load the pointer before one of them publishes, so that
the other has to start again. A lookup comes in between. -/
def race : List (Bool × Action) :=
  [(true, .call (.register 0x1000 0x1000)), (false, .call (.register 0x8000 0x2000)), (true, .step),
    (false, .step), (true, .step), (true, .step), (true, .call (.lookup 0x8000)), (false, .step),
    (true, .step), (false, .step), (false, .step), (true, .step)]

end Bhx.Daemon.ChipRanges
