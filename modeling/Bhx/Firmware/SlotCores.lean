import Bhx.Firmware.SlotCells
import Bhx.SharedMemory.Cores

/-!
# The cores around a slot

BRISC polls a slot, TRISC1 and TRISC2 visit it, and the guest's driver reads and writes its
registers, all at their own pace (`slotCores`). The driver is any program; what it is doing between
two passes is its private state. Everything else that happens on the engine is an act from outside
that changes a byte: BRISC's polls of other slots and the counters they share, the daemon, other
guests. The acts keep off the slot's registers and shadow (`Outsider`), but for the INTERRUPT_STATUS
register, which the daemon stores.

Scope. The slot stays in the active masks, so BRISC polls it in every iteration and does not
initialise it from outside the poll.
-/

set_option autoImplicit false

namespace Bhx.Firmware

open SharedMemory Machine L1Layout

variable {stores : Cell → ℕ → Bool}

/-! ### The system -/

/-- The parties that access a slot. -/
inductive SlotCore
  | brisc | trisc1 | trisc2 | driver
deriving DecidableEq, Repr

/-- What a party keeps between its passes: TRISC1 and TRISC2 the value they saw last. -/
def SlotCore.Private (D : Type) : SlotCore → Type
  | .brisc => Unit
  | .trisc1 => ℕ
  | .trisc2 => ℕ
  | .driver => D

/-- A store of one byte of L1 from outside. -/
structure ByteStore where
  addr : ℕ
  value : ℕ
deriving DecidableEq, Repr

/-- The parties that access a slot, with a driver. -/
def slotCores (slot : ℕ) {D : Type} (drive : D → Prog D) :
    Cores SlotCore Op ℕ ByteStore World (SlotCore.Private D) where
  exec := exec
  act event w := { w with l1 := writeLE w.l1 event.addr 1 event.value }
  loop
    | .brisc, _ => pollOneDevice slot
    | .trisc1, lastQsel => watchSel slot lastQsel
    | .trisc2, lastDfsel => watchFeatures slot lastDfsel
    | .driver, d => drive d

/-- L1 and what has happened around a slot. -/
abbrev SlotScene := Scene SlotCore Op ℕ ByteStore World

/-- A state of the system. -/
abbrev SlotConfig (D : Type) := Config SlotCore Op ℕ ByteStore World (SlotCore.Private D)

/-- The scene after an access, which depends neither on the slot nor on the driver. -/
abbrev accessed (core : SlotCore) (op : Op) (s : SlotScene) : SlotScene :=
  ⟨(exec op s.memory).2, .access core op (exec op s.memory).1 :: s.trace⟩

/-- The scene after a store of the guest to one of its registers. -/
abbrev guestStored (slot offset value : ℕ) (s : SlotScene) : SlotScene :=
  accessed .driver (.l1Store (regAddr slot offset) 4 value) s

/-- A guest that makes the given register stores, one in each pass. -/
def scripted (slot : ℕ) : List (ℕ × ℕ) → Prog (List (ℕ × ℕ))
  | [] => pure []
  | store :: stores => do
    storeU32 (regAddr slot store.1) store.2
    pure stores

/-- Everybody is between two passes. -/
def betweenPasses {D : Type} (w : World) (lastQsel lastDfsel : ℕ) (d : D) : SlotConfig D where
  scene := ⟨w, []⟩
  rest
    | .brisc => .done ()
    | .trisc1 => .done lastQsel
    | .trisc2 => .done lastDfsel
    | .driver => .done d

/-- A world of which only the given words of L1 matter. -/
def l1World (words : List (ℕ × ℕ × ℕ)) : World where
  l1 := memoryWith words
  dram := fun _ _ ↦ 0
  host := fun _ _ ↦ 0
  processed := fun _ _ ↦ 0
  outside := fun _ _ ↦ 0
  history := []

/-! ### Single accesses -/

variable {slot : ℕ} {D : Type} {drive : D → Prog D} {rely : SlotScene → SlotScene → Prop}
  {s : SlotScene}

section Access

variable {α : Type} {core : SlotCore} {guarantee : Op → SlotScene → Prop}
  {post : α → SlotScene → Prop} {addr value : ℕ} (pre : SlotScene → Prop)

/-- A load of a cell from a property that the surroundings keep. -/
theorem ensures_read {next : ℕ → Prog α} (c : Cell) (pre : SlotScene → Prop)
    (hstable : Stable rely pre) (h : pre s)
    (hnext : ∀ t, pre t → guarantee (.l1Load (c.addr slot) 4) t ∧
      Ensures ((slotCores slot drive).access core) rely guarantee post
        (next (cell slot c t.memory)) (accessed core (.l1Load (c.addr slot) 4) t)) :
    Ensures ((slotCores slot drive).access core) rely guarantee post
      (readU32 (c.addr slot) >>= next) s :=
  fun t hstep ↦ hnext t (hstable s t hstep h)

theorem ensures_store {next : Unit → Prog α} (hstable : Stable rely pre) (h : pre s)
    (hnext : ∀ t, pre t → guarantee (.l1Store addr 4 value) t ∧
      Ensures ((slotCores slot drive).access core) rely guarantee post (next ())
        (accessed core (.l1Store addr 4 value) t)) :
    Ensures ((slotCores slot drive).access core) rely guarantee post
      (storeU32 addr value >>= next) s :=
  fun t hstep ↦ hnext t (hstable s t hstep h)

theorem ensures_last_store {post : Unit → SlotScene → Prop} (hstable : Stable rely pre)
    (h : pre s) (hnext : ∀ t, pre t → guarantee (.l1Store addr 4 value) t ∧
      post () (accessed core (.l1Store addr 4 value) t)) :
    Ensures ((slotCores slot drive).access core) rely guarantee post (storeU32 addr value) s :=
  fun t hstep ↦ hnext t (hstable s t hstep h)

end Access

/-- A byte outside the slot, or of its INTERRUPT_STATUS register. -/
def Outsider (slot : ℕ) (event : ByteStore) : Prop :=
  Aside slot event.addr 1 ∨ Inside event.addr 1 (regAddr slot mmioInterruptStatus) 4

instance (slot : ℕ) (event : ByteStore) : Decidable (Outsider slot event) :=
  inferInstanceAs (Decidable (_ ∨ _))

/-- Everybody takes turns as they like, and the acts from outside keep off the slot. -/
def Unconstrained (slot : ℕ) {D : Type} (_ : SlotConfig D) : Turn SlotCore ByteStore → Prop
  | .core _ => True
  | .act event => Outsider slot event

instance (slot : ℕ) {D : Type} (c : SlotConfig D) :
    (turn : Turn SlotCore ByteStore) → Decidable (Unconstrained slot c turn)
  | .core _ => inferInstanceAs (Decidable True)
  | .act _ => inferInstanceAs (Decidable (Outsider _ _))

/-- The stores of an act from outside. -/
def outsideStores (c : Cell) (_ : ℕ) : Bool := c = .reg mmioInterruptStatus

theorem Outsider.kept (drive : D → Prog D) {event : ByteStore}
    (h : Outsider slot event) (s : SlotScene) :
    CellsKept slot outsideStores s.memory ((slotCores slot drive).outside event s).memory := by
  intro c hc hspared
  rcases h with haside | hinside
  · exact readLE_writeLE_of_apart (haside.apart hc)
  · have hne : .reg mmioInterruptStatus ≠ c := fun heq ↦ of_decide_eq_false (hspared 0) heq.symm
    have happart : Apart (Cell.addr slot (.reg mmioInterruptStatus)) 4 (c.addr slot) 4 :=
      Cell.apart (by decide) hc hne
    exact readLE_writeLE_of_apart (happart.of_inside hinside)

theorem Touches.access_kept (core : SlotCore) {op : Op} (h : Touches slot stores op)
    (s : SlotScene) : CellsKept slot stores s.memory (accessed core op s).memory :=
  h.kept s.memory

/-! ### A poll that resets nothing -/

/-- The surroundings of a poll start no reset. -/
def Resetless (slot : ℕ) (rely : SlotScene → SlotScene → Prop) : Prop :=
  ∀ s s', rely s s' → statusSnap slot s'.memory = statusSnap slot s.memory ∧
    (statusWord slot s'.memory = statusWord slot s.memory ∨ statusWord slot s'.memory ≠ 0)

section Poll

variable {s' : SlotScene}

theorem Resetless.status_ne_zero (h : Resetless slot rely) (hstep : rely s s')
    (hstatus : statusWord slot s.memory ≠ 0) : statusWord slot s'.memory ≠ 0 := by
  rcases (h s s' hstep).2 with heq | hne
  · exact heq ▸ hstatus
  · exact hne

theorem Resetless.live (h : Resetless slot rely) (hstep : rely s s')
    (hlive : Live slot s.memory) : Live slot s'.memory := by
  rcases hlive with hstatus | hsnap
  · exact .inl (h.status_ne_zero hstep hstatus)
  · exact .inr ((h s s' hstep).1.trans hsnap)

theorem CellsKept.status_eq {w w' : World} (h : CellsKept slot stores w w')
    (hspared : Spared stores (.reg mmioStatus) := by exact fun _ ↦ rfl) :
    statusWord slot w' = statusWord slot w :=
  h (.reg mmioStatus) (by decide) hspared

theorem CellsKept.snap_eq {w w' : World} (h : CellsKept slot stores w w')
    (hspared : Spared stores (.snap snapOffStatus) := by exact fun _ ↦ rfl) :
    statusSnap slot w' = statusSnap slot w :=
  h (.snap snapOffStatus) (by decide) hspared

theorem CellsKept.live {w w' : World} (h : CellsKept slot stores w w') (hlive : Live slot w)
    (hstatus : SparesStatus stores := by exact ⟨fun _ ↦ rfl, fun _ ↦ rfl⟩) : Live slot w' := by
  unfold Live
  rw [h.status_eq hstatus.word, h.snap_eq hstatus.snap]
  exact hlive

/-- The access leaves no reset pending. -/
def StaysLive (slot : ℕ) (op : Op) (t : SlotScene) : Prop := Live slot (exec op t.memory).2

variable (h : Resetless slot rely)
include h

theorem Resetless.phase {α : Type} {program : Prog α} (keeps : SlotScene → Prop)
    (hprog : program.Performs (Touches slot stores)) (hstable : Stable rely keeps)
    (hop : ∀ op s, Touches slot stores op → keeps s → keeps (accessed .brisc op s))
    (hlive : Live slot s.memory) (hkeeps : keeps s)
    (hstatus : SparesStatus stores := by exact ⟨fun _ ↦ rfl, fun _ ↦ rfl⟩) :
    Ensures ((slotCores slot drive).access .brisc) rely
      (fun op t ↦ Touches slot stores op ∧ StaysLive slot op t ∧ keeps t)
      (fun _ t ↦ Live slot t.memory ∧ keeps t) program s := by
  refine (Ensures.keeping (fun t ↦ Live slot t.memory ∧ keeps t) hprog ?_ ?_
    ⟨hlive, hkeeps⟩).imp ?_ fun _ _ hpost ↦ hpost.2
  · intro t t' hstep ht
    exact ⟨h.live hstep ht.1, hstable t t' hstep ht.2⟩
  · intro op t htouches ht
    exact ⟨(htouches.kept t.memory).live ht.1 hstatus, hop op t htouches ht.2⟩
  · intro op t ht
    exact ⟨ht.1, (ht.1.kept t.memory).live ht.2.1 hstatus, ht.2.2⟩

/-- The STATUS phase resets nothing: when STATUS reads zero, so does the snapshot. -/
theorem Resetless.pollStatus (keeps : SlotScene → Prop) (hstable : Stable rely keeps)
    (hop : ∀ op s, Touches slot statusStores op → keeps s → keeps (accessed .brisc op s))
    (hlive : Live slot s.memory) (hkeeps : keeps s) :
    Ensures ((slotCores slot drive).access .brisc) rely
      (fun op t ↦ Touches slot statusStores op ∧ StaysLive slot op t ∧ keeps t)
      (fun _ t ↦ Live slot t.memory ∧ keeps t) (Firmware.pollStatus slot) s := by
  refine ensures_read (.reg mmioStatus) (fun t ↦ Live slot t.memory ∧ keeps t) (fun t t' hstep ht ↦
    ⟨h.live hstep ht.1, hstable t t' hstep ht.2⟩) ⟨hlive, hkeeps⟩ fun s1 hs1 ↦ ⟨⟨.load _, hs1⟩, ?_⟩
  refine ensures_read (.snap snapOffStatus) (fun t ↦ (Live slot t.memory ∧ keeps t) ∧
    statusSnap slot t.memory = statusSnap slot s1.memory ∧ (statusWord slot s1.memory ≠ 0 →
    statusWord slot t.memory ≠ 0)) (fun t t' hstep ht ↦ ⟨⟨h.live hstep ht.1.1,
    hstable t t' hstep ht.1.2⟩, (h t t' hstep).1.trans ht.2.1, fun hne ↦ h.status_ne_zero hstep
    (ht.2.2 hne)⟩) ⟨⟨hs1.1, hop _ s1 (.load _) hs1.2⟩, rfl, id⟩ fun s2 hs2 ↦ ⟨⟨.load _, hs2.1⟩, ?_⟩
  obtain ⟨⟨hlive2, hkeeps2⟩, hsnap2, hstatus2⟩ := hs2
  change Ensures _ _ _ _ (if statusWord slot s1.memory ≠ statusSnap slot s2.memory then
    handleStatusChange slot (statusWord slot s1.memory) >>= _ else _) _
  by_cases hchanged : statusWord slot s1.memory ≠ statusSnap slot s2.memory
  · have hstatus1 : statusWord slot s1.memory ≠ 0 := by
      rcases hs1.1 with hne | hzero
      · exact hne
      · rwa [hsnap2, hzero] at hchanged
    rw [if_pos hchanged]
    unfold handleStatusChange Program.onlyIf
    rw [if_neg hstatus1]
    -- STATUS has been seen nonzero and stays so, whatever the snapshot becomes
    have hseen : ∀ t t', rely t t' → statusWord slot t.memory ≠ 0 ∧ keeps t →
        statusWord slot t'.memory ≠ 0 ∧ keeps t' :=
      fun t t' hstep ht ↦ ⟨h.status_ne_zero hstep ht.1, hstable t t' hstep ht.2⟩
    have hcount : ∀ t, statusWord slot t.memory ≠ 0 → keeps t →
        Ensures ((slotCores slot drive).access .brisc) rely
          (fun op t ↦ Touches slot statusStores op ∧ StaysLive slot op t ∧ keeps t)
          (fun _ t ↦ statusWord slot t.memory ≠ 0 ∧ keeps t) (incStat statsOffStatusChanges) t := by
      intro t hstatus hkeeps
      have hprog : (incStat statsOffStatusChanges).Performs (Touches slot statusStores) :=
        touches_incStat
      refine (Ensures.keeping (fun t ↦ statusWord slot t.memory ≠ 0 ∧ keeps t) hprog hseen ?_
        ⟨hstatus, hkeeps⟩).imp ?_ fun _ _ hpost ↦ hpost.2
      · intro op t htouches ht
        exact ⟨(htouches.kept t.memory).status_eq.symm ▸ ht.1, hop op t htouches ht.2⟩
      · intro op t ht
        exact ⟨ht.1, .inl ((ht.1.kept t.memory).status_eq.symm ▸ ht.2.1), ht.2.2⟩
    have hkeeps3 := hop (.l1Load (Cell.addr slot (.snap snapOffStatus)) 4) s2 (.load _) hkeeps2
    refine (hcount (accessed .brisc _ s2) ?_ hkeeps3).bind ?_
    · exact hstatus2 hstatus1
    intro _ s3 hs3
    refine ensures_last_store _ hseen hs3 fun t ht ↦ ?_
    have hstore : Touches slot statusStores (.l1Store (snapAddr slot snapOffStatus) 4
      (statusWord slot s1.memory)) := .store (.snap snapOffStatus) _ (by decide) rfl
    have hlive : StaysLive slot (.l1Store (snapAddr slot snapOffStatus) 4
      (statusWord slot s1.memory)) t := .inl ((hstore.kept t.memory).status_eq.symm ▸ ht.1)
    exact ⟨⟨hstore, hlive, ht.2⟩, hlive, hop _ t hstore ht.2⟩
  · rw [if_neg hchanged]
    exact ⟨hlive2, hop _ s2 (.load _) hkeeps2⟩

theorem Resetless.pollOneDevice (hslot : slot < numSlots) (keeps : SlotScene → Prop)
    (hstable : Stable rely keeps)
    (hop : ∀ op s, Touches slot pollStores op → keeps s → keeps (accessed .brisc op s))
    (hlive : Live slot s.memory) (hkeeps : keeps s) :
    Ensures ((slotCores slot drive).access .brisc) rely
      (fun op t ↦ Touches slot pollStores op ∧ StaysLive slot op t ∧ keeps t)
      (fun _ t ↦ Live slot t.memory ∧ keeps t) (Firmware.pollOneDevice slot) s := by
  have hphase : ∀ {α : Type} {program : Prog α} (t : SlotScene),
      program.Always (Touches slot setupStores) (fun _ ↦ True) → Live slot t.memory → keeps t →
      Ensures ((slotCores slot drive).access .brisc) rely (fun op t ↦ Touches slot pollStores op ∧
      StaysLive slot op t ∧ keeps t) (fun _ t ↦ Live slot t.memory ∧ keeps t) program t := by
    intro α program t hprog hlive hkeeps
    refine (h.phase keeps hprog hstable (fun op t htouches ↦ hop op t (htouches.mono fun _ _ ↦
      pollStores_of_setupStores)) hlive hkeeps).imp ?_ fun _ _ hpost ↦ hpost
    exact fun op t ht ↦ ⟨ht.1.mono fun _ _ ↦ pollStores_of_setupStores, ht.2⟩
  refine ((h.pollStatus keeps hstable (fun op t htouches ↦ hop op t (htouches.mono fun _ _ ↦
    pollStores_of_statusStores)) hlive hkeeps).imp (fun op t ht ↦ ⟨ht.1.mono fun _ _ ↦
    pollStores_of_statusStores, ht.2⟩) fun _ _ hpost ↦ hpost).bind fun _ s1 hs1 ↦ ?_
  refine (hphase s1 touches_pollQueueSel hs1.1 hs1.2).bind fun sel s2 hs2 ↦ ?_
  refine (hphase s2 ((touches_pollQueueReady sel).allow fun _ htouches ↦
    htouches.mono fun _ _ ↦ setupStores_of_readyStores) hs2.1 hs2.2).bind fun _ s3 hs3 ↦ ?_
  refine (hphase s3 ((touches_pollQueueNotify hslot).allow fun _ htouches ↦
    htouches.mono fun _ _ ↦ setupStores_of_notifyStores) hs3.1 hs3.2).bind fun _ s4 hs4 ↦ ?_
  exact hphase s4 (touches_pollRest.allow fun _ htouches ↦
    htouches.mono fun _ _ ↦ setupStores_of_restStores) hs4.1 hs4.2

end Poll

end Bhx.Firmware
