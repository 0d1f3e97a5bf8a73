import Bhx.Firmware.SlotFrame
import Bhx.Firmware.NotifyRegister

/-!
# The words of a slot

The registers, the shadow words and the snapshots of a slot as named cells (`Cell`). Distinct cells
share no byte, so a store to one leaves the others alone (`cell_store_of_ne`), and nothing outside
the slot reaches them. `Touches` says which cells an access of the firmware may store, and for each
phase of a poll that does not reset the device there is the list of the cells it touches.
-/

set_option autoImplicit false

namespace Bhx.Firmware

open SharedMemory Machine L1Layout

variable {value offset queue : ℕ}

/-! ### Cells -/

/-- The value of a cell. -/
def cell (slot : ℕ) (c : Cell) (w : World) : ℕ := readLE w.l1 (c.addr slot) 4

/-- The word in the QUEUE_SEL register. -/
def selWord (slot : ℕ) (w : World) : ℕ := cell slot (.reg mmioQueueSel) w

/-- BRISC's snapshot of QUEUE_SEL. -/
def selSnap (slot : ℕ) (w : World) : ℕ := cell slot (.snap snapOffQueueSel) w

/-- The word in the QUEUE_READY register. -/
def readyWord (slot : ℕ) (w : World) : ℕ := cell slot (.reg mmioQueueReady) w

variable {slot : ℕ}

variable {c other : Cell}

theorem Cell.apart (hc : c.Valid) (hother : other.Valid) (hne : c ≠ other) :
    Apart (c.addr slot) 4 (other.addr slot) 4 := by
  cases c <;> cases other <;> simp only [ne_eq, Cell.reg.injEq, Cell.shadow.injEq, Cell.snap.injEq,
    reduceCtorEq, not_false_eq_true] at hne <;> simp only [Cell.Valid, Cell.addr, Apart, regAddr,
    slotRegsBase, regsBase, regsPerDev, mmioConfig, shadowQueueAddr, shadowBase, shadowPerDevice,
    shadowPerQueue, maxQueuesPerSlot, snapAddr, snapBaseOff] at * <;> omega

theorem cell_store_self (slot : ℕ) (c : Cell) (value : ℕ) (w : World) :
    cell slot c (exec (.l1Store (c.addr slot) 4 value) w).2 = value % 2 ^ 32 :=
  readLE_writeLE_self _ _ _ _

theorem cell_store_of_ne (hc : c.Valid) (hother : other.Valid) (hne : c ≠ other) (value : ℕ)
    (w : World) : cell slot other (exec (.l1Store (c.addr slot) 4 value) w).2 = cell slot other w :=
  readLE_writeLE_of_apart (Cell.apart hc hother hne)

theorem cell_lt (c : Cell) (w : World) : cell slot c w < 2 ^ 32 := readLE_lt _ _ _

/-- The addresses of a slot's cells lie in its register file or its shadow block. -/
theorem Cell.Valid.addr_mem (slot : ℕ) (hc : c.Valid) :
    Inside (c.addr slot) 4 (regAddr slot 0) mmioConfig ∨
      Inside (c.addr slot) 4 (shadowQueueAddr slot 0 0) shadowPerDevice := by
  cases c <;> simp only [Cell.Valid, Cell.addr, Inside, regAddr, slotRegsBase, regsBase, regsPerDev,
    mmioConfig, shadowQueueAddr, shadowBase, shadowPerDevice, shadowPerQueue, maxQueuesPerSlot,
    snapAddr, snapBaseOff] at * <;> omega

/-- A range outside the register file and the shadow block of the slot. -/
def Aside (slot addr size : ℕ) : Prop :=
  Apart addr size (regAddr slot 0) mmioConfig ∧
    Apart addr size (shadowQueueAddr slot 0 0) shadowPerDevice

instance (slot addr size : ℕ) : Decidable (Aside slot addr size) :=
  inferInstanceAs (Decidable (_ ∧ _))

theorem Aside.apart {addr size : ℕ} (h : Aside slot addr size) (hc : c.Valid) :
    Apart addr size (c.addr slot) 4 := by
  rcases hc.addr_mem slot with hin | hin
  · exact (h.1.symm.of_inside hin).symm
  · exact (h.2.symm.of_inside hin).symm

theorem aside_stat (h : offset + 4 ≤ statsSize) : Aside slot (statsBase + offset) 4 := by
  simp only [Aside, Apart, statsBase, statsSize, regAddr, slotRegsBase, regsBase, mmioConfig,
    shadowQueueAddr, shadowBase] at *
  omega

theorem aside_dirty (hslot : slot < numSlots) (hqueue : queue < maxQueuesPerSlot) :
    Aside slot (dirtyByteAddr slot queue) 1 := by
  simp only [Aside, Apart, dirtyByteAddr, ctrlBase, ctrlOffDirty, maxQueuesPerSlot, regAddr,
    slotRegsBase, regsBase, mmioConfig, shadowQueueAddr, shadowBase, numSlots] at *
  omega

/-! ### The cells an access touches -/

/-- The accesses of the firmware that store nothing of the slot but some values in some cells. -/
inductive Touches (slot : ℕ) (stores : Cell → ℕ → Bool) : Op → Prop
  | load (addr : ℕ) : Touches slot stores (.l1Load addr 4)
  | aside (addr size value : ℕ) (h : Aside slot addr size) :
      Touches slot stores (.l1Store addr size value)
  | store (c : Cell) (value : ℕ) (hvalid : c.Valid) (hc : stores c value = true) :
      Touches slot stores (.l1Store (c.addr slot) 4 value)

/-- A cell in which no value is stored. -/
def Spared (stores : Cell → ℕ → Bool) (c : Cell) : Prop := ∀ value, stores c value = false

/-- The spared cells of the slot hold what they held. -/
def CellsKept (slot : ℕ) (stores : Cell → ℕ → Bool) (w w' : World) : Prop :=
  ∀ c : Cell, c.Valid → Spared stores c → cell slot c w' = cell slot c w

/-- Neither STATUS nor its snapshot is stored. -/
structure SparesStatus (stores : Cell → ℕ → Bool) : Prop where
  word : Spared stores (.reg mmioStatus)
  snap : Spared stores (.snap snapOffStatus)

variable {stores : Cell → ℕ → Bool}

section Touches

variable {stores' : Cell → ℕ → Bool} {op : Op}

theorem CellsKept.eq {w w' : World} (h : CellsKept slot stores w w') (c : Cell)
    (hvalid : c.Valid := by decide) (hspared : Spared stores c := by exact fun _ ↦ rfl) :
    cell slot c w' = cell slot c w := h c hvalid hspared

section

variable (h : Touches slot stores op)
include h

theorem Touches.mono (hstores : ∀ c value, stores c value = true → stores' c value = true) :
    Touches slot stores' op := by
  cases h with
  | load addr => exact .load addr
  | aside addr size value h => exact .aside addr size value h
  | store c value hvalid hc => exact .store c value hvalid (hstores c value hc)

/-- A cell holds what it held or a value that may be stored there. -/
theorem Touches.cell_cases (hc : c.Valid) (w : World) :
    cell slot c (exec op w).2 = cell slot c w ∨
      ∃ value, stores c value = true ∧ cell slot c (exec op w).2 = value % 2 ^ 32 := by
  cases h with
  | load addr => exact .inl rfl
  | aside addr size value h => exact .inl (readLE_writeLE_of_apart (h.apart hc))
  | store other value hvalid hother =>
    by_cases hne : other = c
    · subst hne
      exact .inr ⟨value, hother, cell_store_self slot other value w⟩
    · exact .inl (cell_store_of_ne hvalid hc hne value w)

/-- The firmware stores nothing but zero in QUEUE_READY. -/
theorem Touches.readyWord_eq_zero
    (hstores : ∀ value, stores (.reg mmioQueueReady) value = true → value = 0) {w : World}
    (hready : readyWord slot w = 0) : readyWord slot (exec op w).2 = 0 := by
  rcases h.cell_cases (c := .reg mmioQueueReady) (by decide) w with heq | ⟨value, hvalue, heq⟩
  · exact heq.trans hready
  · rw [hstores value hvalue] at heq
    exact heq

theorem Touches.kept (w : World) : CellsKept slot stores w (exec op w).2 := by
  intro c hc hspared
  rcases h.cell_cases hc w with heq | ⟨value, hstores, -⟩
  · exact heq
  · rw [hspared value] at hstores
    exact absurd hstores Bool.false_ne_true

end

theorem Touches.stat (value : ℕ) (h : offset + 4 ≤ statsSize) :
    Touches slot stores (.l1Store (statsBase + offset) 4 value) :=
  .aside _ _ _ (aside_stat h)

theorem touches_incStat (h : offset + 4 ≤ statsSize := by decide) :
    (incStat offset).Performs (Touches slot stores) :=
  ⟨.load _, fun _ ↦ ⟨.stat _ h, fun _ ↦ trivial⟩⟩

theorem touches_cell (slot : ℕ) (c : Cell) (value : ℕ) (hvalid : c.Valid := by decide) :
    Touches slot (fun other _ ↦ other = c) (.l1Store (c.addr slot) 4 value) :=
  .store c value hvalid (decide_eq_true rfl)

theorem touches_readU32 {addr : ℕ} : (readU32 addr).Performs (Touches slot stores) :=
  always_readU32 (.load addr)

theorem touches_storeU32 (hvalid : c.Valid := by decide) (hc : stores c value = true := by rfl) :
    (storeU32 (c.addr slot) value).Performs (Touches slot stores) :=
  always_storeU32 (.store c value hvalid hc)

end Touches

/-! ### The phases of a poll -/

/-- The stores of the QUEUE_NOTIFY phase. -/
def notifyStores (c : Cell) (_ : ℕ) : Bool := c = .reg mmioQueueNotify

/-- The stores of the phases behind STATUS. -/
def setupStores : Cell → ℕ → Bool
  | .reg offset, value =>
    offset = mmioQueueReady && value = 0 ||
      offset ∈ [mmioQueueNumMax, mmioQueueNum, mmioQueueNotify, mmioSelGeneration]
  | .shadow _ _, _ => true
  | .snap offset, _ => offset ∈ setupSnaps

/-- The stores of the STATUS phase when it resets nothing. -/
def statusStores (c : Cell) (_ : ℕ) : Bool := c = .snap snapOffStatus

/-- The stores of a poll that does not reset the device. -/
def pollStores (c : Cell) (value : ℕ) : Bool := setupStores c value || statusStores c value

/-- The stores of TRISC1. -/
def watchSelStores (c : Cell) (value : ℕ) : Bool := c = .reg mmioQueueReady && value = 0

/-- The stores of TRISC2. -/
def featureStores (c : Cell) (_ : ℕ) : Bool := c = .reg mmioDeviceFeatures

/-- No store. -/
def noStores (_ : Cell) (_ : ℕ) : Bool := false

theorem setupStores_of_selStores {oldSel : ℕ} (h : selStores oldSel c value = true) :
    setupStores c value = true := by
  cases c with
  | reg offset =>
    simp only [selStores, setupStores, Bool.or_eq_true, decide_eq_true_eq, List.mem_cons,
      List.not_mem_nil, or_false] at *
    tauto
  | shadow queue offset => rfl
  | snap offset => simp [selStores] at h

theorem setupStores_of_readyStores {sel : ℕ} (h : readyStores sel c value = true) :
    setupStores c value = true := by
  cases c with
  | reg offset =>
    simp only [readyStores, setupStores, Bool.or_eq_true] at *
    exact .inl h
  | shadow queue offset => rfl
  | snap offset => simp [readyStores] at h

theorem setupStores_of_notifyStores (h : notifyStores c value = true) :
    setupStores c value = true := by
  obtain rfl := of_decide_eq_true h
  rfl

theorem setupStores_of_restStores (h : restStores c value = true) : setupStores c value = true := by
  cases c with
  | reg offset =>
    obtain rfl := of_decide_eq_true h
    rfl
  | shadow queue offset => rfl
  | snap offset =>
    simp only [restStores, setupStores, setupSnaps, decide_eq_true_eq, List.mem_cons,
      List.not_mem_nil, or_false] at *
    tauto

theorem pollStores_of_setupStores (h : setupStores c value = true) : pollStores c value = true := by
  simp [pollStores, h]

theorem pollStores_of_statusStores (h : statusStores c value = true) :
    pollStores c value = true := by
  simp [pollStores, h]

/-- The phases store nothing but zero in QUEUE_READY. -/
theorem eq_zero_of_setupStores (h : setupStores (.reg mmioQueueReady) value = true) :
    value = 0 := by
  simpa [setupStores, mmioQueueReady, mmioQueueNumMax, mmioQueueNum, mmioQueueNotify,
    mmioSelGeneration] using h

theorem eq_zero_of_watchSelStores (h : watchSelStores c value = true) : value = 0 := by
  simp only [watchSelStores, Bool.and_eq_true, decide_eq_true_eq] at h
  exact h.2

theorem spared_watchSelStores (h : c ≠ .reg mmioQueueReady) : Spared watchSelStores c := by
  intro value
  simp [watchSelStores, h]

theorem touches_clearReady (slot : ℕ) :
    Touches slot watchSelStores (.l1Store (regAddr slot mmioQueueReady) 4 0) :=
  .store (.reg mmioQueueReady) 0 (by decide) rfl

theorem Touches.admits : Admits slot stores (Touches slot stores) :=
  ⟨fun addr _ ↦ .load addr, fun _ value h ↦ .stat value h, fun c value ↦ .store c value⟩

theorem touches_handleQueueSelChange (slot oldSel sel : ℕ) :
    (handleQueueSelChange slot oldSel sel).Performs (Touches slot (selStores oldSel)) :=
  Touches.admits.does_handleQueueSelChange sel

theorem touches_pollQueueSel : (pollQueueSel slot).Performs (Touches slot setupStores) :=
  performs_pollQueueSel (fun _ ↦ Touches.admits.mono fun _ _ ↦ setupStores_of_selStores)
    fun value ↦ .store (.snap snapOffQueueSel) value (by decide) rfl

theorem touches_pollQueueReady (sel : ℕ) :
    (pollQueueReady slot sel).Performs (Touches slot (readyStores sel)) :=
  Touches.admits.does_pollQueueReady

theorem touches_handleQueueNotify (hslot : slot < numSlots) (q : ℕ) :
    (handleQueueNotify slot q).Performs (Touches slot stores) := by
  refine (always_storeU32 (.stat _ (by decide))).bind fun _ _ ↦ ?_
  refine (Program.always_onlyIf fun hq ↦ ?_).bind fun _ _ ↦ touches_incStat
  exact ⟨.aside _ _ _ (aside_dirty hslot hq), fun _ ↦ trivial⟩

theorem touches_pollQueueNotify (hslot : slot < numSlots) :
    (pollQueueNotify slot).Performs (Touches slot notifyStores) := by
  refine touches_readU32.bind fun notify _ ↦ ?_
  split_ifs with hfired
  · refine (touches_handleQueueNotify hslot notify).bind fun _ _ ↦ ?_
    exact touches_storeU32 (c := .reg mmioQueueNotify)
  · trivial

theorem touches_pollRest : (pollRest slot).Performs (Touches slot restStores) :=
  Touches.admits.does_pollRest

theorem touches_watchSel (slot lastQsel : ℕ) :
    (watchSel slot lastQsel).Performs (Touches slot watchSelStores) := by
  refine touches_readU32.bind fun qsel _ ↦ ?_
  split_ifs with hchanged
  · exact (touches_storeU32 (c := .reg mmioQueueReady)).bind
  · trivial

theorem touches_watchFeatures (slot lastDfsel : ℕ) :
    (watchFeatures slot lastDfsel).Performs (Touches slot featureStores) := by
  refine touches_readU32.bind fun dfsel _ ↦ ?_
  split_ifs with hchanged
  · refine (touches_storeU32 (c := .reg mmioDeviceFeatures)).bind fun _ _ ↦ ?_
    exact (touches_incStat).bind
  · trivial

end Bhx.Firmware
