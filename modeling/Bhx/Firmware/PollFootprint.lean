import Bhx.Firmware.PollDevice

/-!
# What a poll touches

Between the phase that watches STATUS and the one that watches QUEUE_NOTIFY, and after the latter,
`poll_one_device` keeps to a part of L1 (`SetupOp`): it stores counters of the stats page, the setup
registers it owns, the shadow words of queues below the bound, and its own snapshots. None of these
stores reaches the STATUS or the QUEUE_NOTIFY register, the STATUS snapshot or a dirty byte.
-/

set_option autoImplicit false

namespace Bhx.Firmware

open SharedMemory Machine L1Layout Program

/-! ### Cells -/

/-- A word of a slot. -/
inductive Cell
  | reg (offset : ℕ)
  | shadow (queue offset : ℕ)
  | snap (offset : ℕ)
deriving DecidableEq, Repr

/-- Where the word is. -/
def Cell.addr (slot : ℕ) : Cell → ℕ
  | .reg offset => regAddr slot offset
  | .shadow queue offset => shadowQueueAddr slot queue offset
  | .snap offset => snapAddr slot offset

/-- The cells that exist: words of the register file below the device configuration, of the shadows
of eight queues and of the snapshots behind them. -/
def Cell.Valid : Cell → Prop
  | .reg offset => 4 ∣ offset ∧ offset < mmioConfig
  | .shadow queue offset => queue < maxQueuesPerSlot ∧ 4 ∣ offset ∧ offset < shadowPerQueue
  | .snap offset => 4 ∣ offset ∧ offset < shadowPerDevice - snapBaseOff

instance : (c : Cell) → Decidable c.Valid
  | .reg _ => inferInstanceAs (Decidable (_ ∧ _))
  | .shadow _ _ => inferInstanceAs (Decidable (_ ∧ _ ∧ _))
  | .snap _ => inferInstanceAs (Decidable (_ ∧ _))

/-- The stores of `handle_queue_sel_change` when the queue selected before was `oldSel`. -/
def selStores (oldSel : ℕ) : Cell → ℕ → Bool
  | .reg offset, value =>
    offset = mmioQueueReady && value = 0 || offset ∈ [mmioQueueNumMax, mmioQueueNum]
  | .shadow queue _, _ => queue = oldSel
  | .snap _, _ => false

/-- The stores of the QUEUE_READY phase for a queue. -/
def readyStores (sel : ℕ) : Cell → ℕ → Bool
  | .reg offset, value => offset = mmioQueueReady && value = 0
  | .shadow queue _, _ => queue = sel
  | .snap _, _ => false

/-- The stores of the phases behind QUEUE_NOTIFY. -/
def restStores : Cell → ℕ → Bool
  | .reg offset, _ => offset = mmioSelGeneration
  | .shadow _ _, _ => false
  | .snap offset, _ => offset ∈ [snapOffDrvFeatSel, snapOffDrvFeat, snapOffSelGenEcho]

/-! ### Where the loads go -/

variable {slot : ℕ}

theorem regAddr_ne_notify {offset : ℕ} (h : offset ≠ mmioQueueNotify) :
    regAddr slot offset ≠ regAddr slot mmioQueueNotify := by
  unfold regAddr
  omega

theorem snapAddr_ne_notify (hslot : slot < numSlots) (offset : ℕ) :
    snapAddr slot offset ≠ regAddr slot mmioQueueNotify := by
  simp only [snapAddr, shadowBase, regAddr, slotRegsBase, regsBase, regsPerDev, numSlots,
    mmioQueueNotify] at *
  omega

theorem statAddr_ne_notify {offset : ℕ} (h : offset + 4 ≤ statsSize) :
    statsBase + offset ≠ regAddr slot mmioQueueNotify := by
  simp only [statsBase, statsSize, regAddr, slotRegsBase, regsBase] at *
  omega

/-! ### The phases -/

section Phases

variable {allowed : Op → Prop}

theorem always_readU32 {addr : ℕ} (h : allowed (.l1Load addr 4)) :
    (readU32 addr).Performs allowed :=
  ⟨h, fun _ ↦ trivial⟩

theorem always_storeU32 {addr value : ℕ} (h : allowed (.l1Store addr 4 value)) :
    (storeU32 addr value).Performs allowed :=
  ⟨h, fun _ ↦ trivial⟩

/-- The loads of the setup phases and their counters are allowed, and the stores to some cells. -/
structure Admits (slot : ℕ) (stores : Cell → ℕ → Bool) (allowed : Op → Prop) : Prop where
  load : ∀ addr, (slot < numSlots → addr ≠ regAddr slot mmioQueueNotify) → allowed (.l1Load addr 4)
  stat : ∀ offset value, offset + 4 ≤ statsSize → allowed (.l1Store (statsBase + offset) 4 value)
  store : ∀ (c : Cell) (value : ℕ), c.Valid → stores c value = true →
    allowed (.l1Store (c.addr slot) 4 value)

section Walks

variable {stores stores' : Cell → ℕ → Bool} {queue offset oldSel sel : ℕ}

theorem Admits.mono (h : Admits slot stores' allowed)
    (hstores : ∀ c value, stores c value = true → stores' c value = true) :
    Admits slot stores allowed :=
  ⟨h.load, h.stat, fun c value hvalid hc ↦ h.store c value hvalid (hstores c value hc)⟩

theorem valid_shadow (hqueue : queue < maxQueuesPerSlot) (h4 : 4 ∣ offset)
    (h : offset < shadowPerQueue) : (Cell.shadow queue offset).Valid := ⟨hqueue, h4, h⟩

section

variable (h : Admits slot stores allowed)
include h

theorem Admits.does_incStat (hoffset : offset + 4 ≤ statsSize := by decide) :
    (incStat offset).Performs allowed :=
  ⟨h.load _ fun _ ↦ statAddr_ne_notify hoffset, fun _ ↦ ⟨h.stat _ _ hoffset, fun _ ↦ trivial⟩⟩

theorem Admits.does_readRegister {register : ℕ} (hne : register ≠ mmioQueueNotify := by decide) :
    (readU32 (regAddr slot register)).Performs allowed :=
  always_readU32 (h.load _ fun _ ↦ regAddr_ne_notify hne)

theorem Admits.does_readShadow :
    (readU32 (shadowQueueAddr slot queue offset)).Performs allowed := by
  refine always_readU32 (h.load _ fun hslot ↦ ?_)
  simp only [shadowQueueAddr, shadowBase, regAddr, slotRegsBase, regsBase, regsPerDev, numSlots,
    mmioQueueNotify] at *
  omega

theorem Admits.does_readSnap : (readU32 (snapAddr slot offset)).Performs allowed :=
  always_readU32 (h.load _ fun hslot ↦ snapAddr_ne_notify hslot offset)

theorem Admits.does_storeU32 {c : Cell} {value : ℕ} (hvalid : c.Valid := by decide)
    (hc : stores c value = true := by rfl) : (storeU32 (c.addr slot) value).Performs allowed :=
  always_storeU32 (h.store c value hvalid hc)

theorem Admits.does_capture (fields : List (ℕ × ℕ))
    (hne : ∀ field ∈ fields, field.1 ≠ mmioQueueNotify) :
    (capture slot fields).Performs allowed := by
  induction fields with
  | nil => trivial
  | cons field fields ih =>
    refine (h.does_readRegister (hne field List.mem_cons_self)).bind fun _ _ ↦ ?_
    exact (ih fun other hmem ↦ hne other (List.mem_cons_of_mem _ hmem)).bind

theorem Admits.does_captureFields : (capture slot queueFields).Performs allowed :=
  h.does_capture queueFields (by decide)

theorem Admits.does_commit (hqueue : queue < maxQueuesPerSlot)
    (hstores : ∀ offset value, stores (.shadow queue offset) value = true) (values : List ℕ) :
    (commit slot queue values).Performs allowed := by
  have hfields : ∀ field ∈ queueFields, 4 ∣ field.2 ∧ field.2 < shadowPerQueue := by decide
  refine always_forM _ fun field hfield ↦ ?_
  have hoffset := hfields _ (List.of_mem_zip hfield).1
  exact h.does_storeU32 (c := .shadow queue field.1.2) (valid_shadow hqueue hoffset.1 hoffset.2)
    (hstores _ _)

theorem Admits.does_rescueOldSel (sel : ℕ)
    (hstores : ∀ offset value, stores (.shadow oldSel offset) value = true) :
    (rescueOldSel slot oldSel sel).Performs allowed := by
  unfold rescueOldSel
  split_ifs with hold
  · refine (h.does_readShadow).bind fun ready _ ↦ ?_
    split_ifs
    · refine (h.does_captureFields).bind fun values _ ↦ ?_
      refine (h.does_readRegister).bind fun selPost _ ↦ ?_
      split_ifs
      · refine (h.does_commit hold hstores values).bind fun _ _ ↦ ?_
        refine (h.does_readShadow).bind fun _ _ ↦ ?_
        refine (h.does_storeU32 (c := .shadow oldSel shadowQOffReady)
          (valid_shadow hold (by decide) (by decide)) (hstores _ _)).bind fun _ _ ↦ ?_
        exact h.does_incStat
      · trivial
    · trivial
  · trivial

theorem Admits.does_pollSnapshot {register snap : ℕ} (hregister : register ≠ mmioQueueNotify)
    (hvalid : (Cell.snap snap).Valid) (hsnap : ∀ value, stores (.snap snap) value = true) :
    (pollSnapshot slot register snap).Performs allowed := by
  refine (h.does_readRegister hregister).bind fun value _ ↦ ?_
  refine (h.does_readSnap).bind fun prev _ ↦ ?_
  split_ifs
  · exact h.does_storeU32 (c := .snap snap) hvalid (hsnap _)
  · trivial

end

theorem Admits.does_handleQueueSelChange (h : Admits slot (selStores oldSel) allowed) (sel : ℕ) :
    (handleQueueSelChange slot oldSel sel).Performs allowed := by
  unfold handleQueueSelChange
  by_cases hsel : sel < maxQueuesPerSlot
  · rw [if_pos hsel]
    refine (h.does_readRegister).bind fun prevReady _ ↦ ?_
    refine (h.does_storeU32 (c := .reg mmioQueueReady)).bind fun _ _ ↦ ?_
    refine (h.does_rescueOldSel sel fun offset value ↦ by simp [selStores]).bind fun _ _ ↦ ?_
    refine (h.does_readShadow).bind fun num _ ↦ ?_
    refine (h.does_storeU32 (c := .reg mmioQueueNumMax)).bind fun _ _ ↦ ?_
    refine (h.does_storeU32 (c := .reg mmioQueueNum)).bind fun _ _ ↦ ?_
    refine (always_onlyIf fun _ ↦ h.does_incStat).bind fun _ _ ↦ ?_
    exact h.does_incStat
  · rw [if_neg hsel]
    trivial

theorem performs_pollQueueSel (h : ∀ oldSel, Admits slot (selStores oldSel) allowed)
    (hsnap : ∀ value, allowed (.l1Store (snapAddr slot snapOffQueueSel) 4 value)) :
    (pollQueueSel slot).Performs allowed := by
  refine ((h 0).does_readRegister).bind fun sel _ ↦ ?_
  refine ((h 0).does_readSnap).bind fun selPrev _ ↦ ?_
  refine (always_onlyIf fun _ ↦ ?_).bind
  refine ((h selPrev).does_handleQueueSelChange sel).bind fun _ _ ↦ ?_
  exact always_storeU32 (hsnap _)

/-- The setup registers that the firmware itself stores. -/
def ownedRegisters : List ℕ := [mmioSelGeneration, mmioQueueNumMax, mmioQueueNum, mmioQueueReady]

/-- The snapshots of the setup registers. -/
def setupSnaps : List ℕ := [snapOffQueueSel, snapOffDrvFeatSel, snapOffDrvFeat, snapOffSelGenEcho]

/-- The accesses of the phases that watch neither STATUS nor QUEUE_NOTIFY. -/
inductive SetupOp (slot : ℕ) : Op → Prop
  | load (addr : ℕ) (haddr : addr ≠ regAddr slot mmioQueueNotify) : SetupOp slot (.l1Load addr 4)
  | stat (offset value : ℕ) (hoffset : offset + 4 ≤ statsSize) :
      SetupOp slot (.l1Store (statsBase + offset) 4 value)
  | register (offset value : ℕ) (hoffset : offset ∈ ownedRegisters) :
      SetupOp slot (.l1Store (regAddr slot offset) 4 value)
  | shadow (queue offset value : ℕ) (hqueue : queue < maxQueuesPerSlot)
      (hoffset : offset + 4 ≤ shadowPerQueue) :
      SetupOp slot (.l1Store (shadowQueueAddr slot queue offset) 4 value)
  | snap (offset value : ℕ) (hoffset : offset ∈ setupSnaps) :
      SetupOp slot (.l1Store (snapAddr slot offset) 4 value)

/-- The cells that the setup phases store. -/
def Cell.Owned : Cell → Prop
  | .reg offset => offset ∈ ownedRegisters
  | .shadow _ _ => True
  | .snap offset => offset ∈ setupSnaps

theorem SetupOp.admits (hslot : slot < numSlots) {stores : Cell → ℕ → Bool}
    (hstores : ∀ c value, stores c value = true → c.Owned) : Admits slot stores (SetupOp slot) := by
  refine ⟨fun addr haddr ↦ .load addr (haddr hslot), .stat, fun c value hvalid hc ↦ ?_⟩
  have howned := hstores c value hc
  cases c with
  | reg offset => exact .register offset value howned
  | shadow queue offset =>
    obtain ⟨hqueue, ⟨n, rfl⟩, hoffset⟩ := hvalid
    refine .shadow queue _ value hqueue ?_
    simp only [shadowPerQueue] at hoffset ⊢
    omega
  | snap offset => exact .snap offset value howned

section

variable (h : Admits slot (readyStores sel) allowed)
include h

theorem Admits.does_captureReady (hsel : sel < maxQueuesPerSlot) :
    (captureReady slot sel).Performs allowed := by
  refine (h.does_captureFields).bind fun values _ ↦ ?_
  refine (h.does_readRegister).bind fun selPost _ ↦ ?_
  split_ifs
  · refine (h.does_commit hsel (fun offset value ↦ by simp [readyStores]) values).bind fun _ _ ↦ ?_
    exact (h.does_readShadow).bind fun _ _ ↦ h.does_incStat
  · exact h.does_incStat

theorem Admits.does_handleQueueReadyChange (ready : ℕ) :
    (handleQueueReadyChange slot sel ready).Performs allowed := by
  unfold handleQueueReadyChange
  split_ifs with hsel
  · refine (always_onlyIf fun _ ↦ h.does_captureReady hsel).bind fun _ _ ↦ ?_
    refine (h.does_storeU32 (c := .shadow sel shadowQOffReady)
      (valid_shadow hsel (by decide) (by decide)) (by simp [readyStores])).bind fun _ _ ↦ ?_
    refine (always_onlyIf fun _ ↦ ?_).bind fun _ _ ↦ h.does_incStat
    exact (h.does_commit hsel (fun offset value ↦ by simp [readyStores]) _).bind fun _ _ ↦
      h.does_incStat
  · trivial

theorem Admits.does_pollQueueReady : (pollQueueReady slot sel).Performs allowed := by
  refine (h.does_readRegister).bind fun ready _ ↦ ?_
  split_ifs
  · refine (h.does_handleQueueReadyChange ready).bind fun _ _ ↦ ?_
    exact h.does_storeU32 (c := .reg mmioQueueReady)
  · trivial

end

/-- What `poll_one_device` does after the QUEUE_NOTIFY phase. -/
def pollRest (slot : ℕ) : Prog Unit := do
  pollSnapshot slot mmioDriverFeaturesSel snapOffDrvFeatSel
  pollSnapshot slot mmioDriverFeatures snapOffDrvFeat
  pollSelGeneration slot

theorem Admits.does_pollRest (h : Admits slot restStores allowed) :
    (pollRest slot).Performs allowed := by
  refine (h.does_pollSnapshot (by decide) (by decide) fun _ ↦ rfl).bind fun _ _ ↦ ?_
  refine (h.does_pollSnapshot (by decide) (by decide) fun _ ↦ rfl).bind fun _ _ ↦ ?_
  refine (h.does_readRegister).bind fun gen _ ↦ ?_
  refine (h.does_readSnap).bind fun echoed _ ↦ ?_
  split_ifs
  · refine (h.does_storeU32 (c := .reg mmioSelGeneration)).bind fun _ _ ↦ ?_
    exact h.does_storeU32 (c := .snap snapOffSelGenEcho)
  · trivial

end Walks

theorem always_incStat {offset : ℕ} (h : offset + 4 ≤ statsSize := by decide) :
    (incStat offset).Performs (SetupOp slot) :=
  ⟨.load _ (statAddr_ne_notify h), fun _ ↦ ⟨.stat _ _ h, fun _ ↦ trivial⟩⟩

section

variable (hslot : slot < numSlots)
include hslot

theorem always_pollQueueSel : (pollQueueSel slot).Performs (SetupOp slot) := by
  refine performs_pollQueueSel (fun oldSel ↦ SetupOp.admits hslot fun c value hc ↦ ?_)
    fun value ↦ .snap _ value (by decide)
  cases c with
  | reg offset =>
    simp only [selStores, Cell.Owned, ownedRegisters, Bool.or_eq_true, Bool.and_eq_true,
      decide_eq_true_eq, List.mem_cons, List.not_mem_nil, or_false] at *
    tauto
  | shadow => trivial
  | snap => exact absurd hc Bool.false_ne_true

theorem always_pollQueueReady (sel : ℕ) : (pollQueueReady slot sel).Performs (SetupOp slot) := by
  refine (SetupOp.admits hslot fun c value hc ↦ ?_).does_pollQueueReady
  cases c with
  | reg offset => simp_all [readyStores, Cell.Owned, ownedRegisters]
  | shadow => trivial
  | snap => exact absurd hc Bool.false_ne_true

theorem always_pollRest : (pollRest slot).Performs (SetupOp slot) := by
  refine (SetupOp.admits hslot fun c value hc ↦ ?_).does_pollRest
  cases c with
  | reg offset => simp_all [restStores, Cell.Owned, ownedRegisters]
  | shadow => trivial
  | snap offset => simp_all [restStores, Cell.Owned, setupSnaps]

end

end Phases

end Bhx.Firmware
