import Bhx.Firmware.PollFootprint
import Bhx.Firmware.TriscWatch

/-!
# The frame of a slot

What the firmware writes on behalf of a slot. `slotRegion` is the part of L1 that a slot may reach:
its register file up to the device configuration and without STATUS, its shadow block, its eight
dirty bytes, and the stats page, which all slots share. Every step the firmware takes for a slot
after boot stores there and nowhere else (`SlotStep.confined`), whatever the registers hold and
however they change between its loads, so an out-of-range QUEUE_SEL or QUEUE_NOTIFY does not reach
the state of another slot (`slotStep_frame`).

The timing probe of `handle_queue_sel_change` is a step of its own here: how many cycles it measured
is not modelled, so `selProbe` takes any number.
-/

set_option autoImplicit false

namespace Bhx.Firmware

open SharedMemory Machine L1Layout

variable (value : ℕ) {offset queue : ℕ} {op : Op}

/-! ### The region of a slot -/

/-- The byte range `[base, base + extent)`. -/
def InRange (base extent a : ℕ) : Prop := base ≤ a ∧ a < base + extent

/-- The part of L1 that belongs to one slot. -/
def slotOwned (slot a : ℕ) : Prop :=
  InRange (regAddr slot 0) mmioConfig a ∨ InRange (shadowQueueAddr slot 0 0) shadowPerDevice a ∨
    InRange (dirtyByteAddr slot 0) maxQueuesPerSlot a

/-- What the firmware may write on behalf of a slot. -/
def slotRegion (slot a : ℕ) : Prop :=
  (slotOwned slot a ∧ ¬ InRange (regAddr slot mmioStatus) 4 a) ∨ InRange statsBase statsSize a

/-- An access of L1 that stores inside a region. -/
def StoresIn (region : ℕ → Prop) : Op → Prop
  | .l1Load _ _ => True
  | .l1Store addr size _ => ∀ a, InRange addr size a → region a
  | _ => False

/-- The region of a slot holds no STATUS register, no device configuration and nothing of another
slot. -/
theorem slotRegion_apart {slot a : ℕ} (hslot : slot < numSlots) (h : slotRegion slot a) :
    ¬ InRange (regAddr slot mmioStatus) 4 a ∧
      ¬ InRange (regAddr slot mmioConfig) (regsPerDev - mmioConfig) a ∧
      ∀ other < numSlots, other ≠ slot →
        ¬ InRange (slotRegsBase other) regsPerDev a ∧ ¬ slotOwned other a := by
  simp only [slotRegion, slotOwned, InRange, regAddr, slotRegsBase, regsBase, regsPerDev,
    mmioConfig, mmioStatus, shadowQueueAddr, shadowBase, shadowPerDevice, dirtyByteAddr, ctrlBase,
    ctrlOffDirty, maxQueuesPerSlot, numSlots, statsBase, statsSize] at *
  refine ⟨by omega, by omega, fun other hother hne ↦ ⟨by omega, by omega⟩⟩

/-! ### Stores inside the region -/

variable {slot : ℕ}

theorem storesIn_register (hend : offset + 4 ≤ mmioConfig := by decide)
    (hstatus : Apart offset 4 mmioStatus 4 := by decide) :
    StoresIn (slotRegion slot) (.l1Store (regAddr slot offset) 4 value) := by
  intro a ha
  refine .inl ⟨.inl ?_, ?_⟩
  · simp only [InRange, regAddr] at *
    omega
  · simp only [InRange, regAddr, Apart] at *
    omega

theorem storesIn_shadow {addr : ℕ} (hlow : shadowQueueAddr slot 0 0 ≤ addr)
    (hhigh : addr + 4 ≤ shadowQueueAddr slot 0 0 + shadowPerDevice) :
    StoresIn (slotRegion slot) (.l1Store addr 4 value) := by
  intro a ha
  refine .inl ⟨.inr (.inl ?_), ?_⟩
  · simp only [InRange] at *
    omega
  · simp only [InRange, regAddr, slotRegsBase, regsBase, regsPerDev, mmioStatus, shadowQueueAddr,
      shadowBase, shadowPerDevice] at *
    omega

theorem storesIn_stat (h : offset + 4 ≤ statsSize) :
    StoresIn (slotRegion slot) (.l1Store (statsBase + offset) 4 value) := by
  intro a ha
  refine .inr ?_
  simp only [InRange] at *
  omega

theorem storesIn_dirty (hslot : slot < numSlots) (hqueue : queue < maxQueuesPerSlot) :
    StoresIn (slotRegion slot) (.l1Store (dirtyByteAddr slot queue) 1 1) := by
  intro a ha
  refine .inl ⟨.inr (.inr ?_), ?_⟩
  · simp only [InRange, dirtyByteAddr] at *
    omega
  · simp only [InRange, dirtyByteAddr, ctrlBase, ctrlOffDirty, maxQueuesPerSlot, regAddr,
      slotRegsBase, regsBase, numSlots] at *
    omega

theorem storesIn_snap (h : snapBaseOff + offset + 4 ≤ shadowPerDevice) :
    StoresIn (slotRegion slot) (.l1Store (snapAddr slot offset) 4 value) := by
  refine storesIn_shadow value ?_ ?_
  · simp only [shadowQueueAddr, snapAddr]
    omega
  · simp only [shadowQueueAddr, snapAddr] at *
    omega

/-- The stores of `init_device`: words of the register file but STATUS, and words of the shadow
block. -/
inductive WipeOp (slot : ℕ) : Op → Prop
  | register (offset value : ℕ) (hend : offset + 4 ≤ mmioConfig)
      (hstatus : Apart offset 4 mmioStatus 4) : WipeOp slot (.l1Store (regAddr slot offset) 4 value)
  | shadow (addr value : ℕ) (hlow : shadowQueueAddr slot 0 0 ≤ addr)
      (hhigh : addr + 4 ≤ shadowQueueAddr slot 0 0 + shadowPerDevice) :
      WipeOp slot (.l1Store addr 4 value)

theorem WipeOp.storesIn (h : WipeOp slot op) : StoresIn (slotRegion slot) op := by
  cases h with
  | register offset value hend hstatus => exact storesIn_register value hend hstatus
  | shadow addr value hlow hhigh => exact storesIn_shadow value hlow hhigh

theorem WipeOp.shadowQueue (hqueue : queue < maxQueuesPerSlot)
    (hoffset : offset + 4 ≤ shadowPerQueue) :
    WipeOp slot (.l1Store (shadowQueueAddr slot queue offset) 4 value) := by
  refine .shadow _ value ?_ ?_
  · simp only [shadowQueueAddr]
    omega
  · simp only [shadowQueueAddr, maxQueuesPerSlot, shadowPerQueue, shadowPerDevice] at *
    omega

theorem SetupOp.storesIn (h : SetupOp slot op) : StoresIn (slotRegion slot) op := by
  cases h with
  | load addr haddr => trivial
  | stat offset value hoffset => exact storesIn_stat value hoffset
  | register offset value hoffset =>
    have howned : ∀ offset ∈ ownedRegisters,
        offset + 4 ≤ mmioConfig ∧ Apart offset 4 mmioStatus 4 := by decide
    exact storesIn_register value (howned offset hoffset).1 (howned offset hoffset).2
  | shadow queue offset value hqueue hoffset =>
    exact (WipeOp.shadowQueue value hqueue hoffset).storesIn
  | snap offset value hoffset =>
    have hsnaps : ∀ offset ∈ setupSnaps, snapBaseOff + offset + 4 ≤ shadowPerDevice := by decide
    exact storesIn_snap value (hsnaps offset hoffset)

/-! ### What BRISC does for a slot -/

theorem always_storesIn {α : Type} {program : Prog α} (h : program.Performs (SetupOp slot)) :
    program.Performs (StoresIn (slotRegion slot)) :=
  h.allow fun _ hop ↦ hop.storesIn

theorem always_zeroRegion {allowed : Op → Prop} {base sizeBytes : ℕ}
    (h : ∀ word < sizeBytes / 4, allowed (.l1Store (base + 4 * word) 4 0)) :
    (zeroRegion base sizeBytes).Performs allowed :=
  Program.always_forM _ fun word hword ↦ always_storeU32 (h word (List.mem_range.mp hword))

theorem wipes_initDevice (slot : ℕ) : (initDevice slot).Performs (WipeOp slot) := by
  have hplant : ∀ {offset : ℕ} (value : ℕ), offset + 4 ≤ mmioConfig → Apart offset 4 mmioStatus 4 →
    (storeU32 (regAddr slot offset) value).Performs (WipeOp slot) := fun value hend hstatus ↦
    always_storeU32 (.register _ value hend hstatus)
  refine (always_zeroRegion fun word hword ↦ ?_).bind fun _ _ ↦ ?_
  · simp only [mmioStatus] at hword
    refine .register _ 0 ?_ ?_
    · simp only [mmioConfig]
      omega
    · simp only [Apart, mmioStatus]
      omega
  refine (always_zeroRegion fun word hword ↦ ?_).bind fun _ _ ↦ ?_
  · rw [regAddr, Nat.add_assoc, ← regAddr]
    simp only [mmioStatus, mmioConfig] at hword
    refine .register _ 0 ?_ ?_
    · simp only [mmioStatus, mmioConfig]
      omega
    · simp only [Apart, mmioStatus]
      omega
  refine (always_zeroRegion fun word hword ↦ ?_).bind fun _ _ ↦ ?_
  · simp only [shadowPerDevice] at hword
    refine .shadow _ 0 (by omega) ?_
    simp only [shadowPerDevice]
    omega
  iterate 8 refine (hplant _ (by decide) (by decide)).bind fun _ _ ↦ ?_
  -- the queues of every device template are below the bound
  have hqueues : (deviceForSlot slot).numQueues ≤ maxQueuesPerSlot := by
    unfold deviceForSlot
    split <;> decide
  refine Program.always_forM _ fun q hq ↦ ?_
  have hq' : q < maxQueuesPerSlot := (List.mem_range.mp hq).trans_le hqueues
  refine (always_storeU32 (.shadowQueue 0 hq' (by decide))).bind fun _ _ ↦ ?_
  exact always_storeU32 (.shadowQueue 0 hq' (by decide))

theorem always_initDevice (slot : ℕ) : (initDevice slot).Performs (StoresIn (slotRegion slot)) :=
  (wipes_initDevice slot).allow fun _ hop ↦ hop.storesIn

theorem always_handleStatusChange (slot status : ℕ) :
    (handleStatusChange slot status).Performs (StoresIn (slotRegion slot)) := by
  refine (Program.always_onlyIf fun _ ↦ always_initDevice slot).bind fun _ _ ↦ ?_
  exact always_storesIn always_incStat

theorem always_pollStatus (slot : ℕ) : (pollStatus slot).Performs (StoresIn (slotRegion slot)) := by
  refine (always_readU32 trivial).bind fun status _ ↦ ?_
  refine (always_readU32 trivial).bind fun statusPrev _ ↦ ?_
  split_ifs with hchanged
  · refine (always_handleStatusChange slot status).bind fun _ _ ↦ ?_
    exact always_storeU32 (storesIn_snap _ (by decide))
  · trivial

theorem always_handleQueueNotify (hslot : slot < numSlots) (q : ℕ) :
    (handleQueueNotify slot q).Performs (StoresIn (slotRegion slot)) := by
  refine (always_storeU32 (storesIn_stat _ (by decide))).bind fun _ _ ↦ ?_
  refine (Program.always_onlyIf fun hq ↦ ?_).bind fun _ _ ↦ always_storesIn always_incStat
  exact ⟨storesIn_dirty hslot hq, fun _ ↦ trivial⟩

theorem always_pollQueueNotify (hslot : slot < numSlots) :
    (pollQueueNotify slot).Performs (StoresIn (slotRegion slot)) := by
  refine (always_readU32 trivial).bind fun notify _ ↦ ?_
  split_ifs with hfired
  · refine (always_handleQueueNotify hslot notify).bind fun _ _ ↦ ?_
    exact always_storeU32 (storesIn_register _)
  · trivial

theorem always_pollOneDevice (hslot : slot < numSlots) :
    (pollOneDevice slot).Performs (StoresIn (slotRegion slot)) := by
  refine (always_pollStatus slot).bind fun _ _ ↦ ?_
  refine (always_storesIn (always_pollQueueSel hslot)).bind fun sel _ ↦ ?_
  refine (always_storesIn (always_pollQueueReady hslot sel)).bind fun _ _ ↦ ?_
  refine (always_pollQueueNotify hslot).bind fun _ _ ↦ ?_
  exact always_storesIn (always_pollRest hslot)

/-! ### The steps -/

/-- `update_max_u32`. -/
def updateMaxU32 (addr value : ℕ) : Prog Unit := do
  let cur ← readU32 addr
  if value > cur then storeU32 addr value

/-- What the firmware does on behalf of a slot after boot. -/
inductive SlotStep
  /-- BRISC polls the slot. -/
  | poll
  /-- BRISC initialises the slot again when its bit appears in the active mask. -/
  | reinit
  /-- TRISC1 visits the slot. -/
  | watchSel (lastQsel : ℕ)
  /-- TRISC2 visits the slot. -/
  | watchFeatures (lastDfsel : ℕ)
  /-- The timing probe of `handle_queue_sel_change`. -/
  | selProbe (cycles : ℕ)
deriving DecidableEq, Repr

/-- The accesses of a step. -/
def SlotStep.program (slot : ℕ) : SlotStep → Prog Unit
  | .poll => pollOneDevice slot
  | .reinit => initDevice slot
  | .watchSel lastQsel => do
    let _ ← Firmware.watchSel slot lastQsel
    pure ()
  | .watchFeatures lastDfsel => do
    let _ ← Firmware.watchFeatures slot lastDfsel
    pure ()
  | .selProbe cycles => updateMaxU32 (statsBase + statsOffMaxSelPathCycles) cycles

theorem always_watchSel (slot lastQsel : ℕ) :
    (watchSel slot lastQsel).Performs (StoresIn (slotRegion slot)) := by
  refine (always_readU32 trivial).bind fun qsel _ ↦ ?_
  split_ifs
  · exact (always_storeU32 (storesIn_register _)).bind
  · trivial

theorem always_watchFeatures (slot lastDfsel : ℕ) :
    (watchFeatures slot lastDfsel).Performs (StoresIn (slotRegion slot)) := by
  refine (always_readU32 trivial).bind fun dfsel _ ↦ ?_
  split_ifs with hchanged
  · refine (always_storeU32 (storesIn_register _)).bind fun _ _ ↦ ?_
    exact (always_storesIn always_incStat).bind
  · trivial

/-- A step for a slot stores inside the region of the slot, whatever its loads answer. -/
theorem SlotStep.confined (hslot : slot < numSlots) (step : SlotStep) :
    (step.program slot).Performs (StoresIn (slotRegion slot)) := by
  cases step with
  | poll => exact always_pollOneDevice hslot
  | reinit => exact always_initDevice slot
  | watchSel lastQsel => exact (always_watchSel slot lastQsel).bind
  | watchFeatures lastDfsel =>
    exact (always_watchFeatures slot lastDfsel).bind
  | selProbe cycles =>
    refine (always_readU32 trivial).bind fun cur _ ↦ ?_
    split_ifs
    · exact always_storeU32 (storesIn_stat _ (by decide))
    · trivial

/-! ### The frame -/

theorem StoresIn.mono {region larger : ℕ → Prop} (h : StoresIn region op)
    (hlarger : ∀ a, region a → larger a) : StoresIn larger op := by
  cases op with
  | l1Load addr size => trivial
  | l1Store addr size value => exact fun a ha ↦ hlarger a (h a ha)
  | ringLoad | ringStore | plicStore | getProcessed | setProcessed | enter | leave | device =>
    exact absurd h not_false

theorem StoresIn.l1_apply {region : ℕ → Prop} (h : StoresIn region op) {a : ℕ} (ha : ¬ region a)
    (w : World) : (exec op w).2.l1 a = w.l1 a := by
  cases op with
  | l1Load addr size => rfl
  | l1Store addr size value => exact writeLE_apply_of_not_mem fun hmem ↦ ha (h a hmem)
  | ringLoad | ringStore | plicStore | getProcessed | setProcessed | enter | leave | device =>
    exact absurd h not_false

/-- The frame of a step. Assumes: a slot of the engine. Every store of the step lies in the slot's
region; that region holds nothing of another slot, no STATUS register and no device configuration;
and next to any environment that leaves a byte outside it alone, a run of the step leaves the byte
as it was. -/
theorem slotStep_frame {slot : ℕ} (hslot : slot < numSlots) (step : SlotStep) :
    (step.program slot).Always (StoresIn (slotRegion slot)) (fun _ ↦ True) ∧
      (∀ a, slotRegion slot a → ¬ InRange (regAddr slot mmioStatus) 4 a ∧
        ¬ InRange (regAddr slot mmioConfig) (regsPerDev - mmioConfig) a ∧
        ∀ other < numSlots, other ≠ slot →
          ¬ InRange (slotRegsBase other) regsPerDev a ∧ ¬ slotOwned other a) ∧
      ∀ (environment : ℕ → World → World) (clock : ℕ) (w : World) (a : ℕ), ¬ slotRegion slot a →
        (∀ time s, (environment time s).l1 a = s.l1 a) →
        ((step.program slot).run exec environment clock w).state.l1 a = w.l1 a := by
  have hconfined := step.confined hslot
  refine ⟨hconfined, fun a ha ↦ slotRegion_apart hslot ha, ?_⟩
  intro environment clock w a ha henvironment
  have hkept := ((Ensures.ofAlways hconfined w).withInvariant (fun s ↦ s.l1 a = w.l1 a) rfl
    (fun s s' hs hstep ↦ (hstep : s'.l1 a = s.l1 a).trans hs)
    fun op s hs hop ↦ (hop.l1_apply ha s).trans hs).run henvironment clock
  exact hkept.2

/-- A guest of slot `3` that has selected a queue out of range. -/
def wildWorld : World where
  l1 := memoryWith [(regAddr 3 mmioQueueSel, 4, 0xFFFFFFFF), (regAddr 3 mmioQueueReady, 4, 1),
    (regAddr 4 mmioQueueReady, 4, 1)]
  dram := fun _ _ ↦ 0
  host := fun _ _ ↦ 0
  processed := fun _ _ ↦ 0
  outside := fun _ _ ↦ 0
  history := []

theorem slotStep_frame_wild :
    3 < numSlots ∧ ¬ slotRegion 3 (regAddr 4 mmioQueueReady) ∧
      ((SlotStep.poll.program 3).run exec (fun _ s ↦ s) 0 wildWorld).state.l1
        (regAddr 4 mmioQueueReady) = 1 := by
  have hapart : ¬ slotRegion 3 (regAddr 4 mmioQueueReady) := by
    simp [slotRegion, slotOwned, InRange, regAddr, slotRegsBase, regsBase, regsPerDev, mmioConfig,
      mmioStatus, mmioQueueReady, shadowQueueAddr, shadowBase, shadowPerDevice, dirtyByteAddr,
      ctrlBase, ctrlOffDirty, maxQueuesPerSlot, statsBase, statsSize]
  refine ⟨by decide, hapart, ?_⟩
  rw [(slotStep_frame (by decide) .poll).2.2 (fun _ s ↦ s) 0 wildWorld _ hapart fun _ _ ↦ rfl]
  decide +kernel

end Bhx.Firmware
