import Bhx.Machine.L1Layout
import Bhx.Machine.World

/-!
# The BRISC firmware's device poll

`poll_one_device` of `brisc-firmware/virtio.c` and the handlers it calls, as programs of accesses to
L1, and one iteration of the main loop (`sweep`). The firmware has no other way to learn of a guest
store than to read the register it went to: it compares STATUS and QUEUE_SEL with a snapshot of its
own, takes any nonzero QUEUE_READY for an event and clears it, and takes any QUEUE_NOTIFY but the
sentinel for an event and writes the sentinel back.

Each phase of the poll is a program of its own, and `pollOneDevice` runs them in the source's order.
The seven setup registers of a queue and the shadow words they go to are a table (`queueFields`), as
they are in the READY handler; the rescue in the SEL handler reads and writes the same ones.

Scope. Every access of the C code is one operation, and a fence orders nothing further. The cycle
counters of the timing probes, the heartbeat and the reset lines of the TRISC cores are not
modelled.
-/

set_option autoImplicit false

namespace Bhx.Firmware

open SharedMemory Machine L1Layout

/-! ### Devices -/

/-- An entry of `DEVICE_TEMPLATE`. -/
structure DeviceInit where
  deviceId : ℕ
  numQueues : ℕ
  devFeatLow : ℕ
  devFeatHigh : ℕ
deriving DecidableEq, Repr

/-- The device template of a slot: block, net, console, entropy and two more block devices on every
L2CPU, and two slots of padding. -/
def deviceForSlot (slot : ℕ) : DeviceInit :=
  match slot % devsPerL2Cpu with
  | 0 | 4 | 5 => ⟨2, 1, 0, 1⟩
  | 1 => ⟨1, 2, 2 ^ 5, 1⟩
  | 2 => ⟨3, 2, 0, 1⟩
  | 3 => ⟨4, 1, 0, 1⟩
  | _ => ⟨0, 0, 0, 0⟩

/-- `BRISC_VIRTIO_QUEUE_NUM_MAX`. -/
def queueNumMax : ℕ := 256

/-- The value of QUEUE_NOTIFY that stands for no notify. -/
def notifySentinel : ℕ := 0xFFFFFFFF

/-- The offset of the UART's slot among the slots of an L2CPU. -/
def uartSlotOffset : ℕ := 6

/-! ### Accesses -/

/-- `reg_addr`. -/
def regAddr (slot offset : ℕ) : ℕ := slotRegsBase slot + offset

/-- `read_u32`. -/
def readU32 (addr : ℕ) : Prog ℕ := Program.perform (.l1Load addr 4)

/-- `store_u32`, and `write_u32`, which adds a fence. -/
def storeU32 (addr value : ℕ) : Prog Unit := do
  let _ ← Program.perform (.l1Store addr 4 value)
  pure ()

/-- A store of one byte. -/
def storeU8 (addr value : ℕ) : Prog Unit := do
  let _ ← Program.perform (.l1Store addr 1 value)
  pure ()

theorem readU32_bind {α : Type} (addr : ℕ) (next : ℕ → Prog α) :
    readU32 addr >>= next = .step (.l1Load addr 4) next := rfl

/-- `zero_region`. -/
def zeroRegion (base sizeBytes : ℕ) : Prog Unit :=
  (List.range (sizeBytes / 4)).forM fun word ↦ storeU32 (base + 4 * word) 0

/-- `inc_stat`. -/
def incStat (offset : ℕ) : Prog Unit := do
  let count ← readU32 (statsBase + offset)
  storeU32 (statsBase + offset) ((count + 1) % 2 ^ 32)

/-! ### Handlers -/

/-- `init_device`: wipe the registers but STATUS and the device configuration, wipe the shadow block
with its snapshots, and plant what a probe reads. -/
def initDevice (slot : ℕ) : Prog Unit := do
  let d := deviceForSlot slot
  zeroRegion (regAddr slot 0) mmioStatus
  zeroRegion (regAddr slot (mmioStatus + 4)) (mmioConfig - (mmioStatus + 4))
  zeroRegion (shadowQueueAddr slot 0 0) shadowPerDevice
  storeU32 (regAddr slot mmioMagicValue) 0x74726976
  storeU32 (regAddr slot mmioVersion) 2
  storeU32 (regAddr slot mmioDeviceId) d.deviceId
  storeU32 (regAddr slot mmioVendorId) 0x55544254
  storeU32 (regAddr slot mmioQueueNumMax) queueNumMax
  storeU32 (regAddr slot mmioDeviceFeatures) (d.devFeatLow ||| d.devFeatHigh)
  storeU32 (regAddr slot mmioQueueNotify) notifySentinel
  storeU32 (regAddr slot mmioSwImpl) 1
  (List.range d.numQueues).forM fun q ↦ do
    storeU32 (shadowQueueAddr slot q shadowQOffNum) 0
    storeU32 (shadowQueueAddr slot q shadowQOffReady) 0

/-- The setup registers of a queue, with the shadow words they are captured into. -/
def queueFields : List (ℕ × ℕ) :=
  [(mmioQueueNum, shadowQOffNum), (mmioQueueDescLow, shadowQOffDescLo),
    (mmioQueueDescHigh, shadowQOffDescHi), (mmioQueueDriverLow, shadowQOffDriverLo),
    (mmioQueueDriverHigh, shadowQOffDriverHi), (mmioQueueDeviceLow, shadowQOffDeviceLo),
    (mmioQueueDeviceHigh, shadowQOffDeviceHi)]

/-- Reads setup registers of a slot. -/
def capture (slot : ℕ) : List (ℕ × ℕ) → Prog (List ℕ)
  | [] => pure []
  | field :: fields => do
    let value ← readU32 (regAddr slot field.1)
    let values ← capture slot fields
    pure (value :: values)

/-- Stores captured values into the shadow of a queue. -/
def commit (slot queue : ℕ) (values : List ℕ) : Prog Unit :=
  (queueFields.zip values).forM fun cell ↦
    storeU32 (shadowQueueAddr slot queue cell.1.2) cell.2

/-- The rescue of `handle_queue_sel_change`: a queue that was set up but whose READY was never seen
is captured when the guest selects the next one. -/
def rescueOldSel (slot oldSel sel : ℕ) : Prog Unit := do
  if oldSel < maxQueuesPerSlot then
    let shadowReady ← readU32 (shadowQueueAddr slot oldSel shadowQOffReady)
    if shadowReady = 0 then
      let values ← capture slot queueFields
      let selPost ← readU32 (regAddr slot mmioQueueSel)
      if selPost = sel ∧ values.headD 0 ≠ 0 then
        commit slot oldSel values
        let _ ← readU32 (shadowQueueAddr slot oldSel shadowQOffDeviceHi)
        storeU32 (shadowQueueAddr slot oldSel shadowQOffReady) 1
        incStat statsOffBriscOldSelRescue

/-- `handle_queue_sel_change`. -/
def handleQueueSelChange (slot oldSel sel : ℕ) : Prog Unit := do
  if sel < maxQueuesPerSlot then
    let prevReady ← readU32 (regAddr slot mmioQueueReady)
    storeU32 (regAddr slot mmioQueueReady) 0
    rescueOldSel slot oldSel sel
    let num ← readU32 (shadowQueueAddr slot sel shadowQOffNum)
    storeU32 (regAddr slot mmioQueueNumMax)
      (if sel < (deviceForSlot slot).numQueues then queueNumMax else 0)
    storeU32 (regAddr slot mmioQueueNum) num
    Program.onlyIf (prevReady ≠ 0) (incStat statsOffSelReadyRaces)
    incStat statsOffSelChanges

/-- The capture of `handle_queue_ready_change`, given up when the guest has selected another queue
meanwhile. -/
def captureReady (slot sel : ℕ) : Prog Unit := do
  let values ← capture slot queueFields
  let selPost ← readU32 (regAddr slot mmioQueueSel)
  if selPost = sel then
    commit slot sel values
    let _ ← readU32 (shadowQueueAddr slot sel shadowQOffDeviceHi)
    incStat statsOffQueueSetups
  else
    incStat statsOffReadyCaptureSelRaces

/-- `handle_queue_ready_change`. -/
def handleQueueReadyChange (slot sel ready : ℕ) : Prog Unit := do
  if sel < maxQueuesPerSlot then
    Program.onlyIf (ready ≠ 0) (captureReady slot sel)
    storeU32 (shadowQueueAddr slot sel shadowQOffReady) ready
    Program.onlyIf (ready = 0) do
      commit slot sel (queueFields.map fun _ ↦ 0)
      incStat statsOffQueueTeardowns
    incStat statsOffReadyEvents

/-- `handle_queue_notify`. -/
def handleQueueNotify (slot q : ℕ) : Prog Unit := do
  storeU32 (statsBase + statsOffLastNotify) (slot <<< 16 ||| (q &&& 0xFFFF))
  Program.onlyIf (q < maxQueuesPerSlot) (storeU8 (dirtyByteAddr slot q) 1)
  incStat statsOffNotifyEvents

/-- `handle_status_change`. -/
def handleStatusChange (slot status : ℕ) : Prog Unit := do
  Program.onlyIf (status = 0) (initDevice slot)
  incStat statsOffStatusChanges

/-! ### The poll -/

/-- The STATUS phase. -/
def pollStatus (slot : ℕ) : Prog Unit := do
  let status ← readU32 (regAddr slot mmioStatus)
  let statusPrev ← readU32 (snapAddr slot snapOffStatus)
  if status ≠ statusPrev then
    handleStatusChange slot status
    storeU32 (snapAddr slot snapOffStatus) status

/-- The QUEUE_SEL phase; the result is the queue selected. -/
def pollQueueSel (slot : ℕ) : Prog ℕ := do
  let sel ← readU32 (regAddr slot mmioQueueSel)
  let selPrev ← readU32 (snapAddr slot snapOffQueueSel)
  Program.onlyIf (sel ≠ selPrev) do
    handleQueueSelChange slot selPrev sel
    storeU32 (snapAddr slot snapOffQueueSel) sel
  pure sel

/-- The QUEUE_READY phase. -/
def pollQueueReady (slot sel : ℕ) : Prog Unit := do
  let ready ← readU32 (regAddr slot mmioQueueReady)
  if ready ≠ 0 then
    handleQueueReadyChange slot sel ready
    storeU32 (regAddr slot mmioQueueReady) 0

/-- The QUEUE_NOTIFY phase. -/
def pollQueueNotify (slot : ℕ) : Prog Unit := do
  let notify ← readU32 (regAddr slot mmioQueueNotify)
  if notify ≠ notifySentinel then
    handleQueueNotify slot notify
    storeU32 (regAddr slot mmioQueueNotify) notifySentinel

/-- A register that the firmware only keeps a snapshot of. -/
def pollSnapshot (slot register snap : ℕ) : Prog Unit := do
  let value ← readU32 (regAddr slot register)
  let prev ← readU32 (snapAddr slot snap)
  if value ≠ prev then storeU32 (snapAddr slot snap) value

/-- The echo of the `sel_generation` handshake. -/
def pollSelGeneration (slot : ℕ) : Prog Unit := do
  let currGen ← readU32 (regAddr slot mmioSelGeneration)
  let lastEchoed ← readU32 (snapAddr slot snapOffSelGenEcho)
  if currGen ≠ lastEchoed then
    storeU32 (regAddr slot mmioSelGeneration) ((currGen + 1) % 2 ^ 32)
    storeU32 (snapAddr slot snapOffSelGenEcho) ((currGen + 1) % 2 ^ 32)

/-- `poll_one_device`. -/
def pollOneDevice (slot : ℕ) : Prog Unit := do
  pollStatus slot
  let sel ← pollQueueSel slot
  pollQueueReady slot sel
  pollQueueNotify slot
  pollSnapshot slot mmioDriverFeaturesSel snapOffDrvFeatSel
  pollSnapshot slot mmioDriverFeatures snapOffDrvFeat
  pollSelGeneration slot

/-- Sweeps over one slot. -/
def pollRepeatedly (slot : ℕ) : ℕ → Prog Unit
  | 0 => pure ()
  | count + 1 => do
    pollOneDevice slot
    pollRepeatedly slot count

/-! ### The main loop -/

/-- The slots that became active since the last iteration and are not a UART's. -/
def newlyActive (prevActive active : ℕ) : List ℕ :=
  (List.range numSlots).filter fun slot ↦
    active.testBit slot && !prevActive.testBit slot && slot % devsPerL2Cpu ≠ uartSlotOffset

/-- The slots that an iteration polls. -/
def polledSlots (active : ℕ) : List ℕ := (List.range numSlots).filter active.testBit

/-- One iteration of the main loop; the result is the mask it saw. -/
def sweep (prevActive : ℕ) : Prog ℕ := do
  let active ← readU32 (ctrlBase + ctrlOffActiveSlots)
  let _ ← readU32 (ctrlBase + ctrlOffActiveVirtioSlots)
  (newlyActive prevActive active).forM initDevice
  (polledSlots active).forM pollOneDevice
  pure active

end Bhx.Firmware
