import Mathlib.Algebra.Group.Nat.Defs

/-!
# The layout of the engine's L1

The addresses in BRISC L1 that the daemon and the firmware share, from `tensix_proto.rs`,
`virtio_engine.rs` and the firmware's `virtio_layout.h`, `uart_layout.h` and `virtio.c`: the
version, magic and counters of the stats page, the handshake messages, active masks, dirty bytes and
published cursors of the control page, the virtio-mmio register file of each slot, the shadow block
of each slot with its per-queue words and the firmware's snapshots, the register file and private
block of each UART, and the word TRISC0 shares.
-/

set_option autoImplicit false

namespace Bhx.Machine.L1Layout

/-! ### The stats page -/

def statsBase : ℕ := 0x4000

def statsSize : ℕ := 0x1000

def statsOffVersion : ℕ := 0x00

def statsOffMagic : ℕ := 0x04

def statsOffStatusChanges : ℕ := 0x10

def statsOffSelChanges : ℕ := 0x14

def statsOffNotifyEvents : ℕ := 0x18

def statsOffReadyEvents : ℕ := 0x1c

def statsOffLastNotify : ℕ := 0x20

def statsOffSelReadyRaces : ℕ := 0x24

def statsOffReadyCaptureSelRaces : ℕ := 0x28

def statsOffQueueSetups : ℕ := 0x2c

def statsOffQueueTeardowns : ℕ := 0x30

def statsOffBriscOldSelRescue : ℕ := 0x34

def statsOffDevFeatSelChanges : ℕ := 0x38

def statsOffMaxSelPathCycles : ℕ := 0x48

/-! ### The control page -/

def ctrlBase : ℕ := 0x5000

def ctrlSize : ℕ := 0x1000

def ctrlOffHello : ℕ := 0x00

def helloOffProtocolVersion : ℕ := 0x00

def helloOffMagic : ℕ := 0x04

def ctrlOffHelloAck : ℕ := 0x40

def helloAckOffProtocolVersion : ℕ := 0x00

def helloAckOffFirmwareVersion : ℕ := 0x04

def helloAckOffMagic : ℕ := 0x08

def ctrlOffActiveSlots : ℕ := 0xc0

def ctrlOffActiveVirtioSlots : ℕ := 0xc4

def ctrlOffDirty : ℕ := 0x100

def ctrlOffProcessed : ℕ := 0x200

def maxQueuesPerSlot : ℕ := 8

def devsPerL2Cpu : ℕ := 8

def devBlk : ℕ := 0

def devNet : ℕ := 1

def devConsole : ℕ := 2

def devRng : ℕ := 3

def devBlk1 : ℕ := 4

def devBlk2 : ℕ := 5

def numSlots : ℕ := 32

def numL2Cpus : ℕ := 4

/-- The dirty byte of a queue. -/
def dirtyByteAddr (slot queue : ℕ) : ℕ := ctrlBase + ctrlOffDirty + slot * maxQueuesPerSlot + queue

/-- The published cursor of a queue. -/
def processedCursorAddr (slot queue : ℕ) : ℕ :=
  ctrlBase + ctrlOffProcessed + slot * maxQueuesPerSlot * 2 + queue * 2

/-! ### The register files -/

def regsBase : ℕ := 0x10000

def regsPerDev : ℕ := 0x1000

/-- The register file of a slot. -/
def slotRegsBase (slot : ℕ) : ℕ := regsBase + slot * regsPerDev

def perL2CpuWindowSize : ℕ := devsPerL2Cpu * regsPerDev

/-- The register files of an L2CPU's slots, where its window begins. -/
def l2cpuWindowBase (l2cpu : ℕ) : ℕ := regsBase + l2cpu * perL2CpuWindowSize

def mmioMagicValue : ℕ := 0x00

def mmioVersion : ℕ := 0x04

def mmioDeviceId : ℕ := 0x08

def mmioVendorId : ℕ := 0x0c

def mmioDeviceFeatures : ℕ := 0x10

def mmioDeviceFeaturesSel : ℕ := 0x14

def mmioSwImpl : ℕ := 0x18

def mmioSelGeneration : ℕ := 0x1c

def mmioDriverFeatures : ℕ := 0x20

def mmioDriverFeaturesSel : ℕ := 0x24

def mmioQueueSel : ℕ := 0x30

def mmioQueueNumMax : ℕ := 0x34

def mmioQueueNum : ℕ := 0x38

def mmioQueueReady : ℕ := 0x44

def mmioQueueNotify : ℕ := 0x50

def mmioInterruptStatus : ℕ := 0x60

def mmioStatus : ℕ := 0x70

def mmioQueueDescLow : ℕ := 0x80

def mmioQueueDescHigh : ℕ := 0x84

def mmioQueueDriverLow : ℕ := 0x90

def mmioQueueDriverHigh : ℕ := 0x94

def mmioQueueDeviceLow : ℕ := 0xa0

def mmioQueueDeviceHigh : ℕ := 0xa4

def mmioConfig : ℕ := 0x100

/-! ### The shadow blocks -/

def shadowBase : ℕ := 0x30000

def shadowPerDevice : ℕ := 0x400

def shadowPerQueue : ℕ := 0x40

def shadowQOffNum : ℕ := 0x00

def shadowQOffReady : ℕ := 0x04

def shadowQOffDescLo : ℕ := 0x08

def shadowQOffDescHi : ℕ := 0x0c

def shadowQOffDriverLo : ℕ := 0x10

def shadowQOffDriverHi : ℕ := 0x14

def shadowQOffDeviceLo : ℕ := 0x18

def shadowQOffDeviceHi : ℕ := 0x1c

/-- A word of a queue's shadow. -/
def shadowQueueAddr (slot queue offset : ℕ) : ℕ :=
  shadowBase + slot * shadowPerDevice + queue * shadowPerQueue + offset

def snapBaseOff : ℕ := 0x200

def snapOffStatus : ℕ := 0x00

def snapOffQueueSel : ℕ := 0x04

def snapOffDrvFeatSel : ℕ := 0x30

def snapOffDrvFeat : ℕ := 0x34

def snapOffSelGenEcho : ℕ := 0x38

/-- A snapshot word of a slot, private to BRISC. -/
def snapAddr (slot offset : ℕ) : ℕ := shadowBase + slot * shadowPerDevice + snapBaseOff + offset

/-! ### The UARTs -/

def uartBase : ℕ := 0x40000

def uartPerL2CpuStride : ℕ := 0x4000

def uartRegFileSize : ℕ := 0x1000

def uartOffsetFromEngineBase : ℕ := 0x30000

def uartSlotOffsetInL2Cpu : ℕ := 6

/-- The register file of an L2CPU's UART. -/
def uartRegsBase (l2cpu : ℕ) : ℕ := uartBase + l2cpu * uartPerL2CpuStride

def uartRegRbrThr : ℕ := 0x00

def uartRegIirFcr : ℕ := 0x08

def uartRegLcr : ℕ := 0x0c

def uartRegMcr : ℕ := 0x10

def uartRegLsr : ℕ := 0x14

def uartRegMsr : ℕ := 0x18

def uartPrivateBase : ℕ := 0x50000

def uartPrivatePerL2Cpu : ℕ := 0x2000

/-- A word of an L2CPU's UART state that TRISC0 and the daemon share. -/
def uartPrivateAddr (l2cpu offset : ℕ) : ℕ := uartPrivateBase + l2cpu * uartPrivatePerL2Cpu + offset

def uartPrivOffHold : ℕ := 0x00

def uartPrivOffFeedProducerSeq : ℕ := 0x04

def uartPrivOffFeedConsumerSeq : ℕ := 0x08

def uartPrivOffFeedDropCount : ℕ := 0x0c

def uartPrivOffFeedRing : ℕ := 0x40

def uartFeedRingEntries : ℕ := 1024

def trisc0GlobalBase : ℕ := 0x58000

def trisc0GlobalOffHeartbeat : ℕ := 0x00

end Bhx.Machine.L1Layout
