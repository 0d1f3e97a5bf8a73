import Bhx.Firmware.EngineFrame

/-!
# The boot of the firmware and the daemon's bring-up

The daemon loads the firmware, releases BRISC and waits for the magic of the stats page; then it
stores its hello into the control page and waits for the acknowledgement (`bringUp`,
`runHandshake`). BRISC clears the stats page and stores the magic, clears the control page, plants
the register files of the devices and the UARTs, waits for a hello and acknowledges it
(`briscMain`). The two meet through plain memory, from whatever an earlier boot left there
(`bootCores`).

What has been said of the handshake is read off the trace (`handshakeLog`). Everything that BRISC
does but `init_proto` and the acknowledgement itself keeps off the two messages, in any state
(`off_initStats`, `off_initDevices`, `off_uartInitDevices`, `off_sweep`).

Scope. A run begins when BRISC is released; what `bring_up` did before that, clearing the register
files and loading the image, is part of the arbitrary content of L1. A timeout is a bound on the
number of reads, and every bound is considered. The picking of the tile, the reset entries of the
TRISC cores and the log output are not modelled.
-/

set_option autoImplicit false

namespace Bhx.Firmware

open SharedMemory Machine L1Layout

variable {addr : ℕ} {op : Op} (answer value : ℕ) {slot : ℕ}

/-! ### The messages -/

/-- `TENSIX_PROTOCOL_VERSION`. -/
def protocolVersion : ℕ := 5

def statsMagicLoaded : ℕ := 0xB155

def helloMagic : ℕ := 0x4F4C4548

def helloAckMagic : ℕ := 0x214B4341

/-- A word of the daemon's hello. -/
def helloAddr (offset : ℕ) : ℕ := ctrlBase + ctrlOffHello + offset

/-- A word of the firmware's acknowledgement. -/
def helloAckAddr (offset : ℕ) : ℕ := ctrlBase + ctrlOffHelloAck + offset

/-! ### The firmware -/

/-- `BRISC_VIRTIO_FW_VERSION` of a build. -/
def fwVersion (buildId : ℕ) : ℕ := (buildId <<< 8 ||| protocolVersion &&& 0xff) % 2 ^ 32

/-- `init_stats`. -/
def initStats (buildId : ℕ) : Prog Unit := do
  zeroRegion statsBase statsSize
  storeU32 (statsBase + statsOffVersion) (fwVersion buildId)
  storeU32 (statsBase + statsOffMagic) statsMagicLoaded

/-- `init_proto`. -/
def initProto : Prog Unit := zeroRegion ctrlBase ctrlSize

/-- `uart_init_one`. -/
def uartInitOne (l2cpu : ℕ) : Prog Unit := do
  zeroRegion (uartRegsBase l2cpu) uartRegFileSize
  storeU32 (uartRegsBase l2cpu + uartRegRbrThr) 0xFFFFFFFF
  storeU32 (uartRegsBase l2cpu + uartRegLcr) 0x03
  storeU32 (uartRegsBase l2cpu + uartRegMcr) 0x0b
  storeU32 (uartRegsBase l2cpu + uartRegLsr) (0x20 ||| 0x40)
  storeU32 (uartRegsBase l2cpu + uartRegMsr) (0x10 ||| 0x20)
  storeU32 (uartRegsBase l2cpu + uartRegIirFcr) (0x00 ||| 0x01)
  zeroRegion (uartPrivateAddr l2cpu 0) uartPrivatePerL2Cpu

/-- `uart_init_devices`. -/
def uartInitDevices : Prog Unit := (List.range numL2Cpus).forM uartInitOne

/-- What `wait_for_hello_and_ack` does once it has seen the magic. -/
def acknowledge (buildId : ℕ) : Prog Unit := do
  let _ ← readU32 (helloAddr helloOffProtocolVersion)
  storeU32 (helloAckAddr helloAckOffProtocolVersion) protocolVersion
  storeU32 (helloAckAddr helloAckOffFirmwareVersion) (fwVersion buildId)
  storeU32 (helloAckAddr helloAckOffMagic) helloAckMagic

/-- How far BRISC's `main` is. -/
inductive BriscPhase
  | reset
  /-- `init_stats` has returned. -/
  | statsUp
  /-- `init_proto` has returned. -/
  | protoUp
  /-- `init_device` has returned for every slot. -/
  | devicesUp
  /-- In `wait_for_hello_and_ack`. -/
  | waiting
  /-- In the main loop, with the mask of the last iteration. -/
  | running (prevActive : ℕ)
deriving DecidableEq, Repr

/-- `main`, one call or one iteration of a loop at a time. -/
def briscMain (buildId : ℕ) : BriscPhase → Prog BriscPhase
  | .reset => do
    initStats buildId
    pure .statsUp
  | .statsUp => do
    initProto
    pure .protoUp
  | .protoUp => do
    (List.range numSlots).forM initDevice
    pure .devicesUp
  | .devicesUp => do
    uartInitDevices
    pure .waiting
  | .waiting => do
    let magic ← readU32 (helloAddr helloOffMagic)
    if magic = helloMagic then
      acknowledge buildId
      pure (.running 0)
    else
      pure .waiting
  | .running prevActive => do
    let active ← sweep prevActive
    pure (.running active)

/-! ### The daemon -/

/-- The errors of `bring_up` after the release of BRISC. -/
inductive BringUpError
  /-- The stats magic did not appear; what was there instead. -/
  | statsMagic (got : ℕ)
  /-- No acknowledgement; the last value of its magic. -/
  | noAck (last : ℕ)
  /-- The firmware reported another protocol version. -/
  | protocolMismatch (reported : ℕ)
deriving DecidableEq, Repr

/-- Reads a word until it has the value expected or the time is up; the result is what was read
last. -/
def pollWord (addr expected : ℕ) : ℕ → Prog ℕ
  | 0 => readU32 addr
  | tries + 1 => do
    let value ← readU32 addr
    if value = expected then pure value else pollWord addr expected tries

/-- `run_handshake`; the result is the firmware's version and its protocol version. -/
def runHandshake (ackTries : ℕ) : Prog (Except BringUpError (ℕ × ℕ)) := do
  storeU32 (helloAddr helloOffProtocolVersion) protocolVersion
  storeU32 (helloAddr helloOffMagic) helloMagic
  let magic ← pollWord (helloAckAddr helloAckOffMagic) helloAckMagic ackTries
  if magic = helloAckMagic then
    let protocol ← readU32 (helloAckAddr helloAckOffProtocolVersion)
    let firmware ← readU32 (helloAckAddr helloAckOffFirmwareVersion)
    if protocol = protocolVersion then
      pure (.ok (firmware, protocol))
    else
      pure (.error (.protocolMismatch protocol))
  else
    pure (.error (.noAck magic))

/-- `bring_up` from the release of BRISC on. -/
def bringUp (buildId statsTries ackTries : ℕ) : Prog (Except BringUpError (ℕ × ℕ)) := do
  let magic ← pollWord (statsBase + statsOffMagic) statsMagicLoaded statsTries
  if magic = statsMagicLoaded then
    storeU32 (statsBase + statsOffVersion) ((buildId <<< 8 ||| protocolVersion) % 2 ^ 32)
    runHandshake ackTries
  else
    pure (.error (.statsMagic magic))

/-- How far the daemon is. -/
inductive DaemonPhase
  /-- BRISC has just been released; the daemon will read each magic at most so often. -/
  | released (statsTries ackTries : ℕ)
  /-- `bring_up` has returned. -/
  | returned (outcome : Except BringUpError (ℕ × ℕ))

/-- The daemon brings the engine up once. -/
def daemonMain (buildId : ℕ) : DaemonPhase → Prog DaemonPhase
  | .released statsTries ackTries => do
    let outcome ← bringUp buildId statsTries ackTries
    pure (.returned outcome)
  | .returned outcome => pure (.returned outcome)

/-! ### The two together -/

/-- The parties of the handshake. -/
inductive BootCore
  | brisc | daemon
deriving DecidableEq, Repr

def BootCore.Private : BootCore → Type
  | .brisc => BriscPhase
  | .daemon => DaemonPhase

/-- The build ids of the firmware image and of the daemon. -/
structure Builds where
  firmware : ℕ
  daemon : ℕ
deriving DecidableEq, Repr

/-- BRISC and the daemon over L1. An act from outside stores a byte. -/
def bootCores (builds : Builds) :
    Cores BootCore Op ℕ ByteStore World BootCore.Private where
  exec := exec
  act event w := { w with l1 := writeLE w.l1 event.addr 1 event.value }
  loop
    | .brisc, phase => briscMain builds.firmware phase
    | .daemon, phase => daemonMain builds.daemon phase

/-- L1 and what has happened since the release. -/
abbrev BootScene := Scene BootCore Op ℕ ByteStore World

abbrev BootMark := Mark BootCore Op ℕ ByteStore

abbrev BootConfig := Config BootCore Op ℕ ByteStore World BootCore.Private

/-- BRISC has just been released. -/
def atRelease (w : World) (statsTries ackTries : ℕ) : BootConfig where
  scene := ⟨w, []⟩
  rest
    | .brisc => .done .reset
    | .daemon => .done (.released statsTries ackTries)

/-- BRISC has finished `init_stats` and `init_proto`. -/
def ProtoCleared (trace : List BootMark) : Prop := 3 ≤ Cores.passes .brisc trace

instance (trace : List BootMark) : Decidable (ProtoCleared trace) :=
  inferInstanceAs (Decidable (_ ≤ _))

/-- BRISC has finished `init_device` and `uart_init_devices` too. -/
def Initialised (trace : List BootMark) : Prop := 5 ≤ Cores.passes .brisc trace

instance (trace : List BootMark) : Decidable (Initialised trace) :=
  inferInstanceAs (Decidable (_ ≤ _))

/-- What has been said. -/
@[ext]
structure HandshakeLog where
  /-- The daemon has stored the version of its hello. -/
  version : Bool
  /-- The daemon has stored the magic of its hello. -/
  hello : Bool
  /-- After that, and after its own initialisation, BRISC has stored the magic of its
  acknowledgement. -/
  acked : Bool
deriving DecidableEq, Repr

/-- The daemon's store of its protocol version. -/
def helloVersionStore : Op := .l1Store (helloAddr helloOffProtocolVersion) 4 protocolVersion

/-- The store that makes the hello valid. -/
def helloMagicStore : Op := .l1Store (helloAddr helloOffMagic) 4 helloMagic

/-- The store that makes the acknowledgement valid. -/
def ackMagicStore : Op := .l1Store (helloAckAddr helloAckOffMagic) 4 helloAckMagic

/-- What has been said since the release. -/
def handshakeLog : List BootMark → HandshakeLog
  | [] => ⟨false, false, false⟩
  | .access .daemon op _ :: trace =>
    { handshakeLog trace with
      version := op == helloVersionStore || (handshakeLog trace).version
      hello := op == helloMagicStore || (handshakeLog trace).hello }
  | .access .brisc op _ :: trace =>
    { handshakeLog trace with
      acked := (op == ackMagicStore && (handshakeLog trace).hello && decide (Initialised trace)) ||
        (handshakeLog trace).acked }
  | .pass _ :: trace | .act _ :: trace => handshakeLog trace

/-- A word of L1. -/
def l1Word (addr : ℕ) (w : World) : ℕ := readLE w.l1 addr 4

/-- The outcome of `bring_up`, once it has returned. -/
def bringUpOutcome (c : BootConfig) : Option (Except BringUpError (ℕ × ℕ)) :=
  match c.rest .daemon with
  | .done (.returned outcome) => some outcome
  | .done (.released _ _) | .step _ _ => none

/-- The part of L1 without the two messages. -/
def OffHandshake (a : ℕ) : Prop := ¬ InRange ctrlBase (ctrlOffHelloAck + 0x40) a

instance (a : ℕ) : Decidable (OffHandshake a) :=
  inferInstanceAs (Decidable (¬ (_ ∧ _)))

/-! ### What has been said only grows -/

section Log

variable {trace : List BootMark} (mark : BootMark)

theorem version_kept (h : (handshakeLog trace).version = true) :
    (handshakeLog (mark :: trace)).version = true := by
  cases mark with
  | access core op answer =>
    cases core with
    | brisc => exact h
    | daemon => simp [handshakeLog, h]
  | pass core => exact h
  | act event => exact h

theorem hello_kept (h : (handshakeLog trace).hello = true) :
    (handshakeLog (mark :: trace)).hello = true := by
  cases mark with
  | access core op answer =>
    cases core with
    | brisc => exact h
    | daemon => simp [handshakeLog, h]
  | pass core => exact h
  | act event => exact h

theorem acked_kept (h : (handshakeLog trace).acked = true) :
    (handshakeLog (mark :: trace)).acked = true := by
  cases mark with
  | access core op answer =>
    cases core with
    | brisc => simp [handshakeLog, h]
    | daemon => exact h
  | pass core => exact h
  | act event => exact h

theorem handshakeLog_brisc (hop : op ≠ ackMagicStore) :
    handshakeLog (.access .brisc op answer :: trace) = handshakeLog trace := by
  have hop : (op == ackMagicStore) = false := beq_false_of_ne hop
  simp [handshakeLog, hop]

theorem handshakeLog_daemon (hversion : op ≠ helloVersionStore) (hmagic : op ≠ helloMagicStore) :
    handshakeLog (.access .daemon op answer :: trace) = handshakeLog trace := by
  have hversion : (op == helloVersionStore) = false := beq_false_of_ne hversion
  have hmagic : (op == helloMagicStore) = false := beq_false_of_ne hmagic
  simp [handshakeLog, hversion, hmagic]

end Log

/-! ### The words of the messages -/

/-- The words of the acknowledgement. -/
def ackWords : List ℕ :=
  [helloAckAddr helloAckOffProtocolVersion, helloAckAddr helloAckOffFirmwareVersion,
    helloAckAddr helloAckOffMagic]

/-- The words of the two messages. -/
def handshakeWords : List ℕ :=
  helloAddr helloOffProtocolVersion :: helloAddr helloOffMagic :: ackWords

theorem handshakeWords_inside :
    ∀ addr ∈ handshakeWords, Inside addr 4 ctrlBase (ctrlOffHelloAck + 0x40) := by
  decide

theorem handshakeWords_apart :
    ∀ addr ∈ handshakeWords, ∀ other ∈ handshakeWords, addr ≠ other → Apart addr 4 other 4 := by
  decide

theorem l1Word_store_self {addr value : ℕ} {w : World} :
    l1Word addr (exec (.l1Store addr 4 value) w).2 = value % 2 ^ 32 :=
  readLE_writeLE_self _ _ _ _

theorem l1Word_store_of_ne {other value : ℕ} {w : World}
    (haddr : addr ∈ handshakeWords := by decide) (hother : other ∈ handshakeWords := by decide)
    (hne : addr ≠ other := by decide) :
    l1Word other (exec (.l1Store addr 4 value) w).2 = l1Word other w :=
  readLE_writeLE_of_apart (handshakeWords_apart addr haddr other hother hne)

theorem StoresIn.l1Word_eq (h : StoresIn OffHandshake op) (haddr : addr ∈ handshakeWords)
    (w : World) : l1Word addr (exec op w).2 = l1Word addr w := by
  have hinside := handshakeWords_inside addr haddr
  refine readLE_congr fun a hlow hhigh ↦ h.l1_apply (not_not.mpr ?_) w
  unfold InRange
  unfold Inside at hinside
  omega

theorem not_storesIn_of_mem {value : ℕ} (haddr : addr ∈ handshakeWords) :
    ¬ StoresIn OffHandshake (.l1Store addr 4 value) := by
  intro h
  have hinside := handshakeWords_inside addr haddr
  refine h addr ⟨le_rfl, by omega⟩ ?_
  unfold InRange
  unfold Inside at hinside
  omega

theorem StoresIn.ne_store (h : StoresIn OffHandshake op) (value : ℕ)
    (haddr : addr ∈ handshakeWords) : op ≠ .l1Store addr 4 value := by
  rintro rfl
  exact not_storesIn_of_mem haddr h

/-! ### The firmware's stores off the messages -/

theorem offHandshake_of_slotRegion {a : ℕ} (hslot : slot < numSlots) (h : slotRegion slot a) :
    OffHandshake a := by
  simp only [OffHandshake, slotRegion, slotOwned, InRange, regAddr, slotRegsBase, regsBase,
    regsPerDev, mmioConfig, mmioStatus, shadowQueueAddr, shadowBase, shadowPerDevice, dirtyByteAddr,
    ctrlBase, ctrlOffDirty, ctrlOffHelloAck, maxQueuesPerSlot, numSlots, statsBase, statsSize] at *
  omega

theorem storesIn_offHandshake (h : Apart addr 4 ctrlBase (ctrlOffHelloAck + 0x40)) :
    StoresIn OffHandshake (.l1Store addr 4 value) := by
  intro a ha
  simp only [OffHandshake, InRange] at *
  unfold Apart at h
  omega

section Regions

-- the regions are large, and unification must not run the loops over them
attribute [local irreducible] zeroRegion

theorem off_zeroRegion {base sizeBytes : ℕ}
    (h : Apart base sizeBytes ctrlBase (ctrlOffHelloAck + 0x40)) :
    (zeroRegion base sizeBytes).Performs (StoresIn OffHandshake) := by
  refine always_zeroRegion fun word hword ↦ storesIn_offHandshake 0 ?_
  unfold Apart at *
  omega

theorem storesIn_statsPage {offset : ℕ} (h : offset + 4 ≤ statsSize) :
    StoresIn OffHandshake (.l1Store (statsBase + offset) 4 value) := by
  refine storesIn_offHandshake value (.inl ?_)
  simp only [statsBase, statsSize, ctrlBase] at *
  omega

theorem off_initStats (buildId : ℕ) : (initStats buildId).Performs (StoresIn OffHandshake) := by
  have hpage : Apart statsBase statsSize ctrlBase (ctrlOffHelloAck + 0x40) := by
    simp only [Apart, statsBase, statsSize, ctrlBase]
    omega
  refine (off_zeroRegion hpage).bind fun _ _ ↦ ?_
  refine (always_storeU32 (storesIn_statsPage _ (by decide))).bind fun _ _ ↦ ?_
  exact always_storeU32 (storesIn_statsPage _ (by decide))

theorem off_initDevice (hslot : slot < numSlots) :
    (initDevice slot).Performs (StoresIn OffHandshake) := by
  refine (always_initDevice slot).allow fun op hop ↦ ?_
  exact hop.mono fun a ha ↦ offHandshake_of_slotRegion hslot ha

theorem off_initDevices :
    ((List.range numSlots).forM initDevice).Performs (StoresIn OffHandshake) :=
  Program.always_forM _ fun _ hslot ↦ off_initDevice (List.mem_range.mp hslot)

theorem off_uartInitOne (l2cpu : ℕ) : (uartInitOne l2cpu).Performs (StoresIn OffHandshake) := by
  have hfile : Apart (uartRegsBase l2cpu) uartRegFileSize ctrlBase (ctrlOffHelloAck + 0x40) := by
    simp only [Apart, uartRegsBase, uartBase, ctrlBase, ctrlOffHelloAck]
    omega
  have hregs : ∀ offset value,
      StoresIn OffHandshake (.l1Store (uartRegsBase l2cpu + offset) 4 value) := by
    intro offset value
    refine storesIn_offHandshake value (.inr ?_)
    simp only [uartRegsBase, uartBase, ctrlBase, ctrlOffHelloAck]
    omega
  have hprivate : Apart (uartPrivateAddr l2cpu 0) uartPrivatePerL2Cpu ctrlBase
      (ctrlOffHelloAck + 0x40) := by
    simp only [Apart, uartPrivateAddr, uartPrivateBase, ctrlBase, ctrlOffHelloAck]
    omega
  refine (off_zeroRegion hfile).bind fun _ _ ↦ ?_
  iterate 6 refine (always_storeU32 (hregs _ _)).bind fun _ _ ↦ ?_
  exact off_zeroRegion hprivate

theorem off_uartInitDevices : uartInitDevices.Performs (StoresIn OffHandshake) :=
  Program.always_forM _ fun l2cpu _ ↦ off_uartInitOne l2cpu

end Regions

theorem off_sweep (prevActive : ℕ) : (sweep prevActive).Performs (StoresIn OffHandshake) :=
  (inRegion_loop .brisc prevActive).allow fun _ hop ↦ hop.mono fun _ ⟨_, hslot, ha⟩ ↦
    offHandshake_of_slotRegion hslot ha

end Bhx.Firmware
