import Bhx.Chip.SharedChip
import Bhx.Machine.L1Layout

/-!
# The state of the daemon

The daemon serves the four L2CPUs of a card. For each it has a slot, which is there while the guest
is booted and says what is attached to it, and beside the slots it has the devices registered with
its dispatcher, a flag that says whether the board was reset in this session, and the chip. Threads
of the daemon work on these and on the memories of the guests by atomic steps (`RpcOp`), and any
step that can fail may fail: `faults` says which ones do, and a statement about all states is one
about all failures.

Scope. The mutexes of the slots, of the engine and of the dispatcher do not exclude anybody here, so
that another thread may act between any two steps of a thread. That is more than can happen, since
the daemon holds the mutex of a slot over each block that works on the slot. But they may be
poisoned: then the steps that ask for them fail. No modelled part panics while it has one of them,
so no step changes which are poisoned, but something else may at any time (`Incident`). The mutex of
the boot path is left out. A guest's memory is a map from addresses to words, and every access of
the daemon to it is of one aligned word. What is only reported (logs, metrics, the tails of the
consoles, the `wedged` marks) is not modelled.
-/

set_option autoImplicit false

namespace Bhx.Daemon

open SharedMemory Chip Machine.L1Layout

/-! ### Requests and slots -/

/-- A file of the host, by a number for its path. -/
abbrev Path := ℕ

/-- The words of a file. -/
abbrev Image := List UInt32

/-- `BootPayload`. -/
inductive BootPayload
  | kernel (path : Path)
  | uboot (path : Path)
deriving DecidableEq, Repr

/-- `BootPayload::path`. -/
def BootPayload.path : BootPayload → Path
  | .kernel path | .uboot path => path

/-- `BootPayload::is_uboot`. -/
def BootPayload.isUboot : BootPayload → Bool
  | .kernel _ => false
  | .uboot _ => true

/-- Ports of the host that are forwarded to ports of the guest. -/
abbrev Forwards := List (ℕ × ℕ)

/-- The devices that a request asks for. -/
structure DeviceArgs where
  disk : Option Path
  cloudInit : Option Path
  network : Bool
  extraFwd : Forwards
  rng : Bool
  console : Bool
deriving DecidableEq, Repr

/-- No devices: what is attached stays. -/
def DeviceArgs.none : DeviceArgs := ⟨.none, .none, false, [], false, false⟩

/-- The request asks for some device. -/
def DeviceArgs.asks (args : DeviceArgs) : Bool :=
  args.disk.isSome || args.cloudInit.isSome || args.network || args.rng || args.console

/-- A boot request. -/
structure BootArgs where
  l2cpu : L2CpuIdx
  opensbi : Path
  payload : BootPayload
  dtb : Path
  initramfs : Option Path
  rootDevice : String
  devices : DeviceArgs
  force : Bool
  memoryOverride : Option ℕ
  hostnameOverride : Option String
  extraBootargs : Option String
deriving DecidableEq, Repr

/-- The serial number of a disk. -/
abbrev Serial := String

/-- The serial number of the cloud-init seed. -/
def cidata : Serial := "cidata"

/-- `DiskWorker`: the disk, and the index of its device among those of the L2CPU. -/
structure DiskWorker where
  path : Path
  name : Option Serial
  devIdx : ℕ
deriving DecidableEq, Repr

/-- `L2CpuSlot`. The workers of the devices other than disks have no data of their own. -/
structure L2CpuSlot where
  disks : List DiskWorker
  blkDtbDevIdx : List ℕ
  dtbBytes : Option Image
  net : Bool
  virtioConsole : Bool
  virtioRng : Bool
  bootPayload : Option BootPayload
  netExtraFwd : Forwards
deriving DecidableEq, Repr

/-- A device registered with the dispatcher. The forwards of a network device begin with the one for
SSH. -/
inductive Device
  | blk (path : Path) (name : Option Serial)
  | net (forwards : Forwards) (hostname : Option String)
  | console
  | rng
deriving DecidableEq, Repr

/-! ### The memory of a guest -/

/-- L2CPU_STARTING_ADDRESS. -/
def startingAddress (l2cpu : L2CpuIdx) : ℕ :=
  if l2cpu = 3 then 0x4000b0000000 else 0x400030000000

/-- The parts of an image. -/
inductive ImagePart
  | opensbi
  | dtb
  | kernel
  | initramfs
deriving DecidableEq, Repr

/-- Where a part of the image goes, from the start of the memory. -/
def ImagePart.offset : ImagePart → ℕ
  | .opensbi => 0x0
  | .dtb => 0x100000
  | .kernel => 0x200000
  | .initramfs => 0xb5000000

/-- The address of a part of the image. -/
def partAddr (l2cpu : L2CpuIdx) (part : ImagePart) : ℕ := startingAddress l2cpu + part.offset

/-- STATUS_OFFSET. -/
def statusOffset : ℕ := 0xE0000
/-- NEXT_ADDR_PA_OFFSET. -/
def nextAddrPaOffset : ℕ := statusOffset + 0x10
/-- NEXT_MODE_PA_OFFSET. -/
def nextModePaOffset : ℕ := statusOffset + 0x18
/-- NEXT_ARG1_PA_OFFSET. -/
def nextArg1PaOffset : ℕ := statusOffset + 0x20
/-- HSM_STATE_PA_OFFSET. -/
def hsmStatePaOffset : ℕ := statusOffset + 0x28
/-- MSIP_PA_OFFSET. -/
def msipPaOffset : ℕ := statusOffset + 0x30
/-- FORCE_PARK_REQ_PA_OFFSET. -/
def forceParkReqPaOffset : ℕ := statusOffset + 0x38
/-- FORCE_PARK_REQ_VALUE_OFFSET. -/
def forceParkReqValueOffset : ℕ := statusOffset + 0x40
/-- RESET_TYPE_OFFSET. -/
def resetTypeOffset : ℕ := statusOffset + 0x48

/-- STATUS_PARKED. -/
def statusParked : ℕ := 0x5f5f44454b524150
/-- RESET_TYPE_COLD_REBOOT. -/
def resetTypeColdReboot : UInt32 := 1
/-- RESET_TYPE_WARM_REBOOT. -/
def resetTypeWarmReboot : UInt32 := 2
/-- RESET_TYPE_SHUTDOWN. -/
def resetTypeShutdown : UInt32 := 0
/-- HSM_STATE_STOPPED. -/
def hsmStateStopped : UInt32 := 1
/-- HSM_STATE_START_PENDING. -/
def hsmStateStartPending : UInt32 := 2
/-- NEXT_MODE_S. -/
def nextModeS : ℕ := 1

/-- The value of two words, the low one first. -/
def joinWords (lo hi : UInt32) : ℕ := hi.toNat * 2 ^ 32 + lo.toNat

/-- The low word of a value. -/
def loWord (value : ℕ) : UInt32 := UInt32.ofNat value

/-- The high word of a value. -/
def hiWord (value : ℕ) : UInt32 := UInt32.ofNat (value / 2 ^ 32)

/-! ### What the threads share -/

/-- The mutexes that are asked for with `lock_or_internal_error`. -/
inductive Mutex
  | slot (l2cpu : L2CpuIdx)
  | tensixEngine
  | dispatcher
deriving DecidableEq, Repr

/-- What fails: `steps` says of the next fallible steps whether they succeed, and the ones after
them do, and `poisoned` says which mutexes nobody gets. -/
structure Faults where
  steps : List Bool
  poisoned : Mutex → Bool

/-- Nothing fails. -/
def Faults.none : Faults := ⟨[], fun _ ↦ false⟩

/-- What the threads of the daemon share. `uarts` says of which L2CPUs the UART is registered with
the dispatcher, and `consoles` how many console threads run for an L2CPU. -/
structure DaemonWorld (ι : Type) where
  chip : ChipWorld ι
  ram : L2CpuIdx → ℕ → UInt32
  slots : L2CpuIdx → Option L2CpuSlot
  registry : L2CpuIdx → ℕ → Option Device
  uarts : L2CpuIdx → Bool
  consoles : L2CpuIdx → ℕ
  dispatcher : Bool
  chipResetThisSession : Bool
  faults : Faults

/-- What a thread is about to do, for the trace. -/
inductive Note
  /-- It begins to boot or release an L2CPU, with the devices that were asked for. -/
  | began (l2cpu : L2CpuIdx) (devices : DeviceArgs)
  /-- It goes on to boot the L2CPU from reset. -/
  | cold (l2cpu : L2CpuIdx)
  /-- It has done so, or has given up. -/
  | completed (l2cpu : L2CpuIdx)
deriving DecidableEq, Repr

/-- The steps of a thread that touch neither the chip nor the flag. -/
inductive RpcOp
  | read32 (l2cpu : L2CpuIdx) (addr : ℕ)
  | write32 (l2cpu : L2CpuIdx) (addr : ℕ) (value : UInt32)
  /-- Stores a word of an image. -/
  | image (l2cpu : L2CpuIdx) (part : ImagePart) (index : ℕ) (word : UInt32)
  /-- Stores to the software interrupt of hart 0, which wakes it. -/
  | wake (l2cpu : L2CpuIdx) (addr : ℕ)
  /-- What is in a slot. -/
  | peekSlot (l2cpu : L2CpuIdx)
  /-- Takes what is in a slot. -/
  | takeSlot (l2cpu : L2CpuIdx)
  | putSlot (l2cpu : L2CpuIdx) (slot : L2CpuSlot)
  /-- Changes what is in a slot, and answers what was there. -/
  | editSlot (l2cpu : L2CpuIdx) (edit : L2CpuSlot → L2CpuSlot)
  /-- Changes what is in a slot whose mutex the thread has. -/
  | updateSlot (l2cpu : L2CpuIdx) (edit : L2CpuSlot → L2CpuSlot)
  | register (l2cpu : L2CpuIdx) (devIdx : ℕ) (device : Device)
  | unregister (l2cpu : L2CpuIdx) (devIdx : ℕ)
  | registerUart (l2cpu : L2CpuIdx)
  | unregisterUart (l2cpu : L2CpuIdx)
  /-- Starts the console thread of an L2CPU. -/
  | spawnConsole (l2cpu : L2CpuIdx)
  /-- Stops the console thread of a slot and waits for its end. -/
  | joinConsole (l2cpu : L2CpuIdx)
  /-- Asks for the mutex of the engine. -/
  | lockEngine
  /-- Asks for the mutex of the dispatcher, and whether it runs. -/
  | hasDispatcher
  /-- Brings up the engine and the dispatcher unless they run. -/
  | bringUp
  /-- Drops the dispatcher and the engine. -/
  | dropEngine
  /-- Whether the window to the chip is open. -/
  | dupFd
  /-- Some other step that may fail. -/
  | trial
  /-- Replies to the client that the request was carried out. -/
  | replyOk (l2cpu : L2CpuIdx)
  /-- Says what a thread is about to do. It stands for no step of the daemon. -/
  | note (note : Note)

/-- The answer to a step: the parts that the step has no use for are left at their defaults. -/
structure Reply where
  word : Option UInt32 := none
  slot : Option L2CpuSlot := none
  ok : Bool := true

variable {ι : Type}

/-- Whether the next fallible step succeeds. -/
def DaemonWorld.luck (w : DaemonWorld ι) : Bool := w.faults.steps.headD true

/-- The world after a fallible step. -/
def DaemonWorld.tried (w : DaemonWorld ι) : DaemonWorld ι :=
  { w with faults := { w.faults with steps := w.faults.steps.tail } }

/-- Nobody gets the mutex. -/
def DaemonWorld.poisoned (w : DaemonWorld ι) (mutex : Mutex) : Bool := w.faults.poisoned mutex

/-- A store to the memory of a guest. -/
def DaemonWorld.store (w : DaemonWorld ι) (l2cpu : L2CpuIdx) (addr : ℕ) (value : UInt32) :
    DaemonWorld ι :=
  { w with ram := Function.update w.ram l2cpu (Function.update (w.ram l2cpu) addr value) }

/-- A store that may fail. -/
def DaemonWorld.tryStore (w : DaemonWorld ι) (l2cpu : L2CpuIdx) (addr : ℕ) (value : UInt32) :
    Reply × DaemonWorld ι :=
  if w.luck then ({ word := some 0 }, w.tried.store l2cpu addr value)
  else ({ ok := false }, w.tried)

/-- The world with another content of a slot. -/
def DaemonWorld.setSlot (w : DaemonWorld ι) (l2cpu : L2CpuIdx) (slot : Option L2CpuSlot) :
    DaemonWorld ι :=
  { w with slots := Function.update w.slots l2cpu slot }

/-- The world with another device registered. -/
def DaemonWorld.setDevice (w : DaemonWorld ι) (l2cpu : L2CpuIdx) (devIdx : ℕ)
    (device : Option Device) : DaemonWorld ι :=
  { w with registry :=
    Function.update w.registry l2cpu (Function.update (w.registry l2cpu) devIdx device) }

/-- A step that needs a mutex. -/
def DaemonWorld.withLock (w : DaemonWorld ι) (mutex : Mutex) (step : Reply × DaemonWorld ι) :
    Reply × DaemonWorld ι :=
  if w.poisoned mutex then ({ ok := false }, w) else step

/-- The effect and the answer of a step. A word in the answer about the dispatcher says that its
mutex was there. -/
def rpcExec : RpcOp → DaemonWorld ι → Reply × DaemonWorld ι
  | .read32 l2cpu addr, w =>
    if w.luck then ({ word := some (w.ram l2cpu addr) }, w.tried) else ({ ok := false }, w.tried)
  | .write32 l2cpu addr value, w => w.tryStore l2cpu addr value
  | .image l2cpu part index word, w => w.tryStore l2cpu (partAddr l2cpu part + 4 * index) word
  | .wake l2cpu addr, w => w.tryStore l2cpu addr 1
  | .peekSlot l2cpu, w => w.withLock (.slot l2cpu) ({ slot := w.slots l2cpu }, w)
  | .takeSlot l2cpu, w =>
    w.withLock (.slot l2cpu) ({ slot := w.slots l2cpu }, w.setSlot l2cpu none)
  | .putSlot l2cpu slot, w => w.withLock (.slot l2cpu) ({}, w.setSlot l2cpu (some slot))
  | .editSlot l2cpu edit, w =>
    w.withLock (.slot l2cpu)
      ({ slot := w.slots l2cpu }, w.setSlot l2cpu ((w.slots l2cpu).map edit))
  | .updateSlot l2cpu edit, w => ({}, w.setSlot l2cpu ((w.slots l2cpu).map edit))
  | .register l2cpu devIdx device, w => ({}, w.setDevice l2cpu devIdx (some device))
  | .unregister l2cpu devIdx, w => ({}, w.setDevice l2cpu devIdx none)
  | .registerUart l2cpu, w => ({}, { w with uarts := Function.update w.uarts l2cpu true })
  | .unregisterUart l2cpu, w => ({}, { w with uarts := Function.update w.uarts l2cpu false })
  | .spawnConsole l2cpu, w =>
    ({}, { w with consoles := Function.update w.consoles l2cpu (w.consoles l2cpu + 1) })
  | .joinConsole l2cpu, w =>
    ({}, { w with consoles := Function.update w.consoles l2cpu (w.consoles l2cpu - 1) })
  | .lockEngine, w => w.withLock .tensixEngine ({}, w)
  | .hasDispatcher, w => w.withLock .dispatcher ({ word := some 0, ok := w.dispatcher }, w)
  | .bringUp, w =>
    if w.poisoned .tensixEngine || w.poisoned .dispatcher then ({ ok := false }, w)
    else if w.dispatcher then ({}, w)
    else if w.luck then ({}, { w.tried with dispatcher := true }) else ({ ok := false }, w.tried)
  | .dropEngine, w =>
    w.withLock .dispatcher ({ word := some 0, ok := !w.poisoned .tensixEngine },
      { w with dispatcher := false, registry := fun _ _ ↦ none, uarts := fun _ ↦ false })
  | .dupFd, w => ({ ok := w.chip.inner && w.luck }, w.tried)
  | .trial, w => ({ ok := w.luck }, w.tried)
  | .replyOk _, w => ({}, w)
  | .note _, w => ({}, w)

/-- What the two outcomes of a step with a mutex have in common. -/
theorem DaemonWorld.withLock_keeps {α : Type} (read : DaemonWorld ι → α) {w : DaemonWorld ι}
    {mutex : Mutex} {step : Reply × DaemonWorld ι} (h : read step.2 = read w) :
    read (w.withLock mutex step).2 = read w := by
  unfold withLock
  split_ifs
  · rfl
  · exact h

/-- The steps on slots, memories and registrations leave the chip alone. -/
theorem rpcExec_chip (op : RpcOp) (w : DaemonWorld ι) : (rpcExec op w).2.chip = w.chip := by
  have hstore (l2cpu : L2CpuIdx) (addr : ℕ) (value : UInt32) :
      (w.tryStore l2cpu addr value).2.chip = w.chip := by
    unfold DaemonWorld.tryStore
    split_ifs
    · rfl
    · rfl
  cases op with
  | read32 l2cpu addr =>
    change (if w.luck then _ else _ : Reply × DaemonWorld ι).2.chip = w.chip
    split_ifs
    · rfl
    · rfl
  | write32 l2cpu addr value => exact hstore _ _ _
  | image l2cpu part index word => exact hstore _ _ _
  | wake l2cpu addr => exact hstore _ _ _
  | peekSlot | takeSlot | putSlot | editSlot | lockEngine | hasDispatcher | dropEngine =>
    exact DaemonWorld.withLock_keeps DaemonWorld.chip rfl
  | bringUp =>
    simp only [rpcExec]
    split_ifs
    · rfl
    · rfl
    · rfl
    · rfl
  | _ => rfl

/-- A part of a thread that may fail. -/
abbrev RpcM (α : Type) := Fallible RpcOp Reply Failure α

/-- A step and its answer. -/
def ask (op : RpcOp) : RpcM Reply := ExceptT.lift (Program.perform op)

/-- A step that fails with an error. -/
def askOk (op : RpcOp) : RpcM Reply := do
  let reply ← ask op
  if reply.ok then pure reply else throw .error

/-- An error unless the condition holds. -/
def require (condition : Bool) : RpcM Unit := if condition then pure () else throw .error

/-- A step that cannot fail and whose answer nobody reads. -/
def tell (op : RpcOp) : RpcM Unit := do
  let _ ← ask op

/-- What stands for the host and the board: the files that can be read, what the tools make of a
device tree, what a reset of the board leaves, how long a thread waits, and the number of the card.
A reset holds every core (`held`). -/
structure Platform where
  files : Path → Option Image
  modifyDtb : BootArgs → Image → Option Image
  addOpensbiReservation : L2CpuIdx → Image → Option Image
  boardRegs : ℕ → UInt32
  boardRam : L2CpuIdx → ℕ → UInt32
  patience : ℕ
  forceParkPolls : ℕ
  card : ℕ
  held : ∀ l2cpu : L2CpuIdx, (boardRegs l2cpuResetAddr).toNat.testBit (l2cpu.val + 4) = false

/-- `L2Cpu::read32`. -/
def read32 (l2cpu : L2CpuIdx) (addr : ℕ) : RpcM (Option UInt32) := do
  let reply ← ask (.read32 l2cpu addr)
  pure reply.word

/-- `L2Cpu::write32`, with its error returned. -/
def write32 (l2cpu : L2CpuIdx) (addr : ℕ) (value : UInt32) : RpcM Unit := do
  let _ ← askOk (.write32 l2cpu addr value)

/-- The two stores of a value. -/
def writeU64 (l2cpu : L2CpuIdx) (addr value : ℕ) : RpcM Unit := do
  write32 l2cpu addr (loWord value)
  write32 l2cpu (addr + 4) (hiWord value)

/-- The two loads of a value, unless one fails. -/
def readU64 (l2cpu : L2CpuIdx) (addr : ℕ) : RpcM (Option ℕ) := do
  match ← read32 l2cpu addr with
  | none => pure none
  | some lo =>
    match ← read32 l2cpu (addr + 4) with
    | none => pure none
    | some hi => pure (some (joinWords lo hi))

/-- `read_bin_file`. -/
def readBinFile (platform : Platform) (path : Path) : RpcM Image := do
  let _ ← askOk .trial
  match platform.files path with
  | some image => pure image
  | none => throw .error

/-- `l2cpu_noc_write_bulk`. -/
def nocWriteBulk (l2cpu : L2CpuIdx) (part : ImagePart) (image : Image) : RpcM Unit :=
  image.zipIdx.forM fun word ↦ do
    let _ ← askOk (.image l2cpu part word.2 word.1)

end Bhx.Daemon
