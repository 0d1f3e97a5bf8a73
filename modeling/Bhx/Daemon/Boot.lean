import Bhx.Daemon.Release
import Bhx.SharedMemory.Cores

/-!
# Booting and stopping guests

A boot request releases the guest when it is parked, and boots it from reset otherwise
(`dispatchBoot`). A boot from reset tears down what is in the slot if `--force` asks for that,
resets the board when no other guest runs and no boot of the session has done so, stores the images,
registers the devices, releases the core and puts the slot in place. A stop request takes the slot
and idles the clock when nothing runs any more (`internalStop`, `maybeIdlePll`). It does not touch
the release bit of the core.

`rpcThreads` is the daemon at work: threads that carry out requests or probe for parks, next to
guests that store to their memories.

Scope. The windows of the guests into the engine are left out, and so is the moment at which a mutex
that excludes nobody here is given back.
-/

set_option autoImplicit false

namespace Bhx.Daemon

open SharedMemory Chip Machine.L1Layout

variable {ι : Type} (platform : Platform) (thread : ι)

/-! ### The steps of a thread -/

/-- The steps of a thread. -/
inductive DaemonOp (ι : Type)
  | rpc (op : RpcOp)
  | chip (op : ChipOp ι)
  /-- `SharedChip::reset_board`. -/
  | resetBoard
  /-- Whether the board was reset in this session. -/
  | readFlag
  | setFlag

/-- The world after the board was reset. -/
def DaemonWorld.afterReset (w : DaemonWorld ι) : DaemonWorld ι :=
  { w with chip := { w.chip with regs := platform.boardRegs }, ram := platform.boardRam }

/-- The world with the window to the chip open or not. -/
def DaemonWorld.setInner (w : DaemonWorld ι) (inner : Bool) : DaemonWorld ι :=
  { w with chip := { w.chip with inner := inner } }

/-- The effect and the answer of a step. A reset of the board that fails leaves the window closed,
and may have come before or after the reset itself. -/
def daemonExec : DaemonOp ι → DaemonWorld ι → Reply × DaemonWorld ι
  | .rpc op, w => rpcExec op w
  | .chip op, w => ({ word := (chipExec op w.chip).1 }, { w with chip := (chipExec op w.chip).2 })
  | .resetBoard, w =>
    if w.luck then ({}, (w.tried.afterReset platform).setInner true)
    else if w.tried.luck then ({ ok := false }, w.tried.tried.setInner false)
    else ({ ok := false }, (w.tried.tried.afterReset platform).setInner false)
  | .readFlag, w => ({ ok := w.chipResetThisSession }, w)
  | .setFlag, w => ({}, { w with chipResetThisSession := true })

/-- A part of a thread that may fail. -/
abbrev DaemonM (ι α : Type) := Fallible (DaemonOp ι) Reply Failure α

/-- A part that leaves the chip alone. -/
def rpc {α : Type} (part : RpcM α) : DaemonM ι α := ExceptT.mk (part.run.embed .rpc)

/-- A step and its answer. -/
def step (op : DaemonOp ι) : DaemonM ι Reply := ExceptT.lift (Program.perform op)

/-- A sequence of accesses to the chip, whose failure is a result. -/
def onChip {α : Type} (part : Program (ChipOp ι) (Option UInt32) α) : DaemonM ι α :=
  ExceptT.lift (part.within .chip Reply.word)

/-- A call that holds `seq_lock`. -/
def chipCall (call : ChipCall) : DaemonM ι Unit :=
  ExceptT.mk ((call.run thread platform.patience).within .chip Reply.word)

section Handlers

variable (l2cpu : L2CpuIdx)

/-! ### Stopping -/

/-- All L2CPUs. -/
def allL2Cpus : List L2CpuIdx := List.finRange 4

/-- Whether some slot is taken, or its mutex is poisoned. -/
def anyBooted : List L2CpuIdx → RpcM Bool
  | [] => pure false
  | l2cpu :: l2cpus => do
    let reply ← ask (.peekSlot l2cpu)
    if reply.slot.isSome || !reply.ok then pure true else anyBooted l2cpus

/-- Whether some release bit is set, or cannot be read. -/
def anyRunning : List L2CpuIdx → DaemonM ι Bool
  | [] => pure false
  | l2cpu :: l2cpus => do
    let running ← onChip (l2cpuIsRunning l2cpu).run
    match running with
    | .ok false => anyRunning l2cpus
    | _ => pure true

/-- `maybe_idle_pll`. -/
def maybeIdlePll : DaemonM ι Unit := do
  let booted ← rpc (anyBooted allL2Cpus)
  if booted then pure ()
  else do
    let running ← anyRunning allL2Cpus
    if running then pure () else chipCall platform thread .idlePll

/-- `unregister_engine_slots`. -/
def unregisterEngineSlots : RpcM Unit := do
  let dispatcher ← ask .hasDispatcher
  doIf dispatcher.ok (do
    (List.range devsPerL2Cpu).forM fun devIdx ↦ tell (.unregister l2cpu devIdx)
    tell (.unregisterUart l2cpu))

/-- What happens to a slot that was taken: its devices are unregistered and its console thread is
stopped. The other workers have no threads. -/
def tearDown : RpcM Unit := do
  unregisterEngineSlots l2cpu
  tell (.joinConsole l2cpu)

/-- `internal_stop`. That the mutex of the slot is poisoned is answered like an empty slot, since a
stop request fails in both cases and a reset of the board goes on in both. -/
def internalStop : DaemonM ι Bool := do
  let reply ← rpc (ask (.takeSlot l2cpu))
  if reply.slot.isNone then pure false
  else do
    rpc (tearDown l2cpu)
    maybeIdlePll platform thread
    pure true

/-- `dispatch_stop`. -/
def dispatchStop : DaemonM ι Unit := do
  let stopped ← internalStop platform thread l2cpu
  if stopped then rpc (tell (.replyOk l2cpu)) else throw .error

/-! ### Resetting the board -/

/-- `BootSlotDecision`. -/
inductive BootSlotDecision
  | reject
  | proceed
  | tearDownAndProceed
deriving DecidableEq, Repr

/-- `decide_boot_slot`. -/
def decideBootSlot (slotPresent force : Bool) : BootSlotDecision :=
  match slotPresent, force with
  | false, _ => .proceed
  | true, true => .tearDownAndProceed
  | true, false => .reject

/-- `handle_existing_slot`. Looking into the slot and taking it is one step. -/
def handleExistingSlot (force : Bool) : RpcM Unit := do
  let reply ← askOk (if force then .takeSlot l2cpu else .peekSlot l2cpu)
  match decideBootSlot reply.slot.isSome force with
  | .reject => throw .error
  | .proceed => pure ()
  | .tearDownAndProceed => tearDown l2cpu

/-- `SiblingClassification`. -/
inductive SiblingClassification
  | parked
  | running
deriving DecidableEq, Repr

/-- `classify_sibling`. -/
def classifySibling (purg : Option ℕ) : SiblingClassification :=
  if purg = some statusParked then .parked else .running

/-- What the other slots hold: the L2CPUs that run, and those that are parked. -/
structure Siblings where
  running : List L2CpuIdx
  parked : List L2CpuIdx

/-- Adds an L2CPU with a taken slot to what the other slots hold. -/
def Siblings.add (siblings : Siblings) (l2cpu : L2CpuIdx) : SiblingClassification → Siblings
  | .parked => { siblings with parked := siblings.parked ++ [l2cpu] }
  | .running => { siblings with running := siblings.running ++ [l2cpu] }

/-- Looks at one other slot. Both words of the status are read, whether or not the first read
fails. -/
def scanSibling (siblings : Siblings) (l2cpu : L2CpuIdx) : RpcM Siblings := do
  let reply ← askOk (.peekSlot l2cpu)
  if reply.slot.isNone then pure siblings
  else do
    let lo ← read32 l2cpu (startingAddress l2cpu + statusOffset)
    let hi ← read32 l2cpu (startingAddress l2cpu + statusOffset + 4)
    pure (siblings.add l2cpu (classifySibling (lo.bind fun lo ↦ hi.map (joinWords lo))))

/-- `maybe_opportunistic_reset_board`. -/
def maybeOpportunisticResetBoard (target : L2CpuIdx) : DaemonM ι Unit := do
  let flag ← step .readFlag
  if flag.ok then pure ()
  else do
    let siblings ← rpc ((allL2Cpus.filter (· ≠ target)).foldlM scanSibling ⟨[], []⟩)
    if siblings.running ≠ [] then pure ()
    else do
      siblings.parked.forM fun l2cpu ↦ do
        let _ ← internalStop platform thread l2cpu
      let _ ← rpc (askOk .dropEngine)
      let reply ← step .resetBoard
      rpc (require reply.ok)
      let _ ← step .setFlag

/-! ### Booting from reset -/

/-- CONTROL_BASE. -/
def controlBase : ℕ := 0xfffff7fefff10000
/-- L3_CTRL_BASE. -/
def l3CtrlBase : ℕ := 0x02010000
/-- L3_ENABLE_OFFSET. -/
def l3EnableOffset : ℕ := 8
/-- L3_ENABLE_VALUE. -/
def l3EnableValue : UInt32 := 0x0f
/-- L2_PREFETCH_BASE. -/
def l2PrefetchBase : ℕ := 0x02030000
/-- L2_PREFETCH_STRIDE. -/
def l2PrefetchStride : ℕ := 0x2000
/-- L2_PREFETCH_NUM. -/
def l2PrefetchNum : ℕ := 4
/-- L2_PREFETCH_CFG_LO. -/
def l2PrefetchCfgLo : UInt32 := 0x00015811
/-- L2_PREFETCH_CFG_HI. -/
def l2PrefetchCfgHi : UInt32 := 0x0038c84e

/-- The stores of a file as a part of the image. -/
def loadPart (part : ImagePart) (path : Path) : RpcM Unit := do
  let image ← readBinFile platform path
  nocWriteBulk l2cpu part image

/-- `boot_l2cpu`. -/
def bootL2cpu (args : BootArgs) (dtb : Image) : RpcM Unit := do
  write32 args.l2cpu (l3CtrlBase + l3EnableOffset) l3EnableValue
  let _ ← askOk (.read32 args.l2cpu (l3CtrlBase + l3EnableOffset))
  loadPart platform args.l2cpu .opensbi args.opensbi
  loadPart platform args.l2cpu .kernel args.payload.path
  nocWriteBulk args.l2cpu .dtb dtb
  forSome args.initramfs (loadPart platform args.l2cpu .initramfs)
  -- the reset vectors of the four harts
  (List.range 4).forM fun core ↦
    writeU64 args.l2cpu (controlBase + core * 8) (partAddr args.l2cpu .opensbi)

/-- `run_boot_sequence`: the device tree that it stored. -/
def runBootSequence (args : BootArgs) : RpcM Image := do
  let _ ← askOk .dupFd
  let dtbRaw ← readBinFile platform args.dtb
  doIf (!args.payload.isUboot) (forSome args.initramfs fun path ↦ do
    let _ ← readBinFile platform path)
  doIf args.devices.asks (do
    let _ ← askOk .bringUp
    let _ ← askOk .trial)
  match platform.modifyDtb args dtbRaw with
  | none => throw .error
  | some dtb => do
    bootL2cpu platform args dtb
    pure dtb

/-- A slot as `make_slot_from_l2cpu` makes it and `dispatch_boot` completes it. -/
def freshSlot (args : BootArgs) (dtb : Image) : L2CpuSlot where
  disks := []
  blkDtbDevIdx := devBlk :: if args.devices.cloudInit.isSome then [devBlk1] else []
  dtbBytes := some dtb
  net := false
  virtioConsole := false
  virtioRng := false
  bootPayload := some args.payload
  netExtraFwd := args.devices.extraFwd

/-- Registers a disk, unless its image cannot be opened or mapped. -/
def attachDisk (name : Option Serial) (devIdx : ℕ) (slot : L2CpuSlot)
    (path : Path) : RpcM L2CpuSlot := do
  let opened ← ask .trial
  if opened.ok then do
    let mapped ← ask .trial
    if mapped.ok then do
      tell (.register l2cpu devIdx (.blk path name))
      pure { slot with disks := slot.disks ++ [⟨path, name, devIdx⟩] }
    else pure slot
  else pure slot

/-- A step that may fail, when it is asked for; the result is whether it succeeded. -/
def tryIf (condition : Bool) : RpcM Bool :=
  if condition then do
    let reply ← ask .trial
    pure reply.ok
  else pure false

/-- The registrations of `dispatch_boot`, and the slot with their workers. The entropy device gets
no worker here. -/
def registerDevices (args : BootArgs) (slot : L2CpuSlot) : RpcM L2CpuSlot := do
  let _ ← askOk .lockEngine
  let running ← dispatcherRuns
  if running then do
    doIf args.devices.rng (tell (.register args.l2cpu devRng .rng))
    let slot ← args.devices.disk.elim (pure slot) (attachDisk args.l2cpu none devBlk slot)
    let slot ← args.devices.cloudInit.elim (pure slot)
      (attachDisk args.l2cpu (some cidata) devBlk1 slot)
    let netUp ← tryIf args.devices.network
    doIf netUp (tell (.register args.l2cpu devNet
      (.net (netForwards (sshPort platform.card args.l2cpu) args.devices.extraFwd)
        args.hostnameOverride)))
    doIf args.devices.console (tell (.register args.l2cpu devConsole .console))
    tell (.registerUart args.l2cpu)
    pure { slot with net := netUp, virtioConsole := args.devices.console }
  else pure slot

/-- `configure_prefetchers`. -/
def configurePrefetchers : RpcM Unit :=
  (List.range l2PrefetchNum).forM fun i ↦ do
    write32 l2cpu (l2PrefetchBase + i * l2PrefetchStride) l2PrefetchCfgLo
    write32 l2cpu (l2PrefetchBase + i * l2PrefetchStride + 4) l2PrefetchCfgHi

/-- `release_l2cpu_from_reset`. Failures to clear the status are not looked at. -/
def releaseL2cpuFromReset : DaemonM ι Unit := do
  rpc (tell (.write32 l2cpu (startingAddress l2cpu + statusOffset) 0))
  rpc (tell (.write32 l2cpu (startingAddress l2cpu + statusOffset + 4) 0))
  chipCall platform thread (.resetX280 [l2cpu])
  rpc (configurePrefetchers l2cpu)

/-- The part of `dispatch_boot` that boots from reset. -/
def coldBoot (args : BootArgs) : DaemonM ι Unit := do
  rpc (handleExistingSlot args.l2cpu args.force)
  rpc (tell (.note (.cold args.l2cpu)))
  maybeOpportunisticResetBoard platform thread args.l2cpu
  let dtb ← rpc (runBootSequence platform args)
  -- maps the window for interrupts
  let _ ← rpc (askOk .trial)
  rpc (tell (.spawnConsole args.l2cpu))
  let slot ← rpc (registerDevices platform args (freshSlot args dtb))
  releaseL2cpuFromReset platform thread args.l2cpu
  let _ ← rpc (askOk (.putSlot args.l2cpu slot))
  rpc (tell (.replyOk args.l2cpu))

/-- The part of `dispatch_boot` that releases a parked guest. -/
def releaseParked (args : BootArgs) (parked : ParkedReleaseMeta) : RpcM Unit := do
  let dtbBytes ← takeSlotDtbBytes args.l2cpu
  dispatchRelease platform args.l2cpu args.payload parked dtbBytes args.devices

/-- The parked guest that `dispatch_boot` finds or makes. -/
def findParked (args : BootArgs) : RpcM (Option ParkedReleaseMeta) := do
  match ← readParkedReleaseMeta args.l2cpu with
  | some parked => pure (some parked)
  | none => if args.force then triggerForceParkIfAvailable platform args.l2cpu else pure none

/-- `dispatch_boot`. -/
def dispatchBoot (args : BootArgs) : DaemonM ι Unit := do
  rpc (require (!(args.payload.isUboot && args.initramfs.isSome)))
  rpc (tell (.note (.began args.l2cpu args.devices)))
  match ← rpc (findParked platform args) with
  | some parked => rpc (releaseParked platform args parked)
  | none => coldBoot platform thread args

end Handlers

/-! ### The daemon at work -/

/-- What a thread is asked to do. `fresh` says that the console thread has just begun a pass. -/
inductive Job
  | boot (args : BootArgs)
  | stop (l2cpu : L2CpuIdx)
  | device (l2cpu : L2CpuIdx) (request : DeviceRequest)
  | probe (l2cpu : L2CpuIdx) (fresh : Bool)
deriving DecidableEq, Repr

/-- The L2CPU that a job is for. -/
def Job.l2cpu : Job → L2CpuIdx
  | .boot args => args.l2cpu
  | .stop l2cpu | .device l2cpu _ | .probe l2cpu _ => l2cpu

/-- A thread: what it still has to do, and what its last probe for a park found. -/
structure Worker where
  jobs : List Job
  lastParked : Bool
deriving DecidableEq, Repr

/-- What a thread does for a job; the result is what a probe found. -/
def Job.run (lastParked : Bool) : Job → DaemonM ι Bool
  | .boot args => do
    dispatchBoot platform thread args
    pure lastParked
  | .stop l2cpu => do
    dispatchStop platform thread l2cpu
    pure lastParked
  | .device l2cpu request => do
    rpc (request.dispatch platform l2cpu)
    rpc (tell (.replyOk l2cpu))
    pure lastParked
  | .probe l2cpu fresh => rpc (parkProbe platform l2cpu (!fresh && lastParked))

/-- Says that a boot is over. -/
def Job.over : Job → Program (DaemonOp ι) Reply Unit
  | .boot args => do
    let _ ← Program.perform (.rpc (.note (.completed args.l2cpu)))
  | _ => pure ()

/-- What is left of a thread after a job. One that panics ends, and one that waits goes no
further. -/
def Worker.after (worker : Worker) (jobs : List Job) : Except Failure Bool → Worker
  | .ok lastParked => ⟨jobs, lastParked⟩
  | .error .error => ⟨jobs, worker.lastParked⟩
  | .error _ => ⟨[], worker.lastParked⟩

/-- One job of a thread. -/
def Worker.pass (worker : Worker) : Program (DaemonOp ι) Reply Worker :=
  match worker.jobs with
  | [] => pure worker
  | job :: jobs => do
    let result ← (job.run platform thread worker.lastParked).run
    job.over
    pure (worker.after jobs result)

/-- What happens next to the threads: a guest stores to its own memory, or somebody panics with a
mutex in hand. -/
inductive Incident
  | guestWrite (l2cpu : L2CpuIdx) (addr : ℕ) (value : UInt32)
  | poison (mutex : Mutex)
deriving DecidableEq, Repr

/-- The effect of it. -/
def Incident.happen (w : DaemonWorld ι) : Incident → DaemonWorld ι
  | .guestWrite l2cpu addr value => w.store l2cpu addr value
  | .poison mutex => { w with faults :=
    { w.faults with poisoned := Function.update w.faults.poisoned mutex true } }

/-- The threads of the daemon, next to the guests and to whatever else panics. -/
def rpcThreads : Cores ι (DaemonOp ι) Reply Incident (DaemonWorld ι) fun _ ↦ Worker where
  exec := daemonExec platform
  act event w := event.happen w
  loop thread worker := worker.pass platform thread

/-- A state of the daemon with its threads between jobs. -/
def rpcStart (w : DaemonWorld ι) (workers : ι → Worker) :
    Config ι (DaemonOp ι) Reply Incident (DaemonWorld ι) fun _ ↦ Worker where
  scene := ⟨w, []⟩
  rest thread := .done (workers thread)

/-- What the threads share, with what has happened. -/
abbrev DaemonScene (ι : Type) := Scene ι (DaemonOp ι) Reply Incident (DaemonWorld ι)

/-- A state of the daemon and the rest of each thread's job. -/
abbrev DaemonConfig (ι : Type) :=
  Config ι (DaemonOp ι) Reply Incident (DaemonWorld ι) fun _ ↦ Worker

/-- The release bit of an L2CPU is set. -/
def Released (regs : ℕ → UInt32) (l2cpu : L2CpuIdx) : Prop :=
  (regs l2cpuResetAddr).toNat.testBit (l2cpu.val + 4) = true

instance (regs : ℕ → UInt32) (l2cpu : L2CpuIdx) : Decidable (Released regs l2cpu) :=
  inferInstanceAs (Decidable (_ = _))

/-! ### A small platform -/

/-- The registers at a frequency, with some cores released. -/
def regsAt (f : Frequency) (l2cpus : List L2CpuIdx) (addr : ℕ) : UInt32 :=
  if addr = pll4Base + pllCntl5 then PllCntl5.toU32 ⟨fun _ ↦ f.postdiv⟩
  else if addr = pll4Base + pllCntl1 then PllCntl1.toU32 ⟨0, 0, f.fbdiv⟩
  else if addr = l2cpuResetAddr then releaseMask l2cpus
  else 0

/-- A host whose files have one word each, and a board that a reset leaves at 200 MHz. -/
def smallPlatform : Platform where
  files path := some [UInt32.ofNat path]
  modifyDtb _ dtb := some dtb
  addOpensbiReservation _ dtb := some dtb
  boardRegs := regsAt .mhz200 []
  boardRam _ _ := 0
  patience := 1
  forceParkPolls := 1
  card := 0
  held := by decide +kernel

/-- A boot of an L2CPU without devices. -/
def plainBoot (l2cpu : L2CpuIdx) : BootArgs where
  l2cpu
  opensbi := 0
  payload := .kernel 1
  dtb := 2
  initramfs := none
  rootDevice := "vda"
  devices := .none
  force := false
  memoryOverride := none
  hostnameOverride := none
  extraBootargs := none

/-- A thread that boots L2CPU 1. -/
def bootWorker (_ : Unit) : Worker := ⟨[.boot (plainBoot 1)], false⟩

/-- A daemon that has just started on a chip with some cores released at 1750 MHz, whose guests it
took over. -/
def startedWorld (ι : Type) (l2cpus : List L2CpuIdx) : DaemonWorld ι where
  chip := ⟨regsAt .mhz1750 l2cpus, true, none, false, []⟩
  ram _ _ := 0
  slots l2cpu := if l2cpu ∈ l2cpus then some ⟨[], [], none, false, false, false, none, []⟩ else none
  registry _ _ := none
  uarts _ := false
  consoles l2cpu := if l2cpu ∈ l2cpus then 1 else 0
  dispatcher := true
  chipResetThisSession := false
  faults := .none

/-- The memory of L2CPU 1 while its guest is parked: the magic value, the type of the park, the
addresses it has published from `0x1000` on, and the state of hart 0 at one of them. -/
def parkedRam (resetType : UInt32) (addr : ℕ) : UInt32 :=
  let base := startingAddress 1
  if addr = base + statusOffset then loWord statusParked
  else if addr = base + statusOffset + 4 then hiWord statusParked
  else if addr = base + nextAddrPaOffset then 0x1000
  else if addr = base + nextModePaOffset then 0x1008
  else if addr = base + nextArg1PaOffset then 0x1010
  else if addr = base + hsmStatePaOffset then 0x1018
  else if addr = base + msipPaOffset then 0x1020
  else if addr = base + resetTypeOffset then resetType
  else if addr = 0x1018 then hsmStateStopped
  else 0

/-- A daemon whose only guest, that of L2CPU 1, is parked. -/
def parkedWorld (ι : Type) (resetType : UInt32) (slot : L2CpuSlot) : DaemonWorld ι :=
  { startedWorld ι [1] with
    ram := fun _ ↦ parkedRam resetType
    slots := fun l2cpu ↦ if l2cpu = 1 then some slot else none }

/-- A slot without devices, booted with the given kernel and a device tree of one word. -/
def plainSlot : L2CpuSlot := ⟨[], [], some [9], false, false, false, some (.kernel 1), []⟩

end Bhx.Daemon
