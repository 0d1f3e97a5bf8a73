import Bhx.Daemon.State

/-!
# Attaching and detaching devices

While a guest is booted, clients may attach disks, a network and a console to its L2CPU and detach
them again. A device that is attached is registered with the dispatcher and has a worker in the
slot. Each request works under the mutex of the slot, but the requests differ in what they check
before they change something: removing a disk looks at the slot first and asks for the mutex of the
dispatcher when the disk is out, while removing the network or the console unregisters the device
before it asks for the mutex of the slot (`detachDevice`). The last part of the module is the swap
of all devices in a release.

Scope. The contents of the disks and the state of the network are not part of the model. Opening an
image, mapping it, probing a port and making a network device are steps that may fail.
-/

set_option autoImplicit false

namespace Bhx.Daemon

open SharedMemory Chip Machine.L1Layout

variable (platform : Platform) (l2cpu : L2CpuIdx)

/-! ### Attaching devices -/

/-- `pick_free_blk_slot`. -/
def pickFreeBlkSlot (used eligible : List ℕ) : Option ℕ :=
  [devBlk, devBlk1, devBlk2].find? fun devIdx ↦ decide (devIdx ∈ eligible ∧ devIdx ∉ used)

/-- MAX_DISKS_PER_L2CPU. -/
def maxDisksPerL2Cpu : ℕ := 3

/-- The checks of `validate_add_disk_request` before it opens the file. -/
def mayAddDisk (slot : L2CpuSlot) (name : Option Serial) : Bool :=
  decide (slot.disks.length < maxDisksPerL2Cpu) &&
    (name.isNone || decide (name ∉ slot.disks.map DiskWorker.name))

/-- The content of a slot, or an error when the L2CPU is not booted. -/
def bootedSlot : RpcM L2CpuSlot := do
  let reply ← ask (.peekSlot l2cpu)
  match reply.slot with
  | some slot => pure slot
  | none => throw .error

/-- `dispatch_add_disk`. -/
def dispatchAddDisk (path : Path) (name : Option Serial) : RpcM Unit := do
  let slot ← bootedSlot l2cpu
  if mayAddDisk slot name then do
    -- opens the image
    let _ ← askOk .trial
    match pickFreeBlkSlot (slot.disks.map DiskWorker.devIdx) slot.blkDtbDevIdx with
    | none => throw .error
    | some devIdx => do
      let _ ← askOk .hasDispatcher
      let _ ← askOk .lockEngine
      -- maps the image
      let _ ← askOk .trial
      tell (.register l2cpu devIdx (.blk path name))
      tell (.updateSlot l2cpu fun slot ↦
        { slot with disks := slot.disks ++ [⟨path, name, devIdx⟩] })
  else throw .error

/-- SSH_BASE_PORT. -/
def sshBasePort : ℕ := 2222

/-- PORTS_PER_CARD. -/
def portsPerCard : ℕ := 4

/-- `ssh_port`. -/
def sshPort (card : ℕ) (l2cpu : L2CpuIdx) : ℕ :=
  (sshBasePort + l2cpu.val + portsPerCard * (card % 2 ^ 16)) % 2 ^ 16

/-- The forwards of a network device: the one for SSH, and those that were asked for. -/
def netForwards (port : ℕ) (extraFwd : Forwards) : Forwards := (port, 22) :: extraFwd

/-- `dispatch_add_net`. -/
def dispatchAddNet (sshPortOverride : Option ℕ) (extraFwd : Forwards) : RpcM Unit := do
  let slot ← bootedSlot l2cpu
  if slot.net then throw .error
  else do
    let forwards := netForwards (sshPortOverride.getD (sshPort platform.card l2cpu)) extraFwd
    -- probes the ports of the host
    forwards.forM fun _ ↦ do
      let _ ← askOk .trial
    let _ ← askOk .hasDispatcher
    -- makes the network device
    let _ ← askOk .trial
    tell (.register l2cpu devNet (.net forwards none))
    tell (.updateSlot l2cpu fun slot ↦ { slot with net := true })

/-- `dispatch_add_console`. -/
def dispatchAddConsole : RpcM Unit := do
  let slot ← bootedSlot l2cpu
  if slot.virtioConsole then throw .error
  else do
    let _ ← askOk .hasDispatcher
    tell (.register l2cpu devConsole .console)
    tell (.updateSlot l2cpu fun slot ↦ { slot with virtioConsole := true })

/-- `attach_rng_inline`. -/
def attachRngInline : RpcM Unit := do
  let _ ← askOk .lockEngine
  let _ ← askOk .hasDispatcher
  let _ ← bootedSlot l2cpu
  tell (.register l2cpu devRng .rng)
  tell (.updateSlot l2cpu fun slot ↦ { slot with virtioRng := true })

/-- A part under a condition. -/
def doIf (condition : Bool) (part : RpcM Unit) : RpcM Unit := if condition then part else pure ()

/-! ### Detaching devices -/

/-- Whether the dispatcher runs. It is an error that its mutex is poisoned. -/
def dispatcherRuns : RpcM Bool := do
  let reply ← ask .hasDispatcher
  if reply.word.isSome then pure reply.ok else throw .error

/-- The disks that `dispatch_remove_disk` takes out of a slot. -/
def L2CpuSlot.takenDisks (slot : L2CpuSlot) : Option Serial → List DiskWorker
  | none => slot.disks
  | some want => slot.disks.filter fun disk ↦ disk.name = some want

/-- The slot without them. Without a name, a slot with more than one disk stays as it is. -/
def L2CpuSlot.withoutDisks (name : Option Serial) (slot : L2CpuSlot) : L2CpuSlot :=
  match name with
  | none => if slot.disks.length > 1 then slot else { slot with disks := [] }
  | some want => { slot with disks := slot.disks.filter fun disk ↦ disk.name ≠ some want }

/-- The checks of `dispatch_remove_disk`. -/
def mayRemoveDisk (slot : L2CpuSlot) (name : Option Serial) : Bool :=
  !slot.disks.isEmpty && !(name.isNone && decide (slot.disks.length > 1)) &&
    !(slot.takenDisks name).isEmpty

/-- `dispatch_remove_disk`. Looking at the slot and taking the disks out is one step; what a request
that fails would put back is what it took out. -/
def dispatchRemoveDisk (name : Option Serial) : RpcM Unit := do
  let reply ← ask (.editSlot l2cpu (L2CpuSlot.withoutDisks name))
  match reply.slot with
  | none => throw .error
  | some slot =>
    if mayRemoveDisk slot name then do
      let running ← dispatcherRuns
      doIf running
        ((slot.takenDisks name).forM fun disk ↦ tell (.unregister l2cpu disk.devIdx))
    else throw .error

/-- `dispatch_remove_net` and `dispatch_remove_console`: the device is unregistered before the slot
is looked at. -/
def detachDevice (devIdx : ℕ) (has : L2CpuSlot → Bool)
    (take : L2CpuSlot → L2CpuSlot) : RpcM Unit := do
  let running ← dispatcherRuns
  doIf running (tell (.unregister l2cpu devIdx))
  let reply ← ask (.editSlot l2cpu take)
  match reply.slot with
  | none => throw .error
  | some slot => if has slot then pure () else throw .error

/-- `dispatch_remove_net`. -/
def dispatchRemoveNet : RpcM Unit :=
  detachDevice l2cpu devNet L2CpuSlot.net fun slot ↦ { slot with net := false }

/-- `dispatch_remove_console`. -/
def dispatchRemoveConsole : RpcM Unit :=
  detachDevice l2cpu devConsole L2CpuSlot.virtioConsole
    fun slot ↦ { slot with virtioConsole := false }

/-- A request to attach or detach a device. -/
inductive DeviceRequest
  | addDisk (path : Path) (name : Option Serial)
  | removeDisk (name : Option Serial)
  | addNet (sshPort : Option ℕ) (extraFwd : Forwards)
  | removeNet
  | addConsole
  | removeConsole
deriving DecidableEq, Repr

/-- What the daemon does for such a request. -/
def DeviceRequest.dispatch : DeviceRequest → RpcM Unit
  | .addDisk path name => dispatchAddDisk l2cpu path name
  | .removeDisk name => dispatchRemoveDisk l2cpu name
  | .addNet sshPort extraFwd => dispatchAddNet platform l2cpu sshPort extraFwd
  | .removeNet => dispatchRemoveNet l2cpu
  | .addConsole => dispatchAddConsole l2cpu
  | .removeConsole => dispatchRemoveConsole l2cpu

/-! ### All devices of a release -/

/-- A slot without the workers of its devices. -/
def L2CpuSlot.detached (slot : L2CpuSlot) : L2CpuSlot :=
  { slot with disks := [], net := false, virtioConsole := false, virtioRng := false }

/-- The indices of the devices that a slot has workers for. -/
def L2CpuSlot.workers (slot : L2CpuSlot) : List ℕ :=
  slot.disks.map DiskWorker.devIdx ++ (if slot.net then [devNet] else []) ++
    (if slot.virtioConsole then [devConsole] else []) ++ if slot.virtioRng then [devRng] else []

/-- Takes the workers out of a slot and unregisters their devices. The result is whether there was a
slot. That the mutex of the dispatcher is poisoned is an error, or is as if it did not run. -/
def detachWorkers (strict : Bool) : RpcM Bool := do
  let reply ← ask (.editSlot l2cpu L2CpuSlot.detached)
  match reply.slot with
  | none => pure false
  | some slot => do
    let dispatcher ← ask .hasDispatcher
    require (!strict || dispatcher.word.isSome)
    doIf dispatcher.ok (slot.workers.forM fun devIdx ↦ tell (.unregister l2cpu devIdx))
    pure true

/-- A part for a value that may be missing. -/
def forSome {α : Type} (value : Option α) (part : α → RpcM Unit) : RpcM Unit :=
  value.elim (pure ()) part

/-- `swap_attached_for_release`. -/
def swapAttachedForRelease (args : DeviceArgs) : RpcM Unit := do
  let booted ← detachWorkers l2cpu true
  if booted then do
    -- the socket pair for the replies
    let _ ← askOk .trial
    forSome args.disk fun path ↦ dispatchAddDisk l2cpu path none
    forSome args.cloudInit fun path ↦ dispatchAddDisk l2cpu path (some cidata)
    doIf args.network (dispatchAddNet platform l2cpu none args.extraFwd)
    doIf args.console (dispatchAddConsole l2cpu)
    doIf args.rng (attachRngInline l2cpu)
  else throw .error

end Bhx.Daemon
