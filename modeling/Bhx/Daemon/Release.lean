import Bhx.Daemon.Attach

/-!
# Releasing a parked guest

A guest that powers off or reboots parks: OpenSBI stores a magic value and the addresses of a few of
its own fields in the memory of the L2CPU and waits. Such a guest is not booted again from reset but
released (`dispatchRelease`): the daemon stores the kernel and the device tree once more, attaches
the devices that the request asks for, clears the magic value, fills in the fields and wakes hart 0.

Three places come here. A boot request finds the guest parked (`readParkedReleaseMeta`), a boot
request with `--force` parks it first (`triggerForceParkIfAvailable`), and the console thread of the
L2CPU, which looks for a park every now and then, releases a guest that asked for a reboot and
detaches the devices of one that has powered off (`parkProbe`).

Scope. Of the console thread only the probe for a park is modelled, not the bytes it moves; the
pause before an automatic reboot is left out. The clock of the wait for a forced park is a number of
polls.
-/

set_option autoImplicit false

namespace Bhx.Daemon

open SharedMemory Chip Machine.L1Layout

variable (platform : Platform) (l2cpu : L2CpuIdx)

/-! ### Finding a parked guest -/

/-- `ParkedReleaseMeta`: the addresses that a parked guest has published. -/
structure ParkedReleaseMeta where
  nextAddrPa : ℕ
  nextModePa : ℕ
  nextArg1Pa : ℕ
  hsmStatePa : ℕ
  msipPa : ℕ
deriving DecidableEq, Repr

/-- The value if there is one and it is not zero. -/
def nonzero : Option ℕ → Option ℕ
  | some (value + 1) => some (value + 1)
  | _ => none

/-- All five addresses, when each has been published. -/
def ParkedReleaseMeta.ofPublished (nextAddr nextMode nextArg1 hsmState msip : Option ℕ) :
    Option ParkedReleaseMeta := do
  pure ⟨← nonzero nextAddr, ← nonzero nextMode, ← nonzero nextArg1, ← nonzero hsmState,
    ← nonzero msip⟩

/-- `read_parked_release_meta`. -/
def readParkedReleaseMeta : RpcM (Option ParkedReleaseMeta) := do
  let reply ← askOk (.peekSlot l2cpu)
  if reply.slot.isNone then pure none
  else do
    let base := startingAddress l2cpu
    let status ← readU64 l2cpu (base + statusOffset)
    if status ≠ some statusParked then pure none
    else do
      let nextAddr ← readU64 l2cpu (base + nextAddrPaOffset)
      let nextMode ← readU64 l2cpu (base + nextModePaOffset)
      let nextArg1 ← readU64 l2cpu (base + nextArg1PaOffset)
      let hsmState ← readU64 l2cpu (base + hsmStatePaOffset)
      let msip ← readU64 l2cpu (base + msipPaOffset)
      pure (ParkedReleaseMeta.ofPublished nextAddr nextMode nextArg1 hsmState msip)

/-- The polls for a forced park. Between two of them the time may run out. -/
def awaitParked (l2cpu : L2CpuIdx) : ℕ → RpcM Unit
  | 0 => throw .error
  | polls + 1 => do
    let status ← readU64 l2cpu (startingAddress l2cpu + statusOffset)
    if status = some statusParked then pure ()
    else do
      let _ ← askOk .trial
      awaitParked l2cpu polls

/-- `trigger_force_park_if_available`. -/
def triggerForceParkIfAvailable : RpcM (Option ParkedReleaseMeta) := do
  let reply ← askOk (.peekSlot l2cpu)
  if reply.slot.isNone then pure none
  else do
    let base := startingAddress l2cpu
    let reqPa ← readU64 l2cpu (base + forceParkReqPaOffset)
    let reqVal ← readU64 l2cpu (base + forceParkReqValueOffset)
    let msipPa ← readU64 l2cpu (base + msipPaOffset)
    match nonzero reqPa, nonzero reqVal, nonzero msipPa with
    | some reqPa, some reqVal, some msipPa => do
      writeU64 l2cpu reqPa reqVal
      write32 l2cpu msipPa 1
      awaitParked l2cpu platform.forceParkPolls
      readParkedReleaseMeta l2cpu
    | _, _, _ => pure none

/-- `take_slot_dtb_bytes`. -/
def takeSlotDtbBytes : RpcM (Option Image) := do
  let reply ← askOk (.peekSlot l2cpu)
  pure (reply.slot.bind L2CpuSlot.dtbBytes)

/-! ### The release -/

/-- The device tree that a release stores, when the slot has one. -/
def reimageDtb (dtbBytes : Option Image) : RpcM Unit :=
  forSome dtbBytes fun bytes ↦
    match platform.addOpensbiReservation l2cpu bytes with
    | none => throw .error
    | some bytes => nocWriteBulk l2cpu .dtb bytes

/-- The end of a release: fills in the fields that the parked guest has published and wakes it. -/
def wakeParked (parked : ParkedReleaseMeta) : RpcM Unit := do
  writeU64 l2cpu (startingAddress l2cpu + statusOffset) 0
  writeU64 l2cpu parked.nextAddrPa (partAddr l2cpu .kernel)
  writeU64 l2cpu parked.nextModePa nextModeS
  writeU64 l2cpu parked.nextArg1Pa (partAddr l2cpu .dtb)
  let hsmNow ← askOk (.read32 l2cpu parked.hsmStatePa)
  if hsmNow.word ≠ some hsmStateStopped then throw .error
  else do
    write32 l2cpu parked.hsmStatePa hsmStateStartPending
    let _ ← askOk (.wake l2cpu parked.msipPa)

/-- `dispatch_release`. -/
def dispatchRelease (payload : BootPayload)
    (parked : ParkedReleaseMeta) (dtbBytes : Option Image) (args : DeviceArgs) : RpcM Unit := do
  let kernel ← readBinFile platform payload.path
  nocWriteBulk l2cpu .kernel kernel
  reimageDtb platform l2cpu dtbBytes
  doIf args.asks (swapAttachedForRelease platform l2cpu args)
  wakeParked l2cpu parked
  tell (.replyOk l2cpu)

/-! ### The console thread -/

/-- An error ends a part but not the thread. -/
def caught (part : RpcM Unit) : RpcM Bool :=
  ExceptT.mk (part.run >>= fun
    | .ok _ => pure (.ok true)
    | .error .error => pure (.ok false)
    | .error failure => pure (.error failure))

/-- `drop_net_for_reboot`: the forwards to attach the network with again, when it was attached by a
boot of this session. -/
def dropNetForReboot : RpcM (Option Forwards) := do
  let reply ← ask (.editSlot l2cpu fun slot ↦
    if slot.bootPayload.isSome then { slot with net := false } else slot)
  match reply.slot with
  | none => pure none
  | some slot =>
    if slot.bootPayload.isSome && slot.net then do
      let dispatcher ← ask .hasDispatcher
      doIf dispatcher.ok (tell (.unregister l2cpu devNet))
      pure (some slot.netExtraFwd)
    else pure none

/-- `auto_release_for_reboot`. -/
def autoReleaseForReboot : RpcM Unit := do
  tell (.note (.began l2cpu .none))
  match ← readParkedReleaseMeta l2cpu with
  | none => throw .error
  | some parked => do
    let slot ← bootedSlot l2cpu
    match slot.bootPayload with
    | none => throw .error
    | some payload => do
      let _ ← askOk .trial
      dispatchRelease platform l2cpu payload parked slot.dtbBytes .none

/-- The reaction to a park that asks for a reboot. -/
def rebootParked : RpcM Unit := do
  let extraFwd ← dropNetForReboot l2cpu
  forSome extraFwd fun extraFwd ↦ do
    let _ ← caught (do
      let _ ← askOk .trial
      dispatchAddNet platform l2cpu none extraFwd)
  let _ ← caught (autoReleaseForReboot platform l2cpu)
  tell (.note (.completed l2cpu))

/-- `drop_workers_on_shutdown_park`. -/
def dropWorkersOnShutdownPark : RpcM Unit := do
  let _ ← detachWorkers l2cpu false

/-- One probe for a park in `uart_pass`, with what the last one found; the result is what this one
found. -/
def parkProbe (lastParked : Bool) : RpcM Bool := do
  let status ← readU64 l2cpu (startingAddress l2cpu + statusOffset)
  let isParked := decide (status = some statusParked)
  if !lastParked && isParked then do
    let word ← read32 l2cpu (startingAddress l2cpu + resetTypeOffset)
    let resetType := word.getD resetTypeShutdown
    if resetType = resetTypeColdReboot ∨ resetType = resetTypeWarmReboot then
      rebootParked platform l2cpu
    else dropWorkersOnShutdownPark l2cpu
    pure isParked
  else pure isParked

end Bhx.Daemon
