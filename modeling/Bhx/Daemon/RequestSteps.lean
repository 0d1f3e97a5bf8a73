import Bhx.Chip.SetFrequency
import Bhx.Daemon.Boot

/-!
# The steps of a request

Which steps the parts of a request can take, whatever the answers are. Some only read and store
words of the memories and look at the slots (`RpcOp.Looks`). Most are silent: they may change slots
and registrations as well, but store no images, wake nobody and reply to nobody (`RpcOp.Silent`).
Loading an image is silent apart from the words of the image, which go to the L2CPU of the request
(`RpcOp.Loads`). A release also wakes that L2CPU and replies (`RpcOp.Works`). The notes that say how
far a thread is come in none of these.

Stopping a guest is calm (`DaemonOp.Calm`): it is silent, and what it stores to the chip are
dividers.
-/

set_option autoImplicit false

namespace Bhx.Daemon

open SharedMemory Chip Machine.L1Layout

variable {op : RpcOp} {l2cpu : L2CpuIdx}

/-! ### Kinds of steps -/

/-- Reads or stores a word of a memory, looks at a slot or for the dispatcher, or tries
something. -/
def RpcOp.Looks : RpcOp → Prop
  | .read32 _ _ | .write32 _ _ _ | .peekSlot _ | .lockEngine | .hasDispatcher | .dupFd
  | .trial => True
  | _ => False

/-- Looks, or changes the slot, the registrations or the console threads of the L2CPU. -/
def RpcOp.Own (l2cpu : L2CpuIdx) : RpcOp → Prop
  | .takeSlot target | .putSlot target _ | .editSlot target _ | .updateSlot target _
  | .register target _ _ | .unregister target _ | .registerUart target | .unregisterUart target
  | .spawnConsole target | .joinConsole target => target = l2cpu
  | op => op.Looks

/-- Looks, or stores a word of an image for the L2CPU. -/
def RpcOp.Stores (l2cpu : L2CpuIdx) : RpcOp → Prop
  | .image target _ _ _ => target = l2cpu
  | op => op.Looks

/-- Stores no image, wakes nobody, replies to nobody and notes nothing. -/
def RpcOp.Silent : RpcOp → Prop
  | .image _ _ _ _ | .wake _ _ | .replyOk _ | .note _ => False
  | _ => True

/-- Silent, or a word of an image for the L2CPU. -/
def RpcOp.Loads (l2cpu : L2CpuIdx) : RpcOp → Prop
  | .image target _ _ _ => target = l2cpu
  | .wake _ _ | .replyOk _ | .note _ => False
  | _ => True

/-- Notes nothing, and has images, wakes and replies for the L2CPU only. -/
def RpcOp.Works (l2cpu : L2CpuIdx) : RpcOp → Prop
  | .image target _ _ _ | .wake target _ | .replyOk target => target = l2cpu
  | .note _ => False
  | _ => True

/-- Registers or unregisters devices of an L2CPU, changes its slot in one way, or only looks. -/
def RpcOp.Edits (l2cpu : L2CpuIdx) (edit : L2CpuSlot → L2CpuSlot) : RpcOp → Prop
  | .editSlot target edit' | .updateSlot target edit' => target = l2cpu ∧ edit' = edit
  | .register target _ _ | .unregister target _ => target = l2cpu
  | op => op.Looks

theorem RpcOp.Looks.own (h : op.Looks) (l2cpu : L2CpuIdx) : op.Own l2cpu := by
  cases op with
  | read32 | write32 | peekSlot | lockEngine | hasDispatcher | dupFd | trial => trivial
  | _ => exact absurd h not_false

theorem RpcOp.Looks.stores (h : op.Looks) (l2cpu : L2CpuIdx) : op.Stores l2cpu := by
  cases op with
  | read32 | write32 | peekSlot | lockEngine | hasDispatcher | dupFd | trial => trivial
  | _ => exact absurd h not_false

theorem RpcOp.Own.silent (h : op.Own l2cpu) : op.Silent := by
  cases op with
  | image | wake | replyOk | note => exact absurd h not_false
  | _ => trivial

theorem RpcOp.Looks.silent (h : op.Looks) : op.Silent := (h.own 0).silent

theorem RpcOp.Stores.loads (h : op.Stores l2cpu) : op.Loads l2cpu := by
  cases op with
  | image => exact h
  | wake | replyOk | note => exact absurd h not_false
  | _ => trivial

theorem RpcOp.Silent.loads (h : op.Silent) (l2cpu : L2CpuIdx) : op.Loads l2cpu := by
  cases op with
  | image | wake | replyOk | note => exact absurd h not_false
  | _ => trivial

theorem RpcOp.Loads.works (h : op.Loads l2cpu) : op.Works l2cpu := by
  cases op with
  | image => exact h
  | wake | replyOk | note => exact absurd h not_false
  | _ => trivial

end Bhx.Daemon

namespace Bhx.SharedMemory

variable {l2cpu : Chip.L2CpuIdx}

section Looks

variable {α : Type} {part : Daemon.RpcM α} (h : part.Only Daemon.RpcOp.Looks)
include h

theorem Fallible.Only.silent : part.Only Daemon.RpcOp.Silent := h.allow fun _ hop ↦ hop.silent

theorem Fallible.Only.own : part.Only (Daemon.RpcOp.Own l2cpu) :=
  h.allow fun _ hop ↦ hop.own l2cpu

theorem Fallible.Only.stores : part.Only (Daemon.RpcOp.Stores l2cpu) :=
  h.allow fun _ hop ↦ hop.stores l2cpu

end Looks

theorem Fallible.Only.ownSilent {α : Type} {part : Daemon.RpcM α}
    (h : part.Only (Daemon.RpcOp.Own l2cpu)) : part.Only Daemon.RpcOp.Silent :=
  h.allow fun _ hop ↦ hop.silent

end Bhx.SharedMemory

namespace Bhx.Daemon

open SharedMemory Chip Machine.L1Layout

variable {part : RpcM Unit} {condition : Bool}

section Combinators

variable {α : Type} {allowed : RpcOp → Prop} {op : RpcOp}

theorem only_ask (h : allowed op := by first | exact trivial | exact rfl) :
    (ask op).Only allowed := only_step h

theorem only_tell (h : allowed op := by first | exact trivial | exact rfl) :
    (tell op).Only allowed :=
  (only_ask h).bind fun _ ↦ trivial

theorem only_askOk (h : allowed op := by first | exact trivial | exact rfl) :
    (askOk op).Only allowed := by
  refine (only_ask h).bind fun reply ↦ ?_
  split_ifs
  · exact only_pure _
  · exact only_throw

theorem only_require : (require condition).Only allowed := by
  unfold require
  split_ifs
  · exact only_pure ()
  · exact only_throw

theorem only_doIf (h : part.Only allowed) : (doIf condition part).Only allowed := by
  unfold doIf
  split_ifs
  · exact h
  · exact only_pure ()

theorem only_forSome {value : Option α} {part : α → RpcM Unit} (h : ∀ a, (part a).Only allowed) :
    (forSome value part).Only allowed := by
  cases value with
  | none => exact only_pure ()
  | some a => exact h a

theorem only_caught (h : part.Only allowed) : (caught part).Only allowed := by
  refine Program.Always.bind h fun result _ ↦ ?_
  cases result with
  | ok _ => trivial
  | error failure => cases failure <;> trivial

end Combinators

/-! ### Parts that look and store words -/

section Looks

variable (l2cpu : L2CpuIdx) (addr value : ℕ) (platform : Platform) (condition : Bool)

theorem looks_read32 : (read32 l2cpu addr).Only RpcOp.Looks :=
  (only_ask).map

theorem looks_write32 {word : UInt32} : (write32 l2cpu addr word).Only RpcOp.Looks :=
  (only_askOk).map

theorem looks_writeU64 : (writeU64 l2cpu addr value).Only RpcOp.Looks :=
  (looks_write32 _ _).bind fun _ ↦ looks_write32 _ _

theorem looks_readU64 : (readU64 l2cpu addr).Only RpcOp.Looks := by
  refine (looks_read32 _ _).bind fun lo ↦ ?_
  cases lo with
  | none => exact only_pure none
  | some lo =>
    refine (looks_read32 _ _).bind fun hi ↦ ?_
    cases hi with
    | none => exact only_pure none
    | some hi => exact only_pure _

theorem looks_readBinFile (path : Path) : (readBinFile platform path).Only RpcOp.Looks := by
  refine (only_askOk trivial).bind fun _ ↦ ?_
  cases platform.files path with
  | none => exact only_throw
  | some image => exact only_pure _

theorem looks_readParkedReleaseMeta : (readParkedReleaseMeta l2cpu).Only RpcOp.Looks := by
  refine (only_askOk).bind fun reply ↦ ?_
  split_ifs
  · exact only_pure none
  · refine (looks_readU64 _ _).bind fun status ↦ ?_
    split_ifs
    · exact only_pure none
    · exact (looks_readU64 _ _).bind fun _ ↦ (looks_readU64 _ _).bind fun _ ↦
        (looks_readU64 _ _).bind fun _ ↦ (looks_readU64 _ _).bind fun _ ↦ (looks_readU64 _ _).map

theorem looks_awaitParked (polls : ℕ) : (awaitParked l2cpu polls).Only RpcOp.Looks := by
  induction polls with
  | zero => exact only_throw
  | succ polls ih =>
    refine (looks_readU64 _ _).bind fun status ↦ ?_
    split_ifs
    · exact only_pure ()
    · exact (only_askOk trivial).bind fun _ ↦ ih

theorem looks_triggerForceParkIfAvailable :
    (triggerForceParkIfAvailable platform l2cpu).Only RpcOp.Looks := by
  refine (only_askOk trivial).bind fun reply ↦ ?_
  split_ifs
  · exact only_pure none
  · refine (looks_readU64 _ _).bind fun reqPa ↦ (looks_readU64 _ _).bind fun reqVal ↦
      (looks_readU64 _ _).bind fun msipPa ↦ ?_
    split
    · exact (looks_writeU64 _ _ _).bind fun _ ↦ (looks_write32 _ _).bind fun _ ↦
        (looks_awaitParked _ _).bind fun _ ↦ looks_readParkedReleaseMeta _
    · exact only_pure none

theorem looks_takeSlotDtbBytes : (takeSlotDtbBytes l2cpu).Only RpcOp.Looks :=
  (only_askOk).map

theorem looks_bootedSlot : (bootedSlot l2cpu).Only RpcOp.Looks := by
  refine (only_ask trivial).bind fun reply ↦ ?_
  cases reply.slot with
  | none => exact only_throw
  | some slot => exact only_pure slot

theorem looks_anyBooted (l2cpus : List L2CpuIdx) : (anyBooted l2cpus).Only RpcOp.Looks := by
  induction l2cpus with
  | nil => exact only_pure false
  | cons l2cpu l2cpus ih =>
    refine (only_ask trivial).bind fun reply ↦ ?_
    split_ifs
    · exact only_pure true
    · exact ih

theorem looks_scanSibling (siblings : Siblings) (other : L2CpuIdx) :
    (scanSibling siblings other).Only RpcOp.Looks := by
  refine (only_askOk).bind fun reply ↦ ?_
  split_ifs
  · exact only_pure siblings
  · exact (looks_read32 _ _).bind fun _ ↦ (looks_read32 _ _).map

theorem looks_configurePrefetchers : (configurePrefetchers l2cpu).Only RpcOp.Looks :=
  only_forM _ fun _ ↦ (looks_write32 _ _).bind fun _ ↦ looks_write32 _ _

theorem looks_findParked {args : BootArgs} : (findParked platform args).Only RpcOp.Looks := by
  refine (looks_readParkedReleaseMeta _).bind fun parked ↦ ?_
  cases parked with
  | some parked => exact only_pure _
  | none =>
    split_ifs
    · exact looks_triggerForceParkIfAvailable _ _
    · exact only_pure none

theorem looks_tryIf : (tryIf condition).Only RpcOp.Looks := by
  unfold tryIf
  split_ifs
  · exact (only_ask).map
  · exact only_pure false

end Looks

/-! ### Handlers made of parts -/

/-- A property that parts have whose steps are all allowed, and that whatever is made of such parts
has, too. -/
structure Composes (allowed : RpcOp → Prop) (Has : (α : Type) → RpcM α → Prop) : Prop where
  only : ∀ {α : Type} {part : RpcM α}, part.Only allowed → Has α part
  bind : ∀ {α β : Type} {part : RpcM α} {rest : α → RpcM β}, Has α part →
    (∀ value, Has β (rest value)) → Has β (part >>= rest)
  caught : ∀ {part : RpcM Unit}, Has Unit part → Has Bool (caught part)

theorem composes_only {allowed : RpcOp → Prop} : Composes allowed fun _ part ↦ part.Only allowed :=
  ⟨id, fun h hrest ↦ h.bind hrest, only_caught⟩

section Composes

variable {allowed : RpcOp → Prop} {Has : (α : Type) → RpcM α → Prop} {platform : Platform}
  {l2cpu : L2CpuIdx} (h : Composes allowed Has)
include h

theorem Composes.doIf (hpart : condition = true → Has Unit part) :
    Has Unit (Daemon.doIf condition part) := by
  unfold Daemon.doIf
  split_ifs with hcondition
  · exact hpart hcondition
  · exact h.only (only_pure ())

theorem Composes.forSome {α : Type} {value : Option α} {part : α → RpcM Unit}
    (hpart : ∀ a, Has Unit (part a)) : Has Unit (Daemon.forSome value part) := by
  cases value with
  | none => exact h.only (only_pure ())
  | some a => exact hpart a

theorem Composes.swapAttachedForRelease {args : DeviceArgs} (htrial : allowed .trial)
    (hdetach : Has Bool (detachWorkers l2cpu true))
    (hdisk : ∀ path name, Has Unit (dispatchAddDisk l2cpu path name))
    (hnet : args.network = true → Has Unit (dispatchAddNet platform l2cpu none args.extraFwd))
    (hconsole : Has Unit (dispatchAddConsole l2cpu)) (hrng : Has Unit (attachRngInline l2cpu)) :
    Has Unit (Daemon.swapAttachedForRelease platform l2cpu args) := by
  refine h.bind hdetach fun booted ↦ ?_
  split_ifs
  · refine h.bind (h.only (only_askOk htrial)) fun _ ↦ ?_
    refine h.bind (h.forSome fun path ↦ hdisk path none) fun _ ↦ ?_
    refine h.bind (h.forSome fun path ↦ hdisk path _) fun _ ↦ ?_
    refine h.bind (h.doIf hnet) fun _ ↦ h.bind (h.doIf fun _ ↦ hconsole) fun _ ↦ ?_
    exact h.doIf fun _ ↦ hrng
  · exact h.only only_throw

theorem Composes.autoReleaseForReboot (hlooks : ∀ op : RpcOp, op.Looks → allowed op)
    (hnote : Has Unit (tell (.note (.began l2cpu .none))))
    (hrelease : ∀ payload parked dtbBytes,
      Has Unit (dispatchRelease platform l2cpu payload parked dtbBytes .none)) :
    Has Unit (Daemon.autoReleaseForReboot platform l2cpu) := by
  refine h.bind hnote fun _ ↦ ?_
  refine h.bind (h.only ((looks_readParkedReleaseMeta _).allow hlooks)) fun parked ↦ ?_
  cases parked with
  | none => exact h.only only_throw
  | some parked =>
    refine h.bind (h.only ((looks_bootedSlot _).allow hlooks)) fun slot ↦ ?_
    cases slot.bootPayload with
    | none => exact h.only only_throw
    | some payload =>
      exact h.bind (h.only (only_askOk (hlooks .trial trivial))) fun _ ↦
        hrelease payload parked slot.dtbBytes

theorem Composes.rebootParked (htrial : allowed .trial) (hdrop : Has _ (dropNetForReboot l2cpu))
    (hadd : ∀ extraFwd, Has Unit (dispatchAddNet platform l2cpu none extraFwd))
    (hrelease : Has Unit (Daemon.autoReleaseForReboot platform l2cpu))
    (hnote : Has Unit (tell (.note (.completed l2cpu)))) :
    Has Unit (Daemon.rebootParked platform l2cpu) := by
  refine h.bind hdrop fun extraFwd ↦ h.bind (h.forSome fun extraFwd ↦ ?_) fun _ ↦ ?_
  · refine h.bind (h.caught ?_) fun _ ↦ h.only (only_pure _)
    exact h.bind (h.only (only_askOk htrial)) fun _ ↦ hadd extraFwd
  · exact h.bind (h.caught hrelease) fun _ ↦ hnote

theorem Composes.parkProbe (hlooks : ∀ op : RpcOp, op.Looks → allowed op)
    (hreboot : Has Unit (Daemon.rebootParked platform l2cpu))
    (hdetach : Has Bool (detachWorkers l2cpu false)) (lastParked : Bool) :
    Has Bool (Daemon.parkProbe platform l2cpu lastParked) := by
  have hpure (found : Bool) : Has Bool (pure found) := h.only (only_pure found)
  refine h.bind (h.only ((looks_readU64 _ _).allow hlooks)) fun status ↦ ?_
  change Has Bool (if _ then _ else _)
  split_ifs
  · refine h.bind (h.only ((looks_read32 _ _).allow hlooks)) fun word ↦ ?_
    change Has Bool (if _ then _ else _)
    split_ifs
    · exact h.bind hreboot fun _ ↦ hpure _
    · exact h.bind (h.bind hdetach fun _ ↦ h.only (only_pure ())) fun _ ↦ hpure _
  · exact hpure _

end Composes

/-! ### Attaching and detaching devices -/

/-- Allows what attaching and detaching devices takes besides changing the slot. -/
structure Attaches (l2cpu : L2CpuIdx) (allowed : RpcOp → Prop) : Prop where
  peek : allowed (.peekSlot l2cpu)
  engine : allowed .lockEngine
  dispatcher : allowed .hasDispatcher
  trial : allowed .trial
  register (devIdx : ℕ) (device : Device) : allowed (.register l2cpu devIdx device)
  unregister (devIdx : ℕ) : allowed (.unregister l2cpu devIdx)

section Attaches

variable {allowed : RpcOp → Prop} {edit : L2CpuSlot → L2CpuSlot} {name : Option Serial}
  {l2cpu : L2CpuIdx} (h : Attaches l2cpu allowed)
include h

theorem Attaches.does_bootedSlot : (bootedSlot l2cpu).Only allowed := by
  refine (only_ask h.peek).bind fun reply ↦ ?_
  cases reply.slot with
  | none => exact only_throw
  | some slot => exact only_pure slot

theorem Attaches.does_attach {devIdx : ℕ} {device : Device}
    (hedit : allowed (.updateSlot l2cpu edit)) :
    (do tell (.register l2cpu devIdx device); tell (.updateSlot l2cpu edit) : RpcM Unit).Only
      allowed :=
  (only_tell (h.register _ _)).bind fun _ ↦ only_tell hedit

theorem Attaches.does_dispatchAddDisk {path : Path}
    (hedit : ∀ edit, allowed (.updateSlot l2cpu edit)) :
    (dispatchAddDisk l2cpu path name).Only allowed := by
  refine h.does_bootedSlot.bind fun slot ↦ ?_
  split_ifs
  · refine (only_askOk h.trial).bind fun _ ↦ ?_
    split
    · exact only_throw
    · exact (only_askOk h.dispatcher).bind fun _ ↦ (only_askOk h.engine).bind fun _ ↦
        (only_askOk h.trial).bind fun _ ↦ h.does_attach (hedit _)
  · exact only_throw

theorem Attaches.does_dispatchAddNet {platform : Platform} {sshPortOverride : Option ℕ}
    {extraFwd : Forwards}
    (hedit : allowed (.updateSlot l2cpu fun slot ↦ { slot with net := true })) :
    (dispatchAddNet platform l2cpu sshPortOverride extraFwd).Only allowed := by
  refine h.does_bootedSlot.bind fun slot ↦ ?_
  split_ifs
  · exact only_throw
  · refine (only_forM _ fun _ ↦ (only_askOk h.trial).map).bind fun _ ↦ ?_
    exact (only_askOk h.dispatcher).bind fun _ ↦ (only_askOk h.trial).bind fun _ ↦
      h.does_attach hedit

theorem Attaches.does_dispatchAddConsole
    (hedit : allowed (.updateSlot l2cpu fun slot ↦ { slot with virtioConsole := true })) :
    (dispatchAddConsole l2cpu).Only allowed := by
  refine h.does_bootedSlot.bind fun slot ↦ ?_
  split_ifs
  · exact only_throw
  · exact (only_askOk h.dispatcher).bind fun _ ↦ h.does_attach hedit

theorem Attaches.does_attachRngInline
    (hedit : allowed (.updateSlot l2cpu fun slot ↦ { slot with virtioRng := true })) :
    (attachRngInline l2cpu).Only allowed :=
  (only_askOk h.engine).bind fun _ ↦ (only_askOk h.dispatcher).bind fun _ ↦
    h.does_bootedSlot.bind fun _ ↦ h.does_attach hedit

theorem Attaches.does_dispatcherRuns : dispatcherRuns.Only allowed := by
  refine (only_ask h.dispatcher).bind fun reply ↦ ?_
  split_ifs
  · exact only_pure _
  · exact only_throw

theorem Attaches.does_detachWorkers {strict : Bool}
    (hedit : allowed (.editSlot l2cpu L2CpuSlot.detached)) :
    (detachWorkers l2cpu strict).Only allowed := by
  refine (only_ask hedit).bind fun reply ↦ ?_
  cases reply.slot with
  | none => exact only_pure false
  | some slot =>
    refine (only_ask h.dispatcher).bind fun dispatcher ↦ only_require.bind fun _ ↦ ?_
    exact (only_doIf (only_forM _ fun _ ↦ only_tell (h.unregister _))).bind fun _ ↦ only_pure true

theorem Attaches.does_detachDevice {devIdx : ℕ} {has : L2CpuSlot → Bool}
    (hedit : allowed (.editSlot l2cpu edit)) :
    (detachDevice l2cpu devIdx has edit).Only allowed := by
  refine h.does_dispatcherRuns.bind fun running ↦ ?_
  refine (only_doIf (only_tell (h.unregister _))).bind fun _ ↦ (only_ask hedit).bind fun reply ↦ ?_
  cases reply.slot with
  | none => exact only_throw
  | some slot =>
    change Fallible.Only _ (if _ then _ else _)
    split_ifs
    · exact only_pure ()
    · exact only_throw

theorem Attaches.does_dispatchRemoveDisk
    (hedit : allowed (.editSlot l2cpu (L2CpuSlot.withoutDisks name))) :
    (dispatchRemoveDisk l2cpu name).Only allowed := by
  refine (only_ask hedit).bind fun reply ↦ ?_
  cases reply.slot with
  | none => exact only_throw
  | some slot =>
    change Fallible.Only _ (if _ then _ else _)
    split_ifs
    · exact h.does_dispatcherRuns.bind fun _ ↦
        only_doIf (only_forM _ fun _ ↦ only_tell (h.unregister _))
    · exact only_throw

theorem Attaches.does_dropNetForReboot (hedit : ∀ edit, allowed (.editSlot l2cpu edit)) :
    (dropNetForReboot l2cpu).Only allowed := by
  refine (only_ask (hedit _)).bind fun reply ↦ ?_
  cases reply.slot with
  | none => exact only_pure none
  | some slot =>
    change Fallible.Only _ (if _ then _ else _)
    split_ifs
    · exact (only_ask h.dispatcher).bind fun _ ↦ (only_doIf (only_tell (h.unregister _))).map
    · exact only_pure none

end Attaches

theorem attaches_edits {l2cpu : L2CpuIdx} {edit : L2CpuSlot → L2CpuSlot} :
    Attaches l2cpu (RpcOp.Edits l2cpu edit) :=
  ⟨trivial, trivial, trivial, trivial, fun _ _ ↦ rfl, fun _ ↦ rfl⟩

theorem attaches_own {l2cpu : L2CpuIdx} : Attaches l2cpu (RpcOp.Own l2cpu) :=
  ⟨trivial, trivial, trivial, trivial, fun _ _ ↦ rfl, fun _ ↦ rfl⟩

/-! ### Parts that work on one L2CPU -/

section Own

variable (l2cpu : L2CpuIdx) (platform : Platform) (name : Option Serial)
  (sshPortOverride : Option ℕ) (extraFwd : Forwards) (devIdx : ℕ)

theorem own_dispatchAddNet :
    (dispatchAddNet platform l2cpu sshPortOverride extraFwd).Only (RpcOp.Own l2cpu) :=
  attaches_own.does_dispatchAddNet rfl

theorem own_detachWorkers {strict : Bool} :
    (detachWorkers l2cpu strict).Only (RpcOp.Own l2cpu) :=
  attaches_own.does_detachWorkers rfl

theorem own_deviceRequest {request : DeviceRequest} :
    (request.dispatch platform l2cpu).Only (RpcOp.Own l2cpu) := by
  cases request with
  | addDisk path name => exact attaches_own.does_dispatchAddDisk fun _ ↦ rfl
  | removeDisk name => exact attaches_own.does_dispatchRemoveDisk rfl
  | addNet sshPort extraFwd => exact own_dispatchAddNet _ _ _ _
  | removeNet => exact attaches_own.does_detachDevice rfl
  | addConsole => exact attaches_own.does_dispatchAddConsole rfl
  | removeConsole => exact attaches_own.does_detachDevice rfl

theorem own_swapAttachedForRelease {args : DeviceArgs} :
    (swapAttachedForRelease platform l2cpu args).Only (RpcOp.Own l2cpu) :=
  composes_only.swapAttachedForRelease trivial (own_detachWorkers _)
    (fun _ _ ↦ attaches_own.does_dispatchAddDisk fun _ ↦ rfl) (fun _ ↦ own_dispatchAddNet _ _ _ _)
    (attaches_own.does_dispatchAddConsole rfl) (attaches_own.does_attachRngInline rfl)

theorem own_dropNetForReboot : (dropNetForReboot l2cpu).Only (RpcOp.Own l2cpu) :=
  attaches_own.does_dropNetForReboot fun _ ↦ rfl

theorem own_unregisterEngineSlots : (unregisterEngineSlots l2cpu).Only (RpcOp.Own l2cpu) :=
  (only_ask trivial).bind fun _ ↦ only_doIf
    ((only_forM _ fun _ ↦ only_tell).bind fun _ ↦ only_tell)

theorem own_tearDown : (tearDown l2cpu).Only (RpcOp.Own l2cpu) :=
  (own_unregisterEngineSlots _).bind fun _ ↦ only_tell rfl

theorem own_handleExistingSlot {force : Bool} :
    (handleExistingSlot l2cpu force).Only (RpcOp.Own l2cpu) := by
  refine (only_askOk (by split_ifs <;> trivial)).bind fun reply ↦ ?_
  cases decideBootSlot reply.slot.isSome force with
  | reject => exact only_throw
  | proceed => exact only_pure ()
  | tearDownAndProceed => exact own_tearDown _

theorem own_attachDisk {slot : L2CpuSlot} {path : Path} :
    (attachDisk l2cpu name devIdx slot path).Only (RpcOp.Own l2cpu) := by
  refine (only_ask).bind fun opened ↦ ?_
  split_ifs
  · refine (only_ask).bind fun mapped ↦ ?_
    split_ifs
    · exact (only_tell).map
    · exact only_pure slot
  · exact only_pure slot

theorem own_registerDevices {args : BootArgs} {slot : L2CpuSlot} :
    (registerDevices platform args slot).Only (RpcOp.Own args.l2cpu) := by
  have hattach (name : Option Serial) (devIdx : ℕ) (path : Option Path) (slot : L2CpuSlot) :
      Fallible.Only (RpcOp.Own args.l2cpu)
        (path.elim (pure slot) (attachDisk args.l2cpu name devIdx slot)) := by
    cases path with
    | none => exact only_pure slot
    | some path => exact own_attachDisk _ _ _
  refine (only_askOk).bind fun _ ↦ attaches_own.does_dispatcherRuns.bind fun running ↦ ?_
  split_ifs
  · refine (only_doIf only_tell).bind fun _ ↦ ?_
    refine (hattach _ _ _ _).bind fun slot ↦ (hattach _ _ _ _).bind fun slot ↦ ?_
    refine (looks_tryIf _).own.bind fun netUp ↦ ?_
    refine (only_doIf only_tell).bind fun _ ↦ ?_
    refine (only_doIf only_tell).bind fun _ ↦ ?_
    exact (only_tell).map
  · exact only_pure slot

end Own

/-! ### Parts that store images -/

section Loads

variable (platform : Platform) (l2cpu : L2CpuIdx)
variable (args : BootArgs)

theorem stores_nocWriteBulk {part : ImagePart} {image : Image} :
    (nocWriteBulk l2cpu part image).Only (RpcOp.Stores l2cpu) := by
  refine only_forM _ fun word ↦ Fallible.Only.map (only_askOk ?_)
  exact rfl

theorem stores_loadPart {part : ImagePart} {path : Path} :
    (loadPart platform l2cpu part path).Only (RpcOp.Stores l2cpu) :=
  (looks_readBinFile _ _).stores.bind fun _ ↦ stores_nocWriteBulk _

theorem stores_reimageDtb {dtbBytes : Option Image} :
    (reimageDtb platform l2cpu dtbBytes).Only (RpcOp.Stores l2cpu) := by
  refine only_forSome fun bytes ↦ ?_
  cases platform.addOpensbiReservation l2cpu bytes with
  | none => exact only_throw
  | some bytes => exact stores_nocWriteBulk _

theorem stores_bootL2cpu (dtb : Image) :
    (bootL2cpu platform args dtb).Only (RpcOp.Stores args.l2cpu) := by
  refine (looks_write32 _ _).stores.bind fun _ ↦ (only_askOk trivial).bind fun _ ↦ ?_
  refine (stores_loadPart _ _).bind fun _ ↦ (stores_loadPart _ _).bind fun _ ↦ ?_
  refine (stores_nocWriteBulk _).bind fun _ ↦ ?_
  refine (only_forSome fun _ ↦ stores_loadPart _ _).bind fun _ ↦ ?_
  exact only_forM _ fun _ ↦ (looks_writeU64 _ _ _).stores

theorem only_runBootSequence {allowed : RpcOp → Prop}
    (hstores : ∀ op : RpcOp, op.Stores args.l2cpu → allowed op) (hbringUp : allowed .bringUp) :
    (runBootSequence platform args).Only allowed := by
  have hfile (path : Path) : (readBinFile platform path).Only allowed :=
    (looks_readBinFile _ _).stores.allow hstores
  refine (only_askOk (hstores .dupFd trivial)).bind fun _ ↦ (hfile _).bind fun dtbRaw ↦ ?_
  refine (only_doIf (only_forSome fun path ↦ (hfile path).map)).bind fun _ ↦ ?_
  refine (only_doIf ((only_askOk hbringUp).bind fun _ ↦
    (only_askOk (hstores .trial trivial)).map)).bind fun _ ↦ ?_
  cases platform.modifyDtb args dtbRaw with
  | none => exact only_throw
  | some dtb =>
    exact ((stores_bootL2cpu platform args dtb).allow hstores).map

theorem loads_runBootSequence : (runBootSequence platform args).Only (RpcOp.Loads args.l2cpu) :=
  only_runBootSequence platform args (fun _ hop ↦ hop.loads) trivial

theorem works_wakeParked {parked : ParkedReleaseMeta} :
    (wakeParked l2cpu parked).Only (RpcOp.Works l2cpu) := by
  have hsilent {α : Type} {part : RpcM α} (h : part.Only RpcOp.Silent) :
      part.Only (RpcOp.Works l2cpu) := h.allow fun _ h ↦ (h.loads l2cpu).works
  have hstore (addr value : ℕ) := hsilent (looks_writeU64 l2cpu addr value).silent
  refine (hstore _ _).bind fun _ ↦ (hstore _ _).bind fun _ ↦ (hstore _ _).bind fun _ ↦
    (hstore _ _).bind fun _ ↦ (only_askOk).bind fun hsmNow ↦ ?_
  split_ifs
  · exact only_throw
  · refine (hsilent (looks_write32 _ _).silent).bind fun _ ↦ ?_
    refine Fallible.Only.map (only_askOk ?_)
    exact rfl

theorem works_dispatchRelease {payload : BootPayload} {parked : ParkedReleaseMeta}
    {dtbBytes : Option Image} {args : DeviceArgs} :
    (dispatchRelease platform l2cpu payload parked dtbBytes args).Only (RpcOp.Works l2cpu) := by
  refine ((looks_readBinFile _ _).silent.allow fun _ h ↦ (h.loads l2cpu).works).bind fun kernel ↦ ?_
  refine ((stores_nocWriteBulk _).allow fun _ h ↦ h.loads.works).bind fun _ ↦ ?_
  refine ((stores_reimageDtb _ _).allow fun _ h ↦ h.loads.works).bind fun _ ↦ ?_
  refine (only_doIf ((own_swapAttachedForRelease _ _).allow
    fun _ h ↦ (h.silent.loads l2cpu).works)).bind fun _ ↦ ?_
  exact (works_wakeParked _).bind fun _ ↦ only_tell rfl

end Loads

/-! ### Calm parts -/

/-- Neither a release bit nor the flag, nor an image, a wake, a reply or a note. -/
def DaemonOp.Calm {ι : Type} : DaemonOp ι → Prop
  | .rpc op => op.Silent
  | .chip (.arcWrite32 addr _) => addr ≠ l2cpuResetAddr
  | .chip _ => True
  | .resetBoard | .readFlag | .setFlag => False

section Calm

variable {ι α : Type} {platform : Platform} {thread : ι}
variable {allowed : DaemonOp ι → Prop}

theorem calm_rpc {part : RpcM α} (h : part.Only RpcOp.Silent) :
    (rpc part : DaemonM ι α).Only DaemonOp.Calm :=
  Program.Always.embed h fun _ h ↦ h

theorem calm_divider {op : ChipOp ι} (h : DividerAccess op) : (DaemonOp.chip op).Calm := by
  cases op with
  | arcWrite32 addr value =>
    rcases h with rfl | rfl
    · exact (by decide : pll4Base + pllCntl5 ≠ l2cpuResetAddr)
    · exact (by decide : pll4Base + pllCntl1 ≠ l2cpuResetAddr)
  | _ => trivial

theorem calm_idlePll : (chipCall platform thread .idlePll).Only DaemonOp.Calm := by
  have hattempt :
      (ChipCall.idlePll.attempt thread).Performs (fun op ↦ (DaemonOp.chip op).Calm) := by
    refine ⟨trivial, fun answer ↦ ?_⟩
    change Program.Always _ _ (if _ then _ else if _ then _ else _)
    split_ifs
    · trivial
    · trivial
    · refine Program.Always.bind ((setFrequency_only ι .mhz200).allow fun _ ↦ calm_divider)
        fun result _ ↦ ⟨?_, fun _ ↦ trivial⟩
      split_ifs
      · trivial
      · trivial
  have hrun (patience : ℕ) :
      (ChipCall.idlePll.run thread patience).Performs (fun op ↦ (DaemonOp.chip op).Calm) := by
    induction patience with
    | zero => trivial
    | succ patience ih =>
      refine hattempt.bind fun result _ ↦ ?_
      cases result with
      | some result => trivial
      | none => exact ih
  exact (hrun platform.patience).within fun _ h ↦ h

theorem only_anyRunning (hread : ∀ addr, allowed (.chip (.arcRead32 addr)))
    (l2cpus : List L2CpuIdx) : (anyRunning l2cpus : DaemonM ι Bool).Only allowed := by
  induction l2cpus with
  | nil => exact only_pure false
  | cons l2cpu l2cpus ih =>
    refine Fallible.Only.bind ?_ fun running ↦ ?_
    · refine ⟨hread _, fun ⟨word, _, _⟩ ↦ ?_⟩
      cases word with
      | none => exact True.intro
      | some word => exact True.intro
    · cases running with
      | error failure => exact only_pure true
      | ok running =>
        cases running with
        | true => exact only_pure true
        | false => exact ih

theorem only_maybeIdlePll (hlooks : ∀ op : RpcOp, op.Looks → allowed (.rpc op))
    (hread : ∀ addr, allowed (.chip (.arcRead32 addr)))
    (hidle : (chipCall platform thread .idlePll).Only allowed) :
    (maybeIdlePll platform thread).Only allowed := by
  refine Fallible.Only.bind (Program.Always.embed (looks_anyBooted _) hlooks) fun booted ↦ ?_
  split_ifs
  · exact only_pure ()
  · refine (only_anyRunning hread _).bind fun running ↦ ?_
    split_ifs
    · exact only_pure ()
    · exact hidle

theorem calm_internalStop (l2cpu : L2CpuIdx) :
    (internalStop platform thread l2cpu).Only DaemonOp.Calm := by
  have hidle : (maybeIdlePll platform thread).Only DaemonOp.Calm :=
    only_maybeIdlePll (fun _ hop ↦ hop.silent) (fun _ ↦ trivial) calm_idlePll
  have htake : (rpc (ask (.takeSlot l2cpu)) : DaemonM ι Reply).Only DaemonOp.Calm :=
    calm_rpc (only_ask trivial)
  refine htake.bind fun reply ↦ ?_
  split_ifs
  · exact only_pure false
  · refine (calm_rpc (own_tearDown _).ownSilent).bind fun _ ↦ ?_
    exact hidle.bind fun _ ↦ only_pure true

end Calm

/-! ### Parts that boot and release nothing -/

section Apart

variable {ι : Type} {platform : Platform} {thread : ι} {op : DaemonOp ι}

/-- Stores no image and starts no guest, and neither begins nor completes a boot or release. -/
def DaemonOp.Apart : DaemonOp ι → Prop
  | .rpc (.image _ _ _ _) | .rpc (.wake _ _) | .rpc (.note (.began _ _))
  | .rpc (.note (.completed _)) => False
  | .chip (.arcWrite32 addr _) => addr ≠ l2cpuResetAddr
  | _ => True

theorem DaemonOp.Calm.apart (h : op.Calm) : op.Apart := by
  cases op with
  | rpc op =>
    cases op with
    | image | wake | replyOk | note => exact absurd h not_false
    | _ => trivial
  | chip op =>
    cases op with
    | arcWrite32 addr value => exact h
    | _ => trivial
  | resetBoard | readFlag | setFlag => exact absurd h not_false

theorem apart_maybeOpportunisticResetBoard (target : L2CpuIdx) :
    (maybeOpportunisticResetBoard platform thread target).Only DaemonOp.Apart := by
  have hcalm {α : Type} {part : DaemonM ι α} (h : part.Only DaemonOp.Calm) :
      part.Only DaemonOp.Apart := h.allow fun _ hop ↦ hop.apart
  refine Fallible.Only.bind only_step fun flag ↦ ?_
  split_ifs
  · exact only_pure ()
  · have hscan (siblings : Siblings) (other : L2CpuIdx) := (looks_scanSibling siblings other).silent
    refine (hcalm (calm_rpc (only_foldlM _ hscan _))).bind fun siblings ↦ ?_
    split_ifs
    · exact only_pure ()
    · refine Fallible.Only.bind (only_forM _ fun other ↦ ?_) fun _ ↦ ?_
      · exact (hcalm (calm_internalStop other)).map
      · refine (hcalm (calm_rpc only_askOk)).bind fun _ ↦ ?_
        refine Fallible.Only.bind only_step fun reply ↦ ?_
        refine (hcalm (calm_rpc only_require)).bind fun _ ↦ ?_
        exact Fallible.Only.map only_step

end Apart

end Bhx.Daemon
