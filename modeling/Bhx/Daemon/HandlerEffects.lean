import Mathlib.Logic.Relation
import Bhx.Daemon.Attachments

/-!
# What handlers do to the attachments

A handler does to what is attached to an L2CPU one of a dozen things (`Effect`): it attaches a
device or takes one out, it takes out all of them, it tears a slot down, it drops the engine or
brings it up, or it completes a boot. Every job of a thread, whether it succeeds or fails, leaves
attachments that come from those before it by such effects (`leads_job`). An invariant of the
attachments is then a property that each effect keeps, and no handler has to be looked at again.

One step of this is not free. After a boot has started its console thread, and before the slot is in
place, a failure leaves the boot half done. `Fatal` are the steps whose failure does that. The
result is about runs in which none of them fails while a console thread runs without a slot.

Scope. One job of one thread, next to steps that leave the attachments of the L2CPU alone.
-/

set_option autoImplicit false

namespace Bhx.Daemon

open SharedMemory Chip Machine.L1Layout List Attachments

variable {ι : Type} {fail : Failure → Attachments → Prop} {args : BootArgs}
  {l2cpu target : L2CpuIdx} {lost : Attachments → Prop} {locks : Locks}

/-! ### Calls whose accesses succeed -/

variable {α : Type}

/-- The part succeeds when each of its accesses to the chip does. -/
abbrev Answered (part : ChipM ι α) : Prop :=
  Settles (fun _ (_ : Unit) answer _ ↦ answer ≠ none) (fun _ _ ↦ True) part (fun _ _ ↦ True)
    (fun _ _ ↦ False) ()

theorem answered_perform {failure : Failure} {op : ChipOp ι} :
    Answered (Fallible.perform failure op) := by
  refine ⟨trivial, fun answer _ hanswer ↦ ?_⟩
  cases answer with
  | none => exact absurd rfl hanswer
  | some value => exact trivial

theorem answered_bind {β : Type} {part : ChipM ι α} {rest : α → ChipM ι β} (h : Answered part)
    (hrest : ∀ value, Answered (rest value)) : Answered (part >>= rest) :=
  Settles.bind h fun value _ _ ↦ hrest value

theorem answered_stepDivider (next : ℕ → Option ℕ) {store : ℕ → ChipM ι Unit}
    (hstore : ∀ divider, Answered (store divider)) (steps divider : ℕ) :
    Answered (stepDivider next store steps divider) := by
  induction steps generalizing divider with
  | zero => exact trivial
  | succ steps ih =>
    unfold stepDivider
    cases next divider with
    | none => exact trivial
    | some divider' => exact answered_bind (hstore divider') fun _ ↦ ih divider'

theorem answered_setFrequency {frequency : Frequency} :
    Answered (setFrequency frequency : ChipM ι Unit) := by
  have hwrite (addr : ℕ) (value : UInt32) : Answered (pllWrite32 addr value : ChipM ι Unit) :=
    answered_bind answered_perform fun _ ↦ trivial
  have hpostdivs (next : ℕ → Option ℕ) (postdivs : PllCntl5) :
      Answered ((finRange 4).foldlM (stepPostdiv next) postdivs : ChipM ι PllCntl5) := by
    refine settles_foldlM (fun _ _ _ ↦ True) (fun i _ current _ _ ↦ ?_) _ trivial
    exact answered_bind (answered_stepDivider next (fun _ ↦ hwrite _ _) _ _) fun _ ↦ trivial
  refine answered_bind answered_perform fun postdivs ↦ ?_
  refine answered_bind answered_perform fun cntl1 ↦ ?_
  refine answered_bind (hpostdivs _ _) fun raised ↦ ?_
  refine answered_bind (answered_stepDivider _ (fun _ ↦ hwrite _ _) _ _) fun _ ↦ ?_
  exact answered_bind (hpostdivs _ _) fun _ ↦ trivial

theorem answered_resetX280 (indices : List L2CpuIdx) :
    Answered (resetX280 indices : ChipM ι Unit) := by
  have happly : Answered (applyReleaseBits indices : ChipM ι Unit) :=
    answered_bind answered_perform fun _ ↦ answered_bind answered_perform fun _ ↦ trivial
  refine answered_bind answered_setFrequency fun _ ↦ answered_bind happly fun _ ↦ ?_
  exact answered_bind answered_perform fun _ ↦ answered_setFrequency

/-- An access succeeds, and a request for the mutex gets it. -/
abbrev ChipAnswers (op : ChipOp ι) (_ : Unit) (answer : Option UInt32) (_ : Unit) : Prop :=
  answer ≠ none ∧ ∀ thread call, op = .lock thread call → answer ≠ some 0

theorem meets_chipCall_run (thread : ι) (indices : List L2CpuIdx) {patience : ℕ}
    (hpatience : 0 < patience) :
    Meets ChipAnswers (fun _ _ ↦ True) (fun result _ ↦ result = .ok ())
      ((ChipCall.resetX280 indices).run thread patience) () := by
  obtain ⟨patience, rfl⟩ := Nat.exists_eq_add_one_of_ne_zero hpatience.ne'
  have hbody : Meets ChipAnswers (fun _ _ ↦ True) (fun result _ ↦ result = .ok ())
      ((ChipCall.resetX280 indices).body : ChipM ι Unit).run () := by
    refine (Meets.restrict (answered_resetX280 indices) fun _ _ _ _ h ↦ h.1).mono
      (fun _ _ h ↦ h) fun result _ hres ↦ ?_
    cases result with
    | ok value => rfl
    | error failure => exact hres.elim
  have hattempt : Meets ChipAnswers (fun _ _ ↦ True) (fun result _ ↦ result = some (.ok ()))
      ((ChipCall.resetX280 indices).attempt thread) () := by
    refine ⟨trivial, fun answer _ hanswer ↦ ?_⟩
    obtain ⟨hsome, hlock⟩ := hanswer
    change Meets _ _ _ (if answer = none then _ else if answer = some 0 then _ else _) ()
    rw [if_neg hsome, if_neg (hlock thread _ rfl)]
    refine hbody.bind fun result _ hres ↦ ?_
    subst hres
    exact ⟨trivial, fun _ _ _ ↦ rfl⟩
  refine hattempt.bind fun result _ hres ↦ ?_
  subst hres
  rfl

/-! ### Effects -/

/-- A device is registered, if there is one. -/
def Attachments.put (held : Attachments) (devIdx : ℕ) (device : Option Device) : Attachments :=
  { held with
    registry := fun other ↦ if other = devIdx then device.or (held.registry other)
      else held.registry other }

/-- The network device of a boot. -/
def BootArgs.netDevice (args : BootArgs) (platform : Platform) : Device :=
  .net (netForwards (sshPort platform.card args.l2cpu) args.devices.extraFwd) args.hostnameOverride

/-- The devices of a boot that have come up. -/
structure BootDevices where
  disk : Option Path
  seed : Option Path
  net : Bool

/-- What has come up was asked for. -/
structure BootDevices.Within (up : BootDevices) (devices : DeviceArgs) : Prop where
  disk : up.disk = none ∨ up.disk = devices.disk
  seed : up.seed = none ∨ up.seed = devices.cloudInit
  net : up.net = true → devices.network = true

/-- The slot of a boot with the workers of these devices. -/
def bootSlot (args : BootArgs) (dtb : Image) (up : BootDevices) : L2CpuSlot :=
  { freshSlot args dtb with
    disks := up.disk.toList.map (⟨·, none, devBlk⟩) ++
      up.seed.toList.map (⟨·, some cidata, devBlk1⟩)
    net := up.net
    virtioConsole := args.devices.console }

/-- What is held after the registrations of a boot. -/
def Attachments.registerAll (held : Attachments) (platform : Platform) (args : BootArgs)
    (up : BootDevices) : Attachments :=
  { ((((held.put devRng (if args.devices.rng then some .rng else none)).put devBlk
      (up.disk.map (.blk · none))).put devBlk1 (up.seed.map (.blk · (some cidata)))).put devNet
      (if up.net then some (args.netDevice platform) else none)).put devConsole
      (if args.devices.console then some .console else none) with
    uart := true }

/-- What is held after a boot. -/
def Attachments.booted (held : Attachments) (platform : Platform) (args : BootArgs) (dtb : Image)
    (up : BootDevices) : Attachments :=
  if held.dispatcher then
    { held.registerAll platform args up with
      slot := some (bootSlot args dtb up)
      consoles := held.consoles + 1 }
  else { held with slot := some (freshSlot args dtb), consoles := held.consoles + 1 }

variable {held : Attachments}

section Booted

variable (platform : Platform) (args : BootArgs) (dtb : Image) (up : BootDevices)

theorem Attachments.booted_of_dispatcher (h : held.dispatcher = true) :
    held.booted platform args dtb up =
      { held.registerAll platform args up with
        slot := some (bootSlot args dtb up)
        consoles := held.consoles + 1 } := if_pos h

theorem Attachments.booted_of_none (h : ¬ held.dispatcher = true) :
    held.booted platform args dtb up =
      { held with slot := some (freshSlot args dtb), consoles := held.consoles + 1 } := if_neg h

end Booted

/-- A slot is taken, unless its mutex is not there. -/
theorem takeSlot_cases {reply : Reply}
    (hfits : (RpcOp.takeSlot l2cpu).Fits locks l2cpu held reply) :
    (locks (.slot l2cpu) false ∧ reply.slot = none ∧
        (RpcOp.takeSlot l2cpu).change l2cpu reply held = held) ∨
      reply.slot = held.slot ∧
        (RpcOp.takeSlot l2cpu).change l2cpu reply held = held.withSlot none := by
  obtain ⟨hlock, hslot⟩ := hfits
  have hslot := hslot rfl
  cases hok : reply.ok with
  | false =>
    rw [hok] at hlock hslot
    exact .inl ⟨hlock, hslot, by simp [RpcOp.change, hok]⟩
  | true =>
    rw [hok] at hslot
    exact .inr ⟨hslot, if_pos ⟨rfl, hok⟩⟩

/-- Which devices are registered while which slot is in place. -/
abbrev Allowance := Option L2CpuSlot → ℕ → Device → Prop

/-- What a handler may do to what is attached to an L2CPU. -/
inductive Effect (platform : Platform) (l2cpu : L2CpuIdx) (allowance : Allowance) :
    Attachments → Attachments → Prop
  | addDisk {held : Attachments} {slot : L2CpuSlot} {path : Path} {name : Option Serial}
      {devIdx : ℕ}
      (hdispatcher : held.dispatcher = true) (hslot : held.slot = some slot)
      (hmay : mayAddDisk slot name = true)
      (hpick : pickFreeBlkSlot (slot.disks.map DiskWorker.devIdx) slot.blkDtbDevIdx = some devIdx) :
      Effect platform l2cpu allowance held
        (held.attach { slot with disks := slot.disks ++ [⟨path, name, devIdx⟩] } devIdx
          (.blk path name))
  | addNet {held : Attachments} {slot : L2CpuSlot} {forwards : Forwards}
      (hdispatcher : held.dispatcher = true) (hslot : held.slot = some slot)
      (hnet : slot.net = false) (hallowed : allowance (some slot) devNet (.net forwards none)) :
      Effect platform l2cpu allowance held
        (held.attach { slot with net := true } devNet (.net forwards none))
  | addConsole {held : Attachments} {slot : L2CpuSlot}
      (hdispatcher : held.dispatcher = true) (hslot : held.slot = some slot) :
      Effect platform l2cpu allowance held
        (held.attach { slot with virtioConsole := true } devConsole .console)
  | addRng {held : Attachments} {slot : L2CpuSlot}
      (hdispatcher : held.dispatcher = true) (hslot : held.slot = some slot) :
      Effect platform l2cpu allowance held (held.attach { slot with virtioRng := true } devRng .rng)
  | removeDisk {held : Attachments} {slot : L2CpuSlot} {name : Option Serial}
      (hslot : held.slot = some slot) (hmay : mayRemoveDisk slot name = true) :
      Effect platform l2cpu allowance held
        ((held.withSlot (some (slot.withoutDisks name))).without
          ((slot.takenDisks name).map DiskWorker.devIdx))
  | removeNet {held : Attachments} :
      Effect platform l2cpu allowance held
        ((held.without [devNet]).withSlot (held.slot.map fun slot ↦ { slot with net := false }))
  | removeConsole {held : Attachments} :
      Effect platform l2cpu allowance held
        ((held.without [devConsole]).withSlot
          (held.slot.map fun slot ↦ { slot with virtioConsole := false }))
  | detach {held : Attachments} :
      Effect platform l2cpu allowance held
        ((held.withSlot (held.slot.map L2CpuSlot.detached)).without
          (held.slot.elim [] L2CpuSlot.workers))
  | tearDown {held : Attachments} (hslot : held.slot ≠ none) :
      Effect platform l2cpu allowance held (held.withSlot none).tornDown
  | dropEngine {held : Attachments} (hslot : held.slot = none) :
      Effect platform l2cpu allowance held
        { held with dispatcher := false, registry := fun _ ↦ none, uart := false }
  | bringUp {held : Attachments} :
      Effect platform l2cpu allowance held { held with dispatcher := true }
  | boot {held : Attachments} {args : BootArgs} {dtb : Image} {up : BootDevices}
      (hl2cpu : args.l2cpu = l2cpu) (hslot : held.slot = none) (hup : up.Within args.devices)
      (hrng : held.dispatcher = true → args.devices.rng = true → allowance none devRng .rng)
      (hnet : held.dispatcher = true → up.net = true →
        allowance none devNet (args.netDevice platform)) :
      Effect platform l2cpu allowance held (held.booted platform args dtb up)

/-! ### Parts of a thread -/

/-- A step whose failure leaves a boot half done. -/
def DaemonOp.Fatal : DaemonOp ι → Prop
  | .chip _ => True
  | .rpc (.write32 _ addr _) => ∃ i < l2PrefetchNum,
    addr = l2PrefetchBase + i * l2PrefetchStride ∨ addr = l2PrefetchBase + i * l2PrefetchStride + 4
  | _ => False

instance : (op : DaemonOp ι) → Decidable op.Fatal
  | .chip _ => .isTrue trivial
  | .rpc (.write32 _ addr _) => inferInstanceAs (Decidable (∃ i < l2PrefetchNum,
    addr = l2PrefetchBase + i * l2PrefetchStride ∨
      addr = l2PrefetchBase + i * l2PrefetchStride + 4))
  | .rpc (.read32 _ _) | .rpc (.image _ _ _ _) | .rpc (.wake _ _) | .rpc (.peekSlot _)
  | .rpc (.takeSlot _) | .rpc (.putSlot _ _) | .rpc (.editSlot _ _) | .rpc (.updateSlot _ _)
  | .rpc (.register _ _ _) | .rpc (.unregister _ _) | .rpc (.registerUart _)
  | .rpc (.unregisterUart _) | .rpc (.spawnConsole _) | .rpc (.joinConsole _) | .rpc .lockEngine
  | .rpc .hasDispatcher | .rpc .bringUp | .rpc .dropEngine | .rpc .dupFd | .rpc .trial
  | .rpc (.replyOk _) | .rpc (.note _) | .resetBoard | .readFlag | .setFlag => .isFalse not_false

/-- The step has failed, by its answer. -/
def DaemonOp.Failed (reply : Reply) : DaemonOp ι → Prop
  | .chip (.lock _ _) => reply.word = none ∨ reply.word = some 0
  | .chip _ => reply.word = none
  | _ => reply.ok = false

/-- What is known of the steps of a thread, with the devices that it registers for the L2CPU and the
answers to its requests for mutexes. -/
structure Setting (ι : Type) where
  platform : Platform
  l2cpu : L2CpuIdx
  allowance : Allowance
  locks : Locks
  sure : DaemonOp ι → Attachments → Reply → Prop
  registers : ∀ held devIdx device reply,
    sure (.rpc (.register l2cpu devIdx device)) held reply → allowance held.slot devIdx device

namespace Setting

variable {part : RpcM α} {post : α → Attachments → Prop} {thread : ι}

variable (setting : Setting ι) {β : Type}

/-- The mutexes that matter to the L2CPU are there. -/
structure Sound : Prop where
  slot : ∀ ok, setting.locks (.slot setting.l2cpu) ok → ok = true
  dispatcher : ∀ ok, setting.locks .dispatcher ok → ok = true
  engine : ∀ ok, setting.locks .tensixEngine ok → ok = true

/-- Some effects, one after the other, if the mutexes are there. -/
def Effects (held held' : Attachments) : Prop :=
  setting.Sound →
    Relation.ReflTransGen (Effect setting.platform setting.l2cpu setting.allowance) held held'

/-- The steps that are known. -/
def next (op : DaemonOp ι) (held : Attachments) (reply : Reply) (held' : Attachments) : Prop :=
  setting.sure op held reply ∧ DaemonNext setting.locks setting.l2cpu op held reply held'

/-- A part leads by effects from what is held before it to what is held after it, whether it fails
or not. -/
abbrev Leads (part : DaemonM ι α) (held : Attachments) : Prop :=
  Settles setting.next (fun _ _ ↦ True) part (fun _ ↦ setting.Effects held)
    (fun _ ↦ setting.Effects held) held

/-- The same for a part that leaves the chip alone. -/
abbrev LeadsRpc (part : RpcM α) (held : Attachments) : Prop :=
  Settles (fun op ↦ setting.next (.rpc op)) (fun _ _ ↦ True) part (fun _ ↦ setting.Effects held)
    (fun _ ↦ setting.Effects held) held

variable {setting} {held' : Attachments}

theorem Effects.refl : setting.Effects held held := fun _ ↦ Relation.ReflTransGen.refl

theorem Effects.single (h : Effect setting.platform setting.l2cpu setting.allowance held held') :
    setting.Effects held held' := fun _ ↦ Relation.ReflTransGen.single h

theorem Effects.trans {held'' : Attachments} (h : setting.Effects held held')
    (h' : setting.Effects held' held'') : setting.Effects held held'' :=
  fun hsound ↦ (h hsound).trans (h' hsound)

/-- Nothing is claimed when the mutex of the dispatcher is not there. -/
theorem Effects.ofDispatcher (h : setting.locks .dispatcher false) : setting.Effects held held' :=
  fun hsound ↦ nomatch hsound.dispatcher _ h

theorem Effects.ofSlot (h : setting.locks (.slot setting.l2cpu) false) :
    setting.Effects held held' :=
  fun hsound ↦ nomatch hsound.slot _ h

theorem Effects.ofEngine (h : setting.locks .tensixEngine false) : setting.Effects held held' :=
  fun hsound ↦ nomatch hsound.engine _ h

/-- What each effect keeps, several of them keep. -/
theorem Effects.keeping {keeps : Attachments → Prop}
    (hkeeps : ∀ held held', Effect setting.platform setting.l2cpu setting.allowance held held' →
      keeps held → keeps held')
    (h : setting.Effects held held') (hsound : setting.Sound) (hheld : keeps held) :
    keeps held' := by
  have hsteps := h hsound
  clear h
  induction hsteps with
  | refl => exact hheld
  | tail _ heffect ih => exact hkeeps _ _ heffect ih

theorem leadsRpc_bind {rest : α → RpcM β} (h : setting.LeadsRpc part held)
    (hrest : ∀ value held', setting.LeadsRpc (rest value) held') :
    setting.LeadsRpc (part >>= rest) held :=
  Settles.bind h fun value held' heffects ↦ (hrest value held').mono
    (fun _ _ hmore ↦ heffects.trans hmore) fun _ _ hmore ↦ heffects.trans hmore

theorem leads_bind {part : DaemonM ι α} {rest : α → DaemonM ι β} (h : setting.Leads part held)
    (hrest : ∀ value held', setting.Leads (rest value) held') :
    setting.Leads (part >>= rest) held :=
  Settles.bind h fun value held' heffects ↦ (hrest value held').mono
    (fun _ _ hmore ↦ heffects.trans hmore) fun _ _ hmore ↦ heffects.trans hmore

theorem leadsRpc_of_leaves {fail : Attachments → Prop}
    (h : Leaves setting.locks setting.l2cpu part post fail held)
    (hpost : ∀ value held', post value held' → setting.Effects held held')
    (hfail : ∀ held', fail held' → setting.Effects held held') : setting.LeadsRpc part held :=
  (h.restrict fun _ _ _ _ hnext ↦ hnext.2).mono hpost fun _ ↦ hfail

/-- The same for a part that leaves everything alone when it fails. -/
theorem leadsRpc_of_kept
    (h : Leaves setting.locks setting.l2cpu part post (fun held' ↦ held' = held) held)
    (hpost : ∀ value held', post value held' → setting.Effects held held') :
    setting.LeadsRpc part held :=
  leadsRpc_of_leaves h hpost fun _ heq ↦ heq ▸ .refl

theorem leads_rpc (h : setting.LeadsRpc part held) :
    setting.Leads (rpc part) held := Settles.embed h

theorem leadsRpc_still (h : part.Only RpcOp.Still) : setting.LeadsRpc part held :=
  leadsRpc_of_kept (leaves_still h) fun _ _ heq ↦ heq ▸ .refl

theorem leadsRpc_looks (h : part.Only RpcOp.Looks) : setting.LeadsRpc part held :=
  leadsRpc_still (h.allow fun _ hop ↦ hop.still)

theorem leadsRpc_caught {part : RpcM Unit} (h : setting.LeadsRpc part held) :
    setting.LeadsRpc (caught part) held :=
  settles_caught (h.mono (fun _ _ heffects ↦ heffects) fun _ _ heffects ↦ ⟨heffects, heffects⟩)

theorem composes_leadsRpc :
    Composes RpcOp.Still fun _ part ↦ ∀ held, setting.LeadsRpc part held where
  only h _ := leadsRpc_still h
  bind h hrest held := leadsRpc_bind (h held) hrest
  caught h held := leadsRpc_caught (h held)

/-! ### Device requests -/

theorem leadsRpc_addDisk (path : Path) (name : Option Serial) :
    setting.LeadsRpc (dispatchAddDisk setting.l2cpu path name) held := by
  refine leadsRpc_of_kept (leaves_dispatchAddDisk _ held path name) fun _ held' h ↦ ?_
  obtain ⟨hdisp, slot, devIdx, hslot, hmay, hpick, rfl⟩ := h
  exact .single (.addDisk hdisp hslot hmay hpick)

/-- The step that registers the network says which networks are attached to which slots, so this
handler is followed step by step. -/
theorem leadsRpc_addNet (sshPortOverride : Option ℕ) (extraFwd : Forwards) :
    setting.LeadsRpc (dispatchAddNet setting.platform setting.l2cpu sshPortOverride extraFwd)
      held := by
  have hbooted : Leaves setting.locks setting.l2cpu (bootedSlot setting.l2cpu)
      (fun slot held' ↦ held.slot = some slot ∧ held' = held) (fun held' ↦ held' = held) held := by
    rw [← bind_pure (bootedSlot setting.l2cpu)]
    exact leaves_bootedSlot rfl fun slot hslot ↦ settles_pure ⟨hslot, rfl⟩
  have hrefl (_ : Failure) (held' : Attachments) (heq : held' = held) :
      setting.Effects held held' := heq ▸ .refl
  refine ((hbooted.restrict fun _ _ _ _ hnext ↦ hnext.2).mono (fun _ _ h ↦ h) hrefl).bind
    fun slot held' hslot ↦ ?_
  obtain ⟨hslot, rfl⟩ := hslot
  by_cases hnet : slot.net = true
  · simp only [hnet, if_true]
    exact settles_throw .refl
  · simp only [hnet]
    have hprobe (forwards : Forwards) : (forwards.forM fun _ ↦ do let _ ← askOk .trial).Only
      RpcOp.Still := only_forM _ fun _ ↦ (only_askOk trivial).map
    refine (((leaves_still (hprobe _)).restrict fun _ _ _ _ hnext ↦ hnext.2).mono (fun _ _ h ↦ h)
      hrefl).bind fun _ held hheld ↦ ?_
    subst hheld
    refine runs_askOk (fun _ held' hnext _ ↦ hnext.2.2 ▸ .refl) fun reply held' hnext hok ↦ ?_
    obtain ⟨-, hfits, rfl⟩ := hnext
    refine runs_askOk (fun _ held' hnext _ ↦ hnext.2.2 ▸ .refl) fun _ held' hnext _ ↦ ?_
    obtain ⟨-, -, rfl⟩ := hnext
    refine runs_tell fun _ held' hnext ↦ runs_ask fun _ held'' hnext' ↦ ?_
    obtain ⟨hsure, -, rfl⟩ := hnext
    obtain ⟨-, -, rfl⟩ := hnext'
    refine settles_pure (.single ?_)
    simp only [RpcOp.change, if_true, hslot, Option.map_some]
    exact .addNet (Bool.and_eq_true_iff.mp (hfits.2.symm.trans hok)).2 hslot
      (Bool.eq_false_iff.mpr hnet)
      (hslot ▸ setting.registers _ _ _ _ hsure)

theorem leadsRpc_addConsole : setting.LeadsRpc (dispatchAddConsole setting.l2cpu) held := by
  refine leadsRpc_of_kept (leaves_dispatchAddConsole _ held) fun _ held' h ↦ ?_
  obtain ⟨hdisp, slot, hslot, -, rfl⟩ := h
  exact .single (.addConsole hdisp hslot)

theorem leadsRpc_addRng : setting.LeadsRpc (attachRngInline setting.l2cpu) held := by
  refine leadsRpc_of_kept (leaves_attachRngInline _ held) fun _ held' h ↦ ?_
  obtain ⟨hdisp, slot, hslot, rfl⟩ := h
  exact .single (.addRng hdisp hslot)

theorem leadsRpc_removeDisk (name : Option Serial) :
    setting.LeadsRpc (dispatchRemoveDisk setting.l2cpu name) held := by
  refine leadsRpc_of_leaves (leaves_dispatchRemoveDisk _ held name) (fun _ held' h ↦ ?_)
    fun held' h ↦ ?_
  · obtain ⟨-, slot, hslot, hmay, rfl⟩ := h
    exact .single (.removeDisk hslot hmay)
  · rcases h with ⟨rfl, -⟩ | ⟨-, hlock, -⟩
    · exact .refl
    · exact .ofDispatcher hlock

theorem leadsRpc_detachDevice {devIdx : ℕ} {has : L2CpuSlot → Bool} {take : L2CpuSlot → L2CpuSlot}
    (h : Effect setting.platform setting.l2cpu setting.allowance held
      ((held.without [devIdx]).withSlot (held.slot.map take))) :
    setting.LeadsRpc (detachDevice setting.l2cpu devIdx has take) held := by
  refine leadsRpc_of_leaves (leaves_detachDevice _ held devIdx _ _) (fun _ _ h' ↦ ?_) fun _ h' ↦ ?_
  · rw [h'.2.2]
    exact .single h
  · rcases h' with ⟨-, rfl⟩ | ⟨-, ⟨hlock, -⟩ | ⟨-, rfl⟩⟩
    · exact .refl
    · exact .ofSlot hlock
    · exact .single h

theorem leadsRpc_detachWorkers {strict : Bool} :
    setting.LeadsRpc (detachWorkers setting.l2cpu strict) held := by
  refine leadsRpc_of_leaves (leaves_detachWorkers _ held strict) (fun _ held' h ↦ ?_)
    fun _ h ↦ .ofDispatcher h.1
  rcases h with ⟨-, -, rfl⟩ | ⟨-, rfl | ⟨-, hlock, -⟩⟩
  · exact .refl
  · exact .single .detach
  · exact .ofDispatcher hlock

theorem leadsRpc_swapAttachedForRelease (args : DeviceArgs) :
    setting.LeadsRpc (swapAttachedForRelease setting.platform setting.l2cpu args) held :=
  composes_leadsRpc.swapAttachedForRelease trivial (fun _ ↦ leadsRpc_detachWorkers)
    (fun _ _ _ ↦ leadsRpc_addDisk _ _) (fun _ _ ↦ leadsRpc_addNet _ _) (fun _ ↦ leadsRpc_addConsole)
    (fun _ ↦ leadsRpc_addRng) held

theorem leadsRpc_request (request : DeviceRequest) :
    setting.LeadsRpc (request.dispatch setting.platform setting.l2cpu) held := by
  cases request with
  | addDisk path name => exact leadsRpc_addDisk path name
  | removeDisk name => exact leadsRpc_removeDisk name
  | addNet sshPort extraFwd => exact leadsRpc_addNet sshPort extraFwd
  | removeNet => exact leadsRpc_detachDevice .removeNet
  | addConsole => exact leadsRpc_addConsole
  | removeConsole => exact leadsRpc_detachDevice .removeConsole

/-! ### Releases and probes -/

theorem leadsRpc_dispatchRelease {payload : BootPayload} {parked : ParkedReleaseMeta}
    {dtbBytes : Option Image} {args : DeviceArgs} :
    setting.LeadsRpc
      (dispatchRelease setting.platform setting.l2cpu payload parked dtbBytes args) held :=
  composes_leadsRpc.dispatchRelease (fun _ _ ↦ leadsRpc_swapAttachedForRelease args) held

theorem leadsRpc_dropNetForReboot : setting.LeadsRpc (dropNetForReboot setting.l2cpu) held := by
  refine leadsRpc_of_leaves (leaves_dropNetForReboot _ held) (fun _ held' h ↦ ?_) fun _ h ↦ h.elim
  rcases h with ⟨-, rfl⟩ | ⟨slot, hslot, -, -, -, rfl | ⟨hlock, -⟩⟩
  · exact .refl
  · have heffect : Effect setting.platform setting.l2cpu setting.allowance held _ := .removeNet
    rw [hslot] at heffect
    exact .single heffect
  · exact .ofDispatcher hlock

theorem leadsRpc_parkProbe {lastParked : Bool} :
    setting.LeadsRpc (parkProbe setting.platform setting.l2cpu lastParked) held := by
  refine composes_leadsRpc.parkProbe (fun _ hop ↦ hop.still) (fun _ ↦ ?_)
    (fun _ ↦ leadsRpc_detachWorkers) lastParked held
  exact composes_leadsRpc.rebootParked trivial (fun _ ↦ leadsRpc_dropNetForReboot)
    (fun extraFwd _ ↦ leadsRpc_addNet none extraFwd)
    (composes_leadsRpc.autoReleaseForReboot (fun _ hop ↦ hop.still)
      (fun _ ↦ leadsRpc_still only_tell) fun _ _ _ _ ↦ leadsRpc_dispatchRelease)
    (fun _ ↦ leadsRpc_still only_tell) _

/-! ### Stops and resets -/

/-- A boot that has started its console thread is completed: threads ask for the mutex of the chip,
and no fatal step fails while a console thread of the L2CPU runs without a slot. -/
structure Completes (setting : Setting ι) : Prop where
  patience : 0 < setting.platform.patience
  fatal : ∀ op held reply, setting.sure op held reply → op.Fatal → held.slot = none →
    held.consoles ≠ 0 → ¬ op.Failed reply

/-- Leaves alone what is attached to any L2CPU. -/
def Still : DaemonOp ι → Prop
  | .rpc op => op.Still
  | _ => True

theorem leads_still {part : DaemonM ι α} (h : part.Only Still) :
    Runs setting.next part (fun _ held' ↦ held' = held) (fun _ held' ↦ held' = held) held := by
  refine settles_keeping h (fun op v hop hv ↦ ⟨trivial, fun reply v' hnext ↦ ?_⟩) rfl
  subst hv
  cases op with
  | rpc op => exact hnext.2.2.trans (hop.change _ _ _)
  | _ => exact hnext.2

theorem still_rpc (h : part.Only RpcOp.Still) : (rpc part : DaemonM ι α).Only Still :=
  h.embed fun _ hop ↦ hop

theorem still_maybeIdlePll {platform : Platform} (thread : ι) :
    (maybeIdlePll platform thread).Only Still :=
  only_maybeIdlePll (fun _ hop ↦ hop.still) (fun _ ↦ trivial)
    (Program.always_within Reply.word _ fun _ ↦ trivial)

theorem settles_rpc {fail : Attachments → Prop}
    (h : Leaves setting.locks setting.l2cpu part post fail held) :
    Runs setting.next (rpc part) post (fun _ ↦ fail) held :=
  Settles.embed (h.restrict fun _ _ _ _ hnext ↦ hnext.2)

theorem settles_rpc_ask {op : RpcOp} :
    Runs setting.next (rpc (ask op))
      (fun reply held' ↦ AttachNext setting.locks setting.l2cpu op held reply held') fail held :=
  Settles.embed (settles_step (fun _ _ hnext ↦ hnext.2) trivial)

theorem settles_rpc_tell {op : RpcOp} :
    Runs setting.next (rpc (tell op))
      (fun _ held' ↦ ∃ reply, held' = op.change setting.l2cpu reply held) fail held :=
  Settles.embed ⟨trivial, fun reply _ hnext ↦ ⟨reply, hnext.2.2⟩⟩

/-- What a stop of a guest, of this L2CPU or another one, leaves. -/
structure Stopped (setting : Setting ι) (target : L2CpuIdx) (held held' : Attachments) : Prop where
  effects : setting.Effects held held'
  empty : held.slot = none → held'.slot = none
  gone : target = setting.l2cpu → setting.Sound → held'.slot = none

theorem settles_internalStop (thread : ι) (target : L2CpuIdx) :
    Runs setting.next (internalStop setting.platform thread target)
      (fun _ ↦ setting.Stopped target held) (fun _ ↦ setting.Stopped target held) held := by
  by_cases htarget : target = setting.l2cpu
  · subst htarget
    refine settles_rpc_ask.bind fun reply held' hnext ↦ ?_
    obtain ⟨hfits, rfl⟩ := hnext
    rcases takeSlot_cases hfits with ⟨hlock, hslot, hchange⟩ | ⟨hslot, hchange⟩
    · rw [hchange, hslot]
      exact settles_pure ⟨.refl, id, fun _ hsound ↦ nomatch hsound.slot _ hlock⟩
    rw [hchange, hslot]
    by_cases hnone : held.slot = none
    · rw [hnone]
      refine settles_pure ?_
      rw [← hnone, withSlot_self]
      exact ⟨.refl, id, fun _ _ ↦ hnone⟩
    · rw [if_neg (by simpa using hnone)]
      refine (settles_rpc (leaves_tearDown _ _)).bind fun _ held' hheld' ↦ ?_
      have hstopped : setting.Stopped setting.l2cpu held held' := by
        rcases hheld' with rfl | ⟨hlock, rfl⟩
        · exact ⟨.single (.tearDown hnone), fun _ ↦ rfl, fun _ _ ↦ rfl⟩
        · exact ⟨.ofDispatcher hlock, fun _ ↦ rfl, fun _ _ ↦ rfl⟩
      refine ((leads_still (still_maybeIdlePll thread)).mono (fun _ _ h ↦ h) ?_).bind
        fun _ _ heq ↦ settles_pure (heq ▸ hstopped)
      exact fun _ _ heq ↦ heq ▸ hstopped
  · have hsame : setting.Stopped target held held := ⟨.refl, id, fun h ↦ absurd h htarget⟩
    have htake : (ask (.takeSlot target)).Only (RpcOp.Own target) := only_ask rfl
    refine ((settles_rpc (leaves_elsewhere htake htarget)).mono (fun _ _ h ↦ h)
      fun _ _ heq ↦ heq ▸ hsame).bind fun reply held' hheld' ↦ ?_
    subst hheld'
    split_ifs
    · exact settles_pure hsame
    · refine ((settles_rpc (leaves_elsewhere (own_tearDown target) htarget)).mono (fun _ _ h ↦ h)
        fun _ _ heq ↦ heq ▸ hsame).bind fun _ held' hheld' ↦ ?_
      subst hheld'
      refine ((leads_still (still_maybeIdlePll thread)).mono (fun _ _ h ↦ h) ?_).bind
        fun _ _ heq ↦ settles_pure (heq ▸ hsame)
      exact fun _ _ heq ↦ heq ▸ hsame

theorem leads_dispatchStop (thread : ι) :
    setting.Leads (dispatchStop setting.platform thread setting.l2cpu) held := by
  refine leads_bind ((settles_internalStop thread setting.l2cpu).mono (fun _ _ h ↦ h.effects)
    fun _ _ h ↦ h.effects) fun stopped held ↦ ?_
  split_ifs
  · exact leads_rpc (leadsRpc_still (only_tell trivial))
  · exact settles_throw .refl

/-- The scan of the slots has seen the L2CPU in one of the two lists. -/
abbrev Seen (l2cpu : L2CpuIdx) (siblings : Siblings) : Prop :=
  l2cpu ∈ siblings.running ∨ l2cpu ∈ siblings.parked

theorem seen_add {siblings : Siblings} {target l2cpu : L2CpuIdx} {found : SiblingClassification} :
    Seen l2cpu (siblings.add target found) ↔ l2cpu = target ∨ Seen l2cpu siblings := by
  cases found <;> simp [Seen, Siblings.add] <;> tauto

theorem leaves_scanSibling (siblings : Siblings) (target : L2CpuIdx) :
    Leaves locks l2cpu (scanSibling siblings target)
      (fun siblings' held' ↦ held' = held ∧ (Seen l2cpu siblings → Seen l2cpu siblings') ∧
        (target = l2cpu → held.slot = none ∨ Seen l2cpu siblings'))
      (fun held' ↦ held' = held) held := by
  refine leaves_askOk (fun _ _ _ ↦ rfl) fun reply hfits hok ↦ ?_
  by_cases hnone : reply.slot.isNone = true
  · simp only [hnone, if_true]
    refine settles_pure ⟨rfl, id, fun htarget ↦ .inl ?_⟩
    have hslot := hfits.2 htarget
    rw [hok, if_pos rfl] at hslot
    rw [← hslot]
    exact Option.isNone_iff_eq_none.mp hnone
  · simp only [hnone]
    refine Settles.bind (leaves_still ((looks_read32 _ _).allow fun _ hop ↦ hop.still))
      fun lo held' hheld' ↦ ?_
    subst hheld'
    refine Settles.bind (leaves_still ((looks_read32 _ _).allow fun _ hop ↦ hop.still))
      fun hi held' hheld' ↦ settles_pure ?_
    refine ⟨hheld', fun hseen ↦ ?_, fun htarget ↦ .inr ?_⟩
    · exact seen_add.mpr (.inr hseen)
    · exact seen_add.mpr (.inl htarget.symm)

theorem leaves_scanSiblings (htarget : target = l2cpu → held.slot = none) :
    Leaves locks l2cpu ((allL2Cpus.filter (· ≠ target)).foldlM scanSibling ⟨[], []⟩)
      (fun siblings held' ↦ held' = held ∧ (held.slot = none ∨ Seen l2cpu siblings))
      (fun held' ↦ held' = held) held := by
  have hstart : l2cpu ∈ allL2Cpus.filter (· ≠ target) ∨ held.slot = none ∨ Seen l2cpu ⟨[], []⟩ := by
    by_cases hself : target = l2cpu
    · exact .inr (.inl (htarget hself))
    · refine .inl (mem_filter.mpr ⟨mem_finRange l2cpu, ?_⟩)
      simpa using Ne.symm hself
  refine (settles_foldlM (fun items siblings held' ↦ held' = held ∧
    (l2cpu ∈ items ∨ held.slot = none ∨ Seen l2cpu siblings)) (fun item items siblings v h ↦ ?_) _
    ⟨rfl, hstart⟩).imp fun siblings held' h ↦ ?_
  · obtain ⟨rfl, h⟩ := h
    refine (leaves_scanSibling siblings item).imp fun siblings' held' h' ↦ ?_
    obtain ⟨rfl, hseen, hitem⟩ := h'
    refine ⟨rfl, ?_⟩
    rcases h with hmem | hslot | hbefore
    · rcases mem_cons.mp hmem with hself | hlater
      · exact .inr (hitem hself.symm)
      · exact .inl hlater
    · exact .inr (.inl hslot)
    · exact .inr (.inr (hseen hbefore))
  · exact ⟨h.1, h.2.resolve_left (not_mem_nil)⟩

theorem settles_internalStops (thread : ι) {targets : List L2CpuIdx}
    (htargets : held.slot = none ∨ setting.l2cpu ∈ targets) :
    Runs setting.next
      (targets.forM fun l2cpu ↦ do
        let _ ← internalStop setting.platform thread l2cpu)
      (fun _ ↦ setting.Stopped setting.l2cpu held)
      (fun _ held' ↦ setting.Effects held held' ∧ (held.slot = none → held'.slot = none)) held := by
  refine (settles_forM (fun items v ↦ setting.Effects held v ∧
    (setting.Sound → v.slot = none ∨ setting.l2cpu ∈ items) ∧ (held.slot = none → v.slot = none))
    (fun target items v hv ↦ ?_) targets ⟨.refl, fun _ ↦ htargets, id⟩).imp fun _ v hv ↦ ?_
  · obtain ⟨heffects, hmem, hnone⟩ := hv
    refine ((settles_internalStop thread target).mono (fun _ _ h ↦ h) fun _ v' h ↦ ?_).bind
      fun _ v' h ↦ settles_pure ⟨heffects.trans h.effects, fun hsound ↦ ?_, h.empty ∘ hnone⟩
    · exact ⟨heffects.trans h.effects, h.empty ∘ hnone⟩
    · by_cases htarget : target = setting.l2cpu
      · exact .inl (h.gone htarget hsound)
      · exact (hmem hsound).imp h.empty (mem_of_ne_of_mem (Ne.symm htarget))
  · exact ⟨hv.1, hv.2.2, fun _ hsound ↦ (hv.2.1 hsound).resolve_right not_mem_nil⟩

/-- A reset of the board, or the decision against one. It never takes a slot of the L2CPU that is
booted, and drops the engine only when the slot is empty. -/
theorem settles_maybeOpportunisticResetBoard (thread : ι)
    (htarget : target = setting.l2cpu → held.slot = none) :
    Runs setting.next
      (maybeOpportunisticResetBoard setting.platform thread target)
      (fun _ held' ↦ setting.Effects held held' ∧ (held.slot = none → held'.slot = none))
      (fun _ held' ↦ setting.Effects held held' ∧ (held.slot = none → held'.slot = none)) held := by
  have hstill {α : Type} {part : DaemonM ι α} (held : Attachments) (h : part.Only Still) :
      Runs setting.next part (fun _ held' ↦ held' = held)
        (fun _ held' ↦ setting.Effects held held' ∧ (held.slot = none → held'.slot = none)) held :=
    (leads_still h).mono (fun _ _ heq ↦ heq) fun _ _ heq ↦ ⟨heq ▸ .refl, fun hslot ↦ heq ▸ hslot⟩
  refine (hstill held (only_step : (step .readFlag).Only Still)).bind fun flag held' hheld' ↦ ?_
  subst hheld'
  by_cases hflag : flag.ok = true
  · simp only [hflag, if_true]
    exact settles_pure ⟨.refl, id⟩
  simp only [hflag]
  refine ((settles_rpc (leaves_scanSiblings htarget)).mono (fun _ _ h ↦ h) ?_).bind
    fun siblings held' hscan ↦ ?_
  · exact fun _ _ heq ↦ ⟨heq ▸ .refl, fun hslot ↦ heq ▸ hslot⟩
  obtain ⟨rfl, hseen⟩ := hscan
  by_cases hrunning : siblings.running = []
  · simp only [hrunning, ne_eq, not_true_eq_false, if_false]
    -- what is parked is stopped before the engine is dropped
    have hparked : held'.slot = none ∨ setting.l2cpu ∈ siblings.parked :=
      hseen.imp_right fun hseen ↦ hseen.resolve_left (by simp [hrunning])
    refine (settles_internalStops thread hparked).bind fun _ v hv ↦ ?_
    have hdropped (v' : Attachments) (hv' : v' = { v with
        dispatcher := false, registry := fun _ ↦ none, uart := false } ∨
        setting.locks .dispatcher false ∧ v' = v) :
        setting.Effects held' v' ∧ (held'.slot = none → v'.slot = none) := by
      rcases hv' with rfl | ⟨hlock, rfl⟩
      · refine ⟨hv.effects.trans fun hsound ↦ ?_, hv.empty⟩
        exact .single (.dropEngine (hv.gone rfl hsound))
      · exact ⟨.ofDispatcher hlock, hv.empty⟩
    have hdrop : Leaves setting.locks setting.l2cpu (askOk .dropEngine)
        (fun _ v' ↦ setting.Effects held' v' ∧ (held'.slot = none → v'.slot = none))
        (fun v' ↦ setting.Effects held' v' ∧ (held'.slot = none → v'.slot = none)) v := by
      have hstep (reply : Reply)
          (hfits : RpcOp.dropEngine.Fits setting.locks setting.l2cpu v reply) :
          setting.Effects held' (RpcOp.dropEngine.change setting.l2cpu reply v) ∧
            (held'.slot = none →
              (RpcOp.dropEngine.change setting.l2cpu reply v).slot = none) := by
        refine hdropped _ ?_
        have hlock : setting.locks .dispatcher reply.word.isSome := hfits
        cases hword : reply.word.isSome with
        | true => exact .inl (if_pos hword)
        | false => exact .inr ⟨hword ▸ hlock, if_neg (by simp [hword])⟩
      rw [← bind_pure (askOk .dropEngine)]
      exact leaves_askOk (fun reply hfits _ ↦ hstep reply hfits)
        fun reply hfits _ ↦ settles_pure (hstep reply hfits)
    refine (settles_rpc hdrop).bind fun _ v' hv' ↦ ?_
    have hreset : (do
        let reply ← step .resetBoard
        rpc (require reply.ok)
        let _ ← step .setFlag : DaemonM ι Unit).Only Still := by
      refine Fallible.Only.bind only_step fun reply ↦ ?_
      refine (still_rpc only_require).bind fun _ ↦ ?_
      exact Fallible.Only.bind only_step fun _ ↦ only_pure ()
    refine (leads_still hreset).mono (fun _ v' heq ↦ ?_) fun _ v' heq ↦ ?_
    · rw [heq]
      exact hv'
    · rw [heq]
      exact hv'
  · simp only [hrunning, ne_eq, not_false_eq_true, if_true]
    exact settles_pure ⟨.refl, id⟩

/-! ### Booting from reset -/

theorem settles_handleExistingSlot (force : Bool) :
    Runs setting.next (rpc (handleExistingSlot setting.l2cpu force))
      (fun _ held' ↦ setting.Effects held held' ∧ held'.slot = none)
      (fun _ held' ↦ held' = held) held := by
  refine settles_rpc ?_
  cases force with
  | true =>
    refine leaves_askOk (fun reply _ hok ↦ ?_) fun reply hfits hok ↦ ?_
    · exact if_neg fun h ↦ absurd (hok.symm.trans h.2) Bool.false_ne_true
    rw [if_pos rfl] at hfits ⊢
    have hslot : reply.slot = held.slot := by
      rw [hfits.2 rfl, hok, if_pos rfl]
    rw [show (RpcOp.takeSlot setting.l2cpu).change setting.l2cpu reply held = held.withSlot none
      from if_pos ⟨rfl, hok⟩, hslot]
    cases hheld : held.slot with
    | none =>
      refine settles_pure ?_
      rw [← hheld, withSlot_self]
      exact ⟨.refl, rfl⟩
    | some slot =>
      refine (leaves_tearDown _ _).imp fun _ held' heq ↦ ?_
      rcases heq with rfl | ⟨hlock, rfl⟩
      · exact ⟨.single (.tearDown (hheld ▸ Option.some_ne_none slot)), rfl⟩
      · exact ⟨.ofDispatcher hlock, rfl⟩
  | false =>
    refine leaves_askOk (fun _ _ _ ↦ rfl) fun reply hfits hok ↦ ?_
    have hslot : reply.slot = held.slot := by
      rw [hfits.2 rfl, hok, if_pos rfl]
    rw [hslot]
    cases hheld : held.slot with
    | none => exact settles_pure ⟨.refl, hheld⟩
    | some slot => exact settles_throw rfl

theorem change_bringUp (l2cpu : L2CpuIdx) (reply : Reply) (held : Attachments) :
    RpcOp.bringUp.change l2cpu reply held = held ∨
      RpcOp.bringUp.change l2cpu reply held = { held with dispatcher := true } := by
  by_cases hok : held.dispatcher || reply.ok
  · exact .inr (by simp [RpcOp.change, hok])
  · refine .inl ?_
    ext <;> simp_all [RpcOp.change]

theorem effects_bringUp (reply : Reply) :
    setting.Effects held (RpcOp.bringUp.change setting.l2cpu reply held) := by
  rcases change_bringUp setting.l2cpu reply held with heq | heq
  · rw [heq]
    exact .refl
  · rw [heq]
    exact .single .bringUp

theorem leaves_runBootSequence {platform : Platform} {args : BootArgs} :
    Leaves locks l2cpu (runBootSequence platform args)
      (fun _ held' ↦ held' = held ∨ held' = { held with dispatcher := true })
      (fun held' ↦ held' = held ∨ held' = { held with dispatcher := true }) held := by
  have honly : (runBootSequence platform args).Only fun op ↦ op.Still ∨ op = .bringUp :=
    only_runBootSequence platform args (fun _ hop ↦ .inl hop.still) (.inr rfl)
  refine settles_keeping honly (fun op v hop hv ↦ ⟨trivial, fun reply v' hnext ↦ ?_⟩) (.inl rfl)
  rcases hop with hstill | rfl
  · rw [hnext.2, hstill.change]
    exact hv
  · rw [hnext.2]
    rcases change_bringUp l2cpu reply v with heq | heq
    · rwa [heq]
    · refine .inr (heq.trans ?_)
      rcases hv with rfl | rfl <;> rfl

/-- A disk is attached if it was asked for and its image can be opened and mapped. -/
theorem settles_attachDisk {name : Option Serial} {devIdx : ℕ} {slot : L2CpuSlot}
    {disk : Option Path} :
    Runs (fun op ↦ setting.next (.rpc op))
      (disk.elim (pure slot) (attachDisk setting.l2cpu name devIdx slot))
      (fun slot' held' ↦ ∃ up, (up = none ∨ up = disk) ∧
        held' = held.put devIdx (up.map (.blk · name)) ∧
        slot' = { slot with disks := slot.disks ++ up.toList.map (⟨·, name, devIdx⟩) })
      fail held := by
  have hnone : ∃ up : Option Path, (up = none ∨ up = disk) ∧ held = held.put devIdx (up.map
    (.blk · name)) ∧ slot = { slot with disks := slot.disks ++ up.toList.map (⟨·, name,
    devIdx⟩) } := ⟨none, .inl rfl, by simp [put], by simp⟩
  cases disk with
  | none => exact settles_pure hnone
  | some path =>
    refine runs_ask fun opened held' hopened ↦ ?_
    rw [show held' = held from hopened.2.2]
    split_ifs
    · refine runs_ask fun mapped held' hmapped ↦ ?_
      rw [show held' = held from hmapped.2.2]
      split_ifs
      · refine runs_tell fun _ held' hnext ↦ ?_
        refine settles_pure ⟨some path, .inr rfl, ?_, rfl⟩
        rw [hnext.2.2]
        simp [RpcOp.change, put, funext_iff, Function.update_apply]
      · exact settles_pure hnone
    · exact settles_pure hnone

theorem settles_register_doIf {condition : Bool} {devIdx : ℕ} {device : Device} :
    Runs (fun op ↦ setting.next (.rpc op))
      (doIf condition (tell (.register setting.l2cpu devIdx device)))
      (fun _ held' ↦ held' = held.put devIdx (if condition then some device else none) ∧
        (condition = true → setting.allowance held.slot devIdx device)) fail held := by
  refine settles_doIf (fun hcondition ↦ runs_ask fun reply held' hnext ↦ ?_) fun hcondition ↦ ?_
  · refine settles_pure ⟨?_, fun _ ↦ setting.registers _ _ _ _ hnext.1⟩
    rw [hnext.2.2]
    simp [RpcOp.change, put, hcondition, funext_iff, Function.update_apply]
  · simp [put, hcondition]

theorem settles_registerDevices (hown : args.l2cpu = setting.l2cpu) (dtb : Image)
    (hengine : ∀ failure, setting.locks .tensixEngine false → fail failure held)
    (hdispatcher : ∀ failure, setting.locks .dispatcher false → fail failure held) :
    Runs (fun op ↦ setting.next (.rpc op))
      (registerDevices setting.platform args (freshSlot args dtb))
      (fun slot held' ↦ if held.dispatcher = true then
          ∃ up : BootDevices, up.Within args.devices ∧ slot = bootSlot args dtb up ∧
            held' = held.registerAll setting.platform args up ∧
            (args.devices.rng = true → setting.allowance held.slot devRng .rng) ∧
            (up.net = true → setting.allowance held.slot devNet (args.netDevice setting.platform))
        else slot = freshSlot args dtb ∧ held' = held) fail held := by
  unfold registerDevices
  rw [hown]
  have hruns : Leaves setting.locks setting.l2cpu (dispatcherRuns >>= pure)
      (fun running held' ↦ running = held.dispatcher ∧ held' = held)
      (fun held' ↦ setting.locks .dispatcher false ∧ held' = held) held :=
    leaves_dispatcherRuns (fun hlock ↦ ⟨hlock, rfl⟩) fun _ ↦ settles_pure ⟨rfl, rfl⟩
  rw [bind_pure] at hruns
  refine runs_askOk (fun reply held' hnext hok ↦ ?_) fun _ held' hnext _ ↦ ?_
  · obtain ⟨-, hlock, rfl⟩ := hnext
    exact hengine _ (hok ▸ hlock)
  rw [show held' = held from hnext.2.2]
  refine ((hruns.restrict fun _ _ _ _ hnext ↦ hnext.2).mono (fun _ _ h ↦ h)
    fun failure _ h ↦ h.2 ▸ hdispatcher failure h.1).bind fun running held' hrunning ↦ ?_
  obtain ⟨hreply, hheld'⟩ := hrunning
  rw [hheld']
  by_cases hdisp : held.dispatcher = true
  · simp only [hreply, hdisp, if_true]
    refine settles_register_doIf.bind fun _ held1 hheld1 ↦ ?_
    obtain ⟨hheld1, hrng⟩ := hheld1
    refine settles_attachDisk.bind fun slot1 held2 hdisk ↦ ?_
    obtain ⟨disk, hdisk, hheld2, rfl⟩ := hdisk
    refine settles_attachDisk.bind fun slot2 held3 hseed ↦ ?_
    obtain ⟨seed, hseed, hheld3, rfl⟩ := hseed
    have htry : Runs (fun op ↦ setting.next (.rpc op)) (tryIf args.devices.network) (fun netUp held'
        ↦ (netUp = true → args.devices.network = true) ∧ held' = held3) fail held3 := by
      unfold tryIf
      split_ifs with hnetwork
      · exact runs_ask fun reply _ hnext ↦ settles_pure ⟨fun _ ↦ hnetwork, hnext.2.2⟩
      · exact settles_pure ⟨nofun, rfl⟩
    refine htry.bind fun netUp held4 hnet ↦ ?_
    obtain ⟨hnet, rfl⟩ := hnet
    refine settles_register_doIf.bind fun _ held5 hheld5 ↦ ?_
    obtain ⟨hheld5, hallowed⟩ := hheld5
    refine settles_register_doIf.bind fun _ held6 hheld6 ↦ ?_
    refine runs_tell fun _ held7 hnext ↦ settles_pure ?_
    obtain ⟨hheld6, -⟩ := hheld6
    obtain ⟨-, -, rfl⟩ := hnext
    refine ⟨⟨disk, seed, netUp⟩, ⟨hdisk, hseed, hnet⟩, ?_, ?_, hrng, ?_⟩
    · simp [bootSlot, freshSlot]
    · subst hheld1 hheld2 hheld3 hheld5 hheld6
      rw [← hown]
      exact if_pos rfl
    · subst hheld1 hheld2 hheld3
      intro hup
      have hnet := hallowed hup
      rw [← hown] at hnet
      exact hnet
  · simp only [hreply, hdisp]
    exact settles_pure ⟨rfl, rfl⟩

/-- Fatal steps succeed while a console thread runs without a slot. -/
theorem next_of_fatal (hcompletes : setting.Completes) {op : DaemonOp ι} {reply : Reply}
    (hslot : held.slot = none) (hconsoles : held.consoles ≠ 0) (hop : op.Fatal)
    (h : setting.next op held reply held') :
    held' = held ∧ ¬ op.Failed reply := by
  refine ⟨?_, hcompletes.fatal op held reply h.1 hop hslot hconsoles⟩
  cases op with
  | chip op => exact h.2
  | rpc op =>
    cases op with
    | write32 target addr value => exact h.2.2
    | _ => exact hop.elim
  | _ => exact hop.elim

theorem settles_resetX280 (thread : ι) (target : L2CpuIdx) (hcompletes : setting.Completes)
    (hslot : held.slot = none) (hconsoles : held.consoles ≠ 0) :
    Runs setting.next
      (chipCall setting.platform thread (.resetX280 [target])) (fun _ held' ↦ held' = held)
      (fun _ _ ↦ False) held := by
  have hrun : Meets (fun (op : DaemonOp ι) (_ : Unit) reply _ ↦ ¬ op.Failed reply) (fun op _ ↦
      op.Fatal) (fun result _ ↦ result = .ok ()) (((ChipCall.resetX280 [target]).run thread
      setting.platform.patience).within .chip Reply.word) () := by
    refine Meets.within id (fun _ _ _ ↦ trivial) (fun op _ reply _ hok ↦ ?_)
      (meets_chipCall_run thread [target] hcompletes.patience)
    cases op with
    | lock thread call =>
      obtain ⟨hsome, hfree⟩ := not_or.mp hok
      exact ⟨hsome, fun _ _ _ ↦ hfree⟩
    | _ => exact ⟨hok, nofun⟩
  have hkeeps (op : DaemonOp ι) (v : Attachments) (hv : v = held) (hop : op.Fatal) :
      True ∧ ∀ reply v', setting.next op v reply v' → v' = held ∧ ¬ op.Failed reply :=
    ⟨trivial, fun reply v' hnext ↦ next_of_fatal hcompletes hslot hconsoles hop (hv ▸ hnext)⟩
  refine (Meets.lift (fun _ ↦ ()) hkeeps (by rfl) hrun).mono (fun _ _ h ↦ h) fun result v hv ↦ ?_
  obtain ⟨hv, rfl⟩ := hv
  exact hv

theorem settles_configurePrefetchers (target : L2CpuIdx) (hcompletes : setting.Completes)
    (hslot : held.slot = none) (hconsoles : held.consoles ≠ 0) :
    Runs setting.next (rpc (configurePrefetchers target))
      (fun _ held' ↦ held' = held) (fun _ _ ↦ False) held := by
  have hwrite (addr : ℕ) (value : UInt32) (hfatal : (DaemonOp.rpc (.write32 target addr value) :
      DaemonOp ι).Fatal) : Runs (fun op ↦ setting.next (.rpc op))
      (write32 target addr value) (fun _ held' ↦ held' = held) (fun _ _ ↦ False) held := by
    refine runs_askOk (fun reply held' hnext hok ↦ ?_) fun reply held' hnext _ ↦ ?_
    · exact (next_of_fatal hcompletes hslot hconsoles hfatal hnext).2 hok
    · exact settles_pure (next_of_fatal hcompletes hslot hconsoles hfatal hnext).1
  refine Settles.embed ((settles_forM (fun items v ↦ v = held ∧ ∀ i ∈ items, i < l2PrefetchNum)
    (fun i items v hv ↦ ?_) _ ⟨rfl, fun i hi ↦ mem_range.mp hi⟩).imp fun _ _ hv ↦ hv.1)
  obtain ⟨rfl, hbound⟩ := hv
  have hi : i < l2PrefetchNum := hbound i mem_cons_self
  refine (hwrite _ _ ⟨i, hi, .inl rfl⟩).bind fun _ v hv ↦ ?_
  rw [hv]
  refine (hwrite _ _ ⟨i, hi, .inr rfl⟩).imp fun _ v hv ↦ ⟨hv, fun j hj ↦ ?_⟩
  exact hbound j (mem_cons_of_mem i hj)

/-- The end of a boot does not fail while a console thread runs without a slot. -/
theorem settles_releaseL2cpuFromReset (thread : ι) (target : L2CpuIdx)
    (hcompletes : setting.Completes) (hslot : held.slot = none) (hconsoles : held.consoles ≠ 0) :
    Runs setting.next (releaseL2cpuFromReset setting.platform thread target)
      (fun _ held' ↦ held' = held) (fun _ _ ↦ False) held := by
  refine settles_rpc_tell.bind fun _ held' hheld' ↦ ?_
  obtain ⟨_, rfl⟩ := hheld'
  refine settles_rpc_tell.bind fun _ held' hheld' ↦ ?_
  obtain ⟨_, rfl⟩ := hheld'
  refine (settles_resetX280 thread target hcompletes hslot hconsoles).bind fun _ held' hheld' ↦ ?_
  rw [hheld']
  exact settles_configurePrefetchers target hcompletes hslot hconsoles

theorem still_releaseL2cpuFromReset {platform : Platform} (thread : ι) (target : L2CpuIdx) :
    (releaseL2cpuFromReset platform thread target).Only Still := by
  have hclear (addr : ℕ) : (rpc (tell (.write32 target addr 0)) : DaemonM ι Unit).Only Still :=
    still_rpc (only_tell trivial)
  refine (hclear _).bind fun _ ↦ (hclear _).bind fun _ ↦ ?_
  refine Fallible.Only.bind (Program.always_within Reply.word _ fun _ ↦ trivial) fun _ ↦ ?_
  exact still_rpc ((looks_configurePrefetchers _).allow fun _ hop ↦ hop.still)

/-- What the end of a boot leaves when it fails while a console thread runs without a slot. -/
abbrev Releases (setting : Setting ι) (thread : ι) (lost : Attachments → Prop) : Prop :=
  ∀ held : Attachments, held.slot = none → held.consoles ≠ 0 →
    Settles setting.next (fun _ _ ↦ True)
      (releaseL2cpuFromReset setting.platform thread setting.l2cpu) (fun _ held' ↦ held' = held)
      (fun _ ↦ lost) held

/-- The part of a boot after its console thread was started is one effect. -/
theorem settles_completeBoot {start : Attachments} (hrelease : Releases setting thread lost)
    (dtb : Image) (hown : args.l2cpu = setting.l2cpu) (hslot : held.slot = none) :
    Runs setting.next (do
        rpc (tell (.spawnConsole args.l2cpu))
        let slot ← rpc (registerDevices setting.platform args (freshSlot args dtb))
        releaseL2cpuFromReset setting.platform thread args.l2cpu
        let _ ← rpc (askOk (.putSlot args.l2cpu slot))
        rpc (tell (.replyOk args.l2cpu)))
      (fun _ held' ↦ Effect setting.platform setting.l2cpu setting.allowance held held' ∧
        ∃ up, up.Within args.devices ∧ held' = held.booted setting.platform args dtb up)
      (fun _ held' ↦ setting.Effects start held' ∧ held'.slot = none ∨ lost held') held := by
  refine settles_rpc_tell.bind fun _ v hv ↦ ?_
  obtain ⟨_, rfl⟩ := hv
  rw [show (RpcOp.spawnConsole args.l2cpu).change setting.l2cpu _ held =
    { held with consoles := held.consoles + 1 } from if_pos hown]
  refine Settles.bind (Settles.embed (settles_registerDevices hown dtb
    (fun _ hlock ↦ .inl ⟨.ofEngine hlock, hslot⟩)
    fun _ hlock ↦ .inl ⟨.ofDispatcher hlock, hslot⟩)) fun slot v hv ↦ ?_
  obtain ⟨hnone, hconsoles, up, hup, hput, hrng, hnet⟩ : v.slot = none ∧ v.consoles ≠ 0 ∧
      ∃ up : BootDevices, up.Within args.devices ∧ held.booted setting.platform args dtb up =
      v.withSlot (some slot) ∧ (held.dispatcher = true → args.devices.rng = true →
      setting.allowance none devRng .rng) ∧ (held.dispatcher = true → up.net = true →
      setting.allowance none devNet (args.netDevice setting.platform)) := by
    by_cases hdisp : held.dispatcher = true
    · rw [if_pos hdisp] at hv
      obtain ⟨up, hup, rfl, rfl, hrng, hnet⟩ := hv
      rw [show ({ held with consoles := held.consoles + 1 } : Attachments).slot = none from hslot]
        at hrng hnet
      exact ⟨hslot, Nat.succ_ne_zero _, up, hup,
        booted_of_dispatcher _ args dtb up hdisp, fun _ ↦ hrng, fun _ ↦ hnet⟩
    · rw [if_neg hdisp] at hv
      obtain ⟨rfl, rfl⟩ := hv
      exact ⟨hslot, Nat.succ_ne_zero _, ⟨none, none, false⟩, ⟨.inl rfl, .inl rfl, nofun⟩,
        booted_of_none _ args dtb _ hdisp, fun h ↦ absurd h hdisp,
        fun h ↦ absurd h hdisp⟩
  have hrel := hrelease v hnone hconsoles
  rw [← hown] at hrel
  refine (hrel.mono (fun _ _ h ↦ h) fun _ _ h ↦ .inr h).bind fun _ v' hv' ↦ ?_
  rw [hv']
  have hinstall : Leaves setting.locks setting.l2cpu (askOk (.putSlot args.l2cpu slot))
      (fun _ held' ↦ held' = v.withSlot (some slot))
      (fun held' ↦ setting.locks (.slot setting.l2cpu) false ∧ held' = v) v := by
    rw [← bind_pure (askOk (.putSlot args.l2cpu slot))]
    refine leaves_askOk (fun reply hfits hok ↦ ?_) fun reply _ hok ↦ settles_pure ?_
    · have hlock : setting.locks (.slot args.l2cpu) reply.ok := hfits
      rw [hown, hok] at hlock
      exact ⟨hlock, if_neg fun h ↦ absurd (hok.symm.trans h.2) Bool.false_ne_true⟩
    · exact if_pos ⟨hown, hok⟩
  refine ((settles_rpc hinstall).mono (fun _ _ h ↦ h) fun _ _ h ↦
    .inl ⟨.ofSlot h.1, h.2 ▸ hnone⟩).bind fun _ v'' hv'' ↦ ?_
  subst hv''
  refine settles_rpc_tell.imp fun _ v' hv' ↦ ?_
  obtain ⟨_, rfl⟩ := hv'
  exact ⟨hput ▸ .boot hown hslot hup hrng hnet, up, hup, hput.symm⟩

theorem leads_still_bind {part : DaemonM ι α} {rest : α → DaemonM ι β}
    {post : β → Attachments → Prop} (h : part.Only Still) (hfail : ∀ failure, fail failure held)
    (hrest : ∀ value, Runs setting.next (rest value) post fail held) :
    Runs setting.next (part >>= rest) post fail held := by
  refine ((leads_still h).mono (fun _ _ heq ↦ heq) fun failure _ heq ↦ heq ▸ hfail failure).bind
    fun value held' heq ↦ ?_
  rw [heq]
  exact hrest value

theorem effects_runBootSequence
    (h : held' = held ∨ held' = { held with dispatcher := true }) : setting.Effects held held' := by
  rcases h with rfl | rfl
  · exact .refl
  · exact .single .bringUp

/-- A boot from reset leads by effects to what is held after a boot. When it fails it leaves what
was there or an empty slot. -/
theorem settles_coldBoot (hrelease : Releases setting thread lost)
    (hown : args.l2cpu = setting.l2cpu) :
    Runs setting.next (coldBoot setting.platform thread args)
      (fun _ held' ↦ setting.Effects held held' ∧ ∃ v dtb up, up.Within args.devices ∧
        held' = booted v setting.platform args dtb up)
      (fun _ held' ↦ setting.Effects held held' ∧ (held' = held ∨ held'.slot = none) ∨ lost held')
      held := by
  have htear : Runs setting.next (rpc (handleExistingSlot args.l2cpu args.force))
      (fun _ held' ↦ setting.Effects held held' ∧ held'.slot = none)
      (fun _ held' ↦ held' = held) held := hown ▸ settles_handleExistingSlot args.force
  refine (htear.mono (fun _ _ h ↦ h) fun _ _ h ↦ .inl ⟨h ▸ .refl, .inl h⟩).bind fun _ torn hv ↦ ?_
  refine leads_still_bind (still_rpc (only_tell trivial)) (fun _ ↦ .inl ⟨hv.1, .inr hv.2⟩)
    fun _ ↦ ?_
  refine ((settles_maybeOpportunisticResetBoard thread fun _ ↦ hv.2).mono (fun _ _ h ↦ h)
    fun _ _ h ↦ .inl ⟨hv.1.trans h.1, .inr (h.2 hv.2)⟩).bind fun _ v hreset ↦ ?_
  replace hreset := And.intro (hv.1.trans hreset.1) (hreset.2 hv.2)
  have hnone' {v' : Attachments} (hv' : v' = v ∨ v' = { v with dispatcher := true }) :
      v'.slot = none := by
    rcases hv' with rfl | rfl
    · exact hreset.2
    · exact hreset.2
  refine ((settles_rpc leaves_runBootSequence).mono (fun _ _ h ↦ h) fun _ _ h ↦ .inl
    ⟨hreset.1.trans (effects_runBootSequence h), .inr (hnone' h)⟩).bind fun dtb v' hv' ↦ ?_
  have hloaded : setting.Effects held v' := hreset.1.trans (effects_runBootSequence hv')
  refine leads_still_bind (still_rpc (only_askOk trivial))
    (fun _ ↦ .inl ⟨hloaded, .inr (hnone' hv')⟩) fun _ ↦ ?_
  refine (settles_completeBoot hrelease dtb hown (hnone' hv')).mono (fun _ held' h ↦ ?_)
    fun _ _ h ↦ h.imp_left fun h ↦ ⟨h.1, .inr h.2⟩
  obtain ⟨heffect, up, hup, heq⟩ := h
  exact ⟨hloaded.trans (.single heffect), v', dtb, up, hup, heq⟩

/-! ### Jobs -/

theorem leads_dispatchBoot (thread : ι) (args : BootArgs) (hown : args.l2cpu = setting.l2cpu)
    (hcompletes : setting.Completes) :
    setting.Leads (dispatchBoot setting.platform thread args) held := by
  refine leads_bind (leads_rpc (leadsRpc_still only_require)) fun _ held ↦ ?_
  refine leads_bind (leads_rpc (leadsRpc_still (only_tell trivial))) fun _ held ↦ ?_
  refine leads_bind (leads_rpc (leadsRpc_looks (looks_findParked _))) fun parked held ↦ ?_
  cases parked with
  | some parked =>
    refine leads_rpc ?_
    refine leadsRpc_bind (leadsRpc_looks (looks_takeSlotDtbBytes _)) fun dtbBytes held ↦ ?_
    rw [hown]
    exact leadsRpc_dispatchRelease
  | none =>
    have hrelease : Releases setting thread (fun _ ↦ False) := fun held hslot hconsoles ↦
      settles_releaseL2cpuFromReset thread setting.l2cpu hcompletes hslot hconsoles
    exact (settles_coldBoot hrelease hown).mono (fun _ _ h ↦ h.1)
      fun _ _ h ↦ (h.resolve_right id).1

/-- Every job for the L2CPU leads by effects from what is held before it to what is held after
it. -/
theorem leads_job (thread : ι) (job : Job) (lastParked : Bool) (hjob : job.l2cpu = setting.l2cpu)
    (hcompletes : setting.Completes) :
    setting.Leads (job.run setting.platform thread lastParked) held := by
  have hpure (value : Bool) (held : Attachments) :
      setting.Leads (pure value : DaemonM ι Bool) held := settles_pure .refl
  cases job with
  | boot args =>
    exact leads_bind (leads_dispatchBoot thread args hjob hcompletes) fun _ held ↦ hpure _ held
  | stop target =>
    obtain rfl : target = setting.l2cpu := hjob
    exact leads_bind (leads_dispatchStop thread) fun _ held ↦ hpure _ held
  | device target request =>
    obtain rfl : target = setting.l2cpu := hjob
    refine leads_bind (leads_rpc (leadsRpc_request request)) fun _ held ↦ ?_
    refine leads_bind (leads_rpc (leadsRpc_still (only_tell trivial))) fun _ held ↦ hpure _ held
  | probe target fresh =>
    obtain rfl : target = setting.l2cpu := hjob
    exact leads_rpc leadsRpc_parkProbe

end Setting

end Bhx.Daemon
