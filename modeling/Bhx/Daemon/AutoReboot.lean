import Bhx.Daemon.DiskRequests
import Bhx.Daemon.BootInputs

/-!
# Automatic reboots

When a guest asks for a reboot, the console thread attaches its network anew and releases it,
without a request that could say how. It works from what the last boot from reset has left in the
slot: the payload and the forwards of that boot (`L2CpuSlot.bootPayload`, `L2CpuSlot.netExtraFwd`).
Later requests do not update these. So after a release with another payload an automatic reboot
brings back the old one, and a network that was attached with another SSH port, with other forwards
or with a host name comes back without them (`reboot_forgets`).

`reboot_reproduces` says that this is all. A history of one L2CPU is a list of boots, releases,
device requests and probes, next to anything else (`SlotEvent`). If boots of an occupied slot name
the payload that is kept in it, and if networks are attached with the usual SSH port, without a host
name and with the forwards that are kept, then a reboot in which no step fails loads the payload
that was booted last and leaves the network as it was.

Scope. One L2CPU and one request at a time. Another L2CPU shows only as the environment, which may
also empty the slot.
-/

set_option autoImplicit false

namespace Bhx.Daemon

open SharedMemory Chip Machine.L1Layout List Attachments L2CpuSlot

variable {ι : Type} {keeps : Option BootPayload → Forwards → Prop} {v : GuestView}
  {slot : L2CpuSlot} {booted : Option BootPayload} {parked : ParkedReleaseMeta}
  (payload : BootPayload) (args : DeviceArgs) (thread : ι) (addr : ℕ)

/-! ### What is kept for a reboot -/

/-- The network device that an automatic reboot attaches. -/
def L2CpuSlot.rebootNet (slot : L2CpuSlot) (platform : Platform) (l2cpu : L2CpuIdx) : Device :=
  .net (netForwards (sshPort platform.card l2cpu) slot.netExtraFwd) none

/-- What is kept in the slot is as it should be, and a network that is attached is the one that a
reboot would attach. -/
structure Attachments.Tracks (held : Attachments) (platform : Platform) (l2cpu : L2CpuIdx)
    (keeps : Option BootPayload → Forwards → Prop) : Prop where
  cache : ∀ slot ∈ held.slot, keeps slot.bootPayload slot.netExtraFwd
  disks : ∀ slot ∈ held.slot, ∀ disk ∈ slot.disks, disk.devIdx ∈ blockDevs
  net : ∀ slot ∈ held.slot, slot.net = true → held.dispatcher = true ∧
    held.registry devNet = some (slot.rebootNet platform l2cpu)

variable {held : Attachments}

section Tracks

variable {platform : Platform} {l2cpu : L2CpuIdx}

theorem Attachments.tracks_of_none (h : held.slot = none) : held.Tracks platform l2cpu keeps where
  cache slot hslot := absurd (h.symm.trans hslot) (Option.some_ne_none slot).symm
  disks slot hslot := absurd (h.symm.trans hslot) (Option.some_ne_none slot).symm
  net slot hslot := absurd (h.symm.trans hslot) (Option.some_ne_none slot).symm

theorem Attachments.Tracks.mono (h : held.Tracks platform l2cpu keeps)
    {keeps' : Option BootPayload → Forwards → Prop}
    (hkeeps : ∀ slot ∈ held.slot, keeps slot.bootPayload slot.netExtraFwd →
      keeps' slot.bootPayload slot.netExtraFwd) : held.Tracks platform l2cpu keeps' :=
  ⟨fun slot hslot ↦ hkeeps slot hslot (h.cache slot hslot), h.disks, h.net⟩

/-- The slot keeps what it has for a reboot and has no new disks. -/
structure L2CpuSlot.Keeps (slot slot' : L2CpuSlot) : Prop where
  payload : slot'.bootPayload = slot.bootPayload
  forwards : slot'.netExtraFwd = slot.netExtraFwd
  disks : ∀ disk ∈ slot'.disks, disk ∈ slot.disks ∨ disk.devIdx ∈ blockDevs

variable (h : held.Tracks platform l2cpu keeps)
include h

theorem Attachments.Tracks.attach (hslot : held.slot = some slot) (slot' : L2CpuSlot)
    (hkeeps : slot.Keeps slot') (devIdx : ℕ) (hdev : devIdx ≠ devNet)
    (hnet : slot'.net = slot.net) (device : Device) :
    (held.attach slot' devIdx device).Tracks platform l2cpu keeps := by
  refine ⟨fun _ heq ↦ ?_, fun _ heq disk hdisk ↦ ?_, fun _ heq hnet' ↦ ?_⟩
  · obtain rfl := Option.some.inj heq
    rw [hkeeps.payload, hkeeps.forwards]
    exact h.cache slot hslot
  · obtain rfl := Option.some.inj heq
    exact (hkeeps.disks disk hdisk).elim (h.disks slot hslot disk) id
  · obtain rfl := Option.some.inj heq
    obtain ⟨hdisp, hreg⟩ := h.net slot hslot (hnet ▸ hnet')
    refine ⟨hdisp, ?_⟩
    rw [rebootNet, hkeeps.forwards]
    exact (Function.update_of_ne (Ne.symm hdev) _ _).trans hreg

theorem Attachments.Tracks.attachNet (hslot : held.slot = some slot)
    (hdisp : held.dispatcher = true) :
    (held.attach { slot with net := true } devNet (slot.rebootNet platform l2cpu)).Tracks platform
      l2cpu keeps := by
  refine ⟨fun _ heq ↦ ?_, fun _ heq disk hdisk ↦ ?_, fun _ heq _ ↦ ?_⟩
  · obtain rfl := Option.some.inj heq
    exact h.cache slot hslot
  · obtain rfl := Option.some.inj heq
    exact h.disks slot hslot disk hdisk
  · obtain rfl := Option.some.inj heq
    refine ⟨hdisp, ?_⟩
    change Function.update held.registry devNet _ devNet = _
    rfl

theorem Attachments.Tracks.edited (edit : L2CpuSlot → L2CpuSlot)
    (hedit : ∀ slot ∈ held.slot, slot.Keeps (edit slot))
    (hnet : ∀ slot ∈ held.slot, (edit slot).net = true → slot.net = true) :
    (held.withSlot (held.slot.map edit)).Tracks platform l2cpu keeps := by
  refine ⟨fun _ heq ↦ ?_, fun _ heq disk hdisk ↦ ?_, fun _ heq hnet' ↦ ?_⟩
  · obtain ⟨slot, hslot, rfl⟩ := Option.map_eq_some_iff.mp heq
    rw [(hedit slot hslot).payload, (hedit slot hslot).forwards]
    exact h.cache slot hslot
  · obtain ⟨slot, hslot, rfl⟩ := Option.map_eq_some_iff.mp heq
    exact ((hedit slot hslot).disks disk hdisk).elim (h.disks slot hslot disk) id
  · obtain ⟨slot, hslot, rfl⟩ := Option.map_eq_some_iff.mp heq
    rw [rebootNet, (hedit slot hslot).forwards]
    exact h.net slot hslot (hnet slot hslot hnet')

theorem Attachments.Tracks.unregistered (devs : List ℕ)
    (hdevs : ∀ slot ∈ held.slot, slot.net = true → devNet ∉ devs) :
    (held.without devs).Tracks platform l2cpu keeps := by
  refine ⟨h.cache, h.disks, fun slot hslot hnet ↦ ?_⟩
  obtain ⟨hdisp, hreg⟩ := h.net slot hslot hnet
  refine ⟨hdisp, ?_⟩
  change (if held.dispatcher = true ∧ devNet ∈ devs then none else held.registry devNet) = _
  rw [if_neg fun hboth ↦ hdevs slot hslot hnet hboth.2]
  exact hreg

end Tracks

/-! ### Handlers that keep it -/

variable {α : Type}

section Handlers

variable {locks : Locks} {platform : Platform} {l2cpu : L2CpuIdx} {part : RpcM α}

/-- A part keeps what a reboot needs, whether it fails or not. -/
abbrev KeepsTrack (locks : Locks) (platform : Platform) (l2cpu : L2CpuIdx)
    (keeps : Option BootPayload → Forwards → Prop) (part : RpcM α) (held : Attachments) : Prop :=
  Leaves locks l2cpu part (fun _ held' ↦ held'.Tracks platform l2cpu keeps)
    (fun held' ↦ held'.Tracks platform l2cpu keeps) held

theorem keepsTrack_bind {β : Type} {rest : α → RpcM β}
    (h : KeepsTrack locks platform l2cpu keeps part held)
    (hrest : ∀ value held', held'.Tracks platform l2cpu keeps →
      KeepsTrack locks platform l2cpu keeps (rest value) held') :
    KeepsTrack locks platform l2cpu keeps (part >>= rest) held :=
  Settles.bind h hrest

theorem keepsTrack_still (hpart : part.Only RpcOp.Still) (h : held.Tracks platform l2cpu keeps) :
    KeepsTrack locks platform l2cpu keeps part held :=
  (leaves_still hpart).mono (fun _ _ heq ↦ heq ▸ h) fun _ _ heq ↦ heq ▸ h

theorem keepsTrack_caught {part : RpcM Unit} (h : KeepsTrack locks platform l2cpu keeps part held) :
    KeepsTrack locks platform l2cpu keeps (caught part) held :=
  settles_caught (h.mono (fun _ _ htracks ↦ htracks) fun _ _ htracks ↦ ⟨htracks, htracks⟩)

theorem composes_keepsTrack : Composes RpcOp.Still fun _ part ↦ ∀ held : Attachments,
    held.Tracks platform l2cpu keeps → KeepsTrack locks platform l2cpu keeps part held where
  only hpart _ := keepsTrack_still hpart
  bind h hrest held htracks := keepsTrack_bind (h held htracks) hrest
  caught h held htracks := keepsTrack_caught (h held htracks)

/-- A part that needs to know the forwards that are kept. -/
theorem keepsTrack_of_forwards (only : Forwards → Prop)
    (honly : ∀ slot ∈ held.slot, only slot.netExtraFwd) (hpart :
      held.Tracks platform l2cpu (fun payload forwards ↦ keeps payload forwards ∧ only forwards) →
        KeepsTrack locks platform l2cpu
          (fun payload forwards ↦ keeps payload forwards ∧ only forwards)
          part held) (h : held.Tracks platform l2cpu keeps) :
    KeepsTrack locks platform l2cpu keeps part held :=
  (hpart (h.mono fun slot hslot hkeeps ↦ ⟨hkeeps, honly slot hslot⟩)).mono
    (fun _ _ htracks ↦ htracks.mono fun _ _ hkeeps ↦ hkeeps.1)
    fun _ _ htracks ↦ htracks.mono fun _ _ hkeeps ↦ hkeeps.1

theorem keepsTrack_addDisk (path : Path) (name : Option Serial)
    (h : held.Tracks platform l2cpu keeps) :
    KeepsTrack locks platform l2cpu keeps (dispatchAddDisk l2cpu path name) held := by
  refine (leaves_dispatchAddDisk l2cpu held path name).mono (fun _ _ hheld' ↦ ?_)
    fun _ _ heq ↦ heq ▸ h
  obtain ⟨-, slot, devIdx, hslot, -, hpick, rfl⟩ := hheld'
  have hblock := (mem_of_pickFreeBlkSlot hpick).1
  have hkeeps : slot.Keeps { slot with disks := slot.disks ++ [⟨path, name, devIdx⟩] } := by
    refine ⟨rfl, rfl, fun disk hdisk ↦ ?_⟩
    rcases mem_append.mp hdisk with hold | hnew
    · exact .inl hold
    · rw [mem_singleton.mp hnew]
      exact .inr hblock
  exact h.attach hslot _ hkeeps devIdx (ne_of_mem_blockDevs hblock).1 rfl _

theorem keepsTrack_addNet {sshPortOverride : Option ℕ} {extraFwd : Forwards}
    (hport : sshPortOverride.getD (sshPort platform.card l2cpu) = sshPort platform.card l2cpu)
    (hforwards : ∀ payload forwards, keeps payload forwards → extraFwd = forwards)
    (h : held.Tracks platform l2cpu keeps) :
    KeepsTrack locks platform l2cpu keeps (dispatchAddNet platform l2cpu sshPortOverride extraFwd)
      held := by
  refine (leaves_dispatchAddNet l2cpu held platform sshPortOverride extraFwd).mono
    (fun _ _ hheld' ↦ ?_) fun _ _ heq ↦ heq ▸ h
  obtain ⟨hdisp, slot, hslot, -, rfl⟩ := hheld'
  rw [hport, hforwards _ _ (h.cache slot hslot)]
  exact h.attachNet hslot hdisp

theorem L2CpuSlot.keeps_withoutDisks (slot : L2CpuSlot) (name : Option Serial) :
    slot.Keeps (slot.withoutDisks name) ∧ (slot.withoutDisks name).net = slot.net := by
  cases name with
  | none =>
    unfold withoutDisks
    split_ifs
    · exact ⟨⟨rfl, rfl, fun _ hdisk ↦ .inl hdisk⟩, rfl⟩
    · exact ⟨⟨rfl, rfl, fun _ hdisk ↦ nomatch hdisk⟩, rfl⟩
  | some want => exact ⟨⟨rfl, rfl, fun _ hdisk ↦ .inl (mem_of_mem_filter hdisk)⟩, rfl⟩

theorem L2CpuSlot.mem_of_mem_takenDisks {name : Option Serial} {disk : DiskWorker}
    (h : disk ∈ slot.takenDisks name) : disk ∈ slot.disks := by
  cases name with
  | none => exact h
  | some want => exact mem_of_mem_filter h

section

variable (h : held.Tracks platform l2cpu keeps)
include h

theorem keepsTrack_addConsole :
    KeepsTrack locks platform l2cpu keeps (dispatchAddConsole l2cpu) held := by
  refine (leaves_dispatchAddConsole l2cpu held).mono (fun _ _ hheld' ↦ ?_) fun _ _ heq ↦ heq ▸ h
  obtain ⟨-, slot, hslot, -, rfl⟩ := hheld'
  have hkeeps : slot.Keeps { slot with virtioConsole := true } :=
    ⟨rfl, rfl, fun _ hdisk ↦ .inl hdisk⟩
  exact h.attach hslot _ hkeeps devConsole (by decide) rfl _

theorem keepsTrack_attachRngInline :
    KeepsTrack locks platform l2cpu keeps (attachRngInline l2cpu) held := by
  refine (leaves_attachRngInline l2cpu held).mono (fun _ _ hheld' ↦ ?_) fun _ _ heq ↦ heq ▸ h
  obtain ⟨-, slot, hslot, rfl⟩ := hheld'
  have hkeeps : slot.Keeps { slot with virtioRng := true } := ⟨rfl, rfl, fun _ hdisk ↦ .inl hdisk⟩
  exact h.attach hslot _ hkeeps devRng (by decide) rfl _

theorem tracks_detached :
    (held.withSlot (held.slot.map detached)).Tracks platform l2cpu keeps :=
  h.edited detached (fun _ _ ↦ ⟨rfl, rfl, fun _ hdisk ↦ nomatch hdisk⟩) fun _ _ hnet ↦ nomatch hnet

theorem keepsTrack_detachWorkers (strict : Bool) :
    KeepsTrack locks platform l2cpu keeps (detachWorkers l2cpu strict) held := by
  have hgone (devs : List ℕ) :
      ((held.withSlot (held.slot.map detached)).without devs).Tracks platform l2cpu keeps := by
    refine (tracks_detached h).unregistered devs fun slot hslot hnet ↦ ?_
    obtain ⟨_, -, rfl⟩ := Option.map_eq_some_iff.mp hslot
    exact nomatch hnet
  refine (leaves_detachWorkers l2cpu held strict).mono (fun _ _ hheld' ↦ ?_) fun _ _ hheld' ↦ ?_
  · rcases hheld' with ⟨-, -, rfl⟩ | ⟨-, rfl | ⟨-, -, rfl⟩⟩
    · exact h
    · exact hgone _
    · exact tracks_detached h
  · rw [hheld'.2]
    exact tracks_detached h

theorem keepsTrack_removeDisk (name : Option Serial) :
    KeepsTrack locks platform l2cpu keeps (dispatchRemoveDisk l2cpu name) held := by
  have hedited : (held.withSlot (held.slot.map (withoutDisks name))).Tracks platform l2cpu keeps :=
    h.edited (withoutDisks name) (fun slot _ ↦ (slot.keeps_withoutDisks name).1)
      fun slot _ hnet ↦ (slot.keeps_withoutDisks name).2 ▸ hnet
  refine (leaves_dispatchRemoveDisk l2cpu held name).mono (fun _ _ hheld' ↦ ?_)
    fun _ _ hheld' ↦ ?_
  · obtain ⟨-, slot, hslot, -, rfl⟩ := hheld'
    rw [hslot] at hedited
    refine hedited.unregistered _ fun _ _ _ hmem ↦ ?_
    obtain ⟨disk, hdisk, hdev⟩ := mem_map.mp hmem
    have hblock := h.disks slot hslot disk (mem_of_mem_takenDisks hdisk)
    exact (ne_of_mem_blockDevs hblock).1 hdev
  · rcases hheld' with ⟨rfl, -⟩ | ⟨-, -, slot, hslot, -, rfl⟩
    · exact h
    · rwa [hslot] at hedited

/-- A device that is detached while its slot cannot be looked at is not the network. -/
theorem keepsTrack_detachDevice {devIdx : ℕ} {has : L2CpuSlot → Bool} {take : L2CpuSlot → L2CpuSlot}
    (htake : ∀ slot : L2CpuSlot, slot.Keeps (take slot))
    (hnet : ∀ slot : L2CpuSlot, (take slot).net = true → slot.net = true ∧ devNet ∉ [devIdx])
    (hlock : locks (.slot l2cpu) false → devNet ∉ [devIdx]) :
    KeepsTrack locks platform l2cpu keeps (detachDevice l2cpu devIdx has take) held := by
  have hdetach : ((held.without [devIdx]).withSlot (held.slot.map take)).Tracks platform l2cpu
      keeps := by
    have hedited := h.edited take (fun slot _ ↦ htake slot) fun slot _ hkept ↦ (hnet slot hkept).1
    refine hedited.unregistered [devIdx] fun slot' hslot' hkept ↦ ?_
    obtain ⟨slot, -, rfl⟩ := Option.map_eq_some_iff.mp hslot'
    exact (hnet slot hkept).2
  refine (leaves_detachDevice l2cpu held devIdx has take).mono
    (fun _ _ hheld' ↦ hheld'.2.2 ▸ hdetach)
    fun _ _ hheld' ↦ ?_
  rcases hheld' with ⟨-, rfl⟩ | ⟨-, ⟨hrefused, rfl⟩ | ⟨-, rfl⟩⟩
  · exact h
  · exact h.unregistered _ fun _ _ _ ↦ hlock hrefused
  · exact hdetach

/-- A request for a device. A network is attached as a reboot would attach it. -/
theorem keepsTrack_request (request : DeviceRequest)
    (hnet : ∀ sshPort' extraFwd, request = .addNet sshPort' extraFwd →
      sshPort'.getD (sshPort platform.card l2cpu) = sshPort platform.card l2cpu ∧
        ∀ payload forwards, keeps payload forwards → extraFwd = forwards)
    (hlock : request = .removeNet → ¬ locks (.slot l2cpu) false) :
    KeepsTrack locks platform l2cpu keeps (request.dispatch platform l2cpu) held := by
  cases request with
  | addDisk path name => exact keepsTrack_addDisk path name h
  | removeDisk name => exact keepsTrack_removeDisk h name
  | addNet sshPort' extraFwd =>
    obtain ⟨hport, hforwards⟩ := hnet sshPort' extraFwd rfl
    exact keepsTrack_addNet hport hforwards h
  | removeNet =>
    exact keepsTrack_detachDevice h (fun _ ↦ ⟨rfl, rfl, fun _ hdisk ↦ .inl hdisk⟩)
      (fun _ hnet ↦ nomatch hnet) fun hrefused ↦ absurd hrefused (hlock rfl)
  | addConsole => exact keepsTrack_addConsole h
  | removeConsole =>
    exact keepsTrack_detachDevice h (fun _ ↦ ⟨rfl, rfl, fun _ hdisk ↦ .inl hdisk⟩)
      (fun _ hnet ↦ ⟨hnet, by decide⟩) fun _ ↦ by decide

theorem keepsTrack_swap (hnet : args.network = true →
      ∀ payload forwards, keeps payload forwards → args.extraFwd = forwards) :
    KeepsTrack locks platform l2cpu keeps (swapAttachedForRelease platform l2cpu args) held := by
  exact composes_keepsTrack.swapAttachedForRelease trivial
    (fun _ htracks ↦ keepsTrack_detachWorkers htracks true) (fun path name _ ↦
    keepsTrack_addDisk path name) (fun hasked _ ↦ keepsTrack_addNet rfl (hnet hasked)) (fun _ ↦
    keepsTrack_addConsole) (fun _ ↦ keepsTrack_attachRngInline) held h

theorem keepsTrack_dispatchRelease {parked : ParkedReleaseMeta} {dtbBytes : Option Image}
    {args : DeviceArgs} (hnet : args.network = true →
      ∀ payload forwards, keeps payload forwards → args.extraFwd = forwards) :
    KeepsTrack locks platform l2cpu keeps
      (dispatchRelease platform l2cpu payload parked dtbBytes args)
      held :=
  composes_keepsTrack.dispatchRelease (fun _ _ htracks ↦ keepsTrack_swap args htracks hnet) held h

theorem keepsTrack_releaseParked (args : BootArgs) (parked : ParkedReleaseMeta)
    (hl2cpu : args.l2cpu = l2cpu) (hnet : args.devices.network = true →
      ∀ payload forwards, keeps payload forwards → args.devices.extraFwd = forwards) :
    KeepsTrack locks platform l2cpu keeps (releaseParked platform args parked) held := by
  subst hl2cpu
  refine keepsTrack_bind (keepsTrack_still ((looks_takeSlotDtbBytes _).allow fun _ hop ↦ hop.still)
    h) fun dtbBytes held1 h1 ↦ ?_
  exact keepsTrack_dispatchRelease _ h1 hnet

theorem tracks_dropNetForReboot :
    Leaves locks l2cpu (dropNetForReboot l2cpu)
      (fun extraFwd held' ↦ held'.Tracks platform l2cpu keeps ∧
        ∀ forwards ∈ extraFwd, ∃ slot ∈ held.slot, forwards = slot.netExtraFwd)
      (fun _ ↦ False) held := by
  refine (leaves_dropNetForReboot l2cpu held).imp fun _ held' hheld' ↦ ?_
  rcases hheld' with ⟨rfl, rfl⟩ | ⟨slot, hslot, -, -, rfl, hleft⟩
  · exact ⟨h, nofun⟩
  · have hedited := h.edited (fun slot ↦ { slot with net := false })
      (fun _ _ ↦ ⟨rfl, rfl, fun _ hdisk ↦ .inl hdisk⟩) fun _ _ hnet ↦ nomatch hnet
    rw [hslot, Option.map_some] at hedited
    refine ⟨?_, fun forwards hforwards ↦ ⟨slot, hslot, (Option.some.inj hforwards).symm⟩⟩
    rcases hleft with rfl | ⟨-, rfl⟩
    · refine hedited.unregistered _ fun slot' hslot' hnet ↦ ?_
      obtain rfl := Option.some.inj hslot'
      exact nomatch hnet
    · exact hedited

/-- `rebootParked`, with whether the guest was released. -/
def rebootReport (platform : Platform) (l2cpu : L2CpuIdx) : RpcM Bool := do
  let extraFwd ← dropNetForReboot l2cpu
  forSome extraFwd fun extraFwd ↦ do
    let _ ← caught (do
      let _ ← askOk .trial
      dispatchAddNet platform l2cpu none extraFwd)
  let released ← caught (autoReleaseForReboot platform l2cpu)
  tell (.note (.completed l2cpu))
  pure released

omit h in
theorem rebootParked_eq (platform : Platform) (l2cpu : L2CpuIdx) :
    rebootParked platform l2cpu = (do let _ ← rebootReport platform l2cpu) := by
  simp only [rebootParked, rebootReport, bind_assoc, pure_bind]
  rfl

theorem keepsTrack_autoReleaseForReboot :
    KeepsTrack locks platform l2cpu keeps (autoReleaseForReboot platform l2cpu) held := by
  exact composes_keepsTrack.autoReleaseForReboot (fun _ hop ↦ hop.still)
    (fun _ htracks ↦ keepsTrack_still only_tell htracks)
    (fun _ _ _ _ htracks ↦ keepsTrack_dispatchRelease _ htracks nofun) held h

/-- A reboot attaches the network with the forwards that are kept. -/
theorem keepsTrack_rebootReport :
    KeepsTrack locks platform l2cpu keeps (rebootReport platform l2cpu) held := by
  have hforwards : ∀ slot ∈ held.slot, ∀ slot' ∈ held.slot, slot'.netExtraFwd = slot.netExtraFwd :=
    fun slot hslot slot' hslot' ↦ by rw [Option.some.inj (hslot'.symm.trans hslot)]
  refine keepsTrack_of_forwards (fun forwards ↦ ∀ slot' ∈ held.slot, slot'.netExtraFwd = forwards)
    hforwards (fun htracks ↦ ?_) h
  refine Settles.bind ((tracks_dropNetForReboot htracks).mono (fun _ _ hpost ↦ hpost)
    fun _ _ hfalse ↦ hfalse.elim) fun extraFwd held1 hdropped ↦ ?_
  obtain ⟨h1, hextra⟩ := hdropped
  refine keepsTrack_bind (settles_forSome (fun forwards heq ↦ ?_) fun _ ↦ h1) fun _ held2 h2 ↦ ?_
  · obtain ⟨slot, hslot, rfl⟩ := hextra forwards heq
    refine keepsTrack_bind (keepsTrack_caught ?_) fun _ _ htracks ↦ settles_pure htracks
    refine keepsTrack_bind (keepsTrack_still only_askOk h1) fun _ held3 h3 ↦ ?_
    exact keepsTrack_addNet rfl (fun _ _ hkeeps ↦ hkeeps.2 slot hslot) h3
  · refine keepsTrack_bind (keepsTrack_caught (keepsTrack_autoReleaseForReboot h2))
      fun _ held3 h3 ↦ ?_
    refine keepsTrack_bind (keepsTrack_still only_tell h3) fun _ _ htracks ↦ ?_
    exact settles_pure htracks

theorem keepsTrack_parkProbe (lastParked : Bool) :
    KeepsTrack locks platform l2cpu keeps (parkProbe platform l2cpu lastParked) held := by
  refine composes_keepsTrack.parkProbe (fun _ hop ↦ hop.still) (fun held h ↦ ?_)
    (fun _ htracks ↦ keepsTrack_detachWorkers htracks false) lastParked held h
  rw [rebootParked_eq]
  exact keepsTrack_bind (keepsTrack_rebootReport h) fun _ _ htracks ↦ settles_pure htracks

end

end Handlers

/-! ### Boots -/

/-- What is kept of a payload is the one that was booted last. -/
def Caches (booted : Option BootPayload) (payload : Option BootPayload) (_ : Forwards) : Prop :=
  ∀ kept ∈ payload, booted = some kept

section Boots

variable {platform : Platform} {l2cpu : L2CpuIdx}

/-- What a request for a boot may ask of an L2CPU. A network has no host name of its own. Of a slot
that is not empty it names the payload that is kept, and the forwards if it asks for a network. -/
structure BootArgs.Repeats (args : BootArgs) (slot : Option L2CpuSlot) : Prop where
  hostname : args.devices.network = true → args.hostnameOverride = none
  payload : ∀ kept ∈ slot, ∀ payload ∈ kept.bootPayload, payload = args.payload
  forwards : args.devices.network = true → ∀ kept ∈ slot, args.devices.extraFwd = kept.netExtraFwd

/-- A boot from reset keeps its own payload and forwards. -/
theorem tracks_booted (v : Attachments) (args : BootArgs) (dtb : Image) {up : BootDevices}
    (hwithin : up.Within args.devices)
    (hhostname : args.devices.network = true → args.hostnameOverride = none) :
    (v.booted platform args dtb up).Tracks platform args.l2cpu (Caches (some args.payload)) := by
  by_cases hdisp : v.dispatcher = true
  · rw [booted_of_dispatcher _ _ _ _ hdisp]
    refine ⟨fun slot hslot payload hpayload ↦ ?_, fun slot hslot disk hdisk ↦ ?_,
      fun slot hslot hnet ↦ ⟨?_, ?_⟩⟩
    · obtain rfl := Option.some.inj hslot
      exact hpayload
    · obtain rfl := Option.some.inj hslot
      have hdevs : disk.devIdx = devBlk ∨ disk.devIdx = devBlk1 := by
        rcases mem_append.mp hdisk with hroot | hseed
        · obtain ⟨_, -, rfl⟩ := mem_map.mp hroot
          exact .inl rfl
        · obtain ⟨_, -, rfl⟩ := mem_map.mp hseed
          exact .inr rfl
      rcases hdevs with hdev | hdev
      · simp [hdev, blockDevs]
      · simp [hdev, blockDevs]
    · simpa [registerAll, put] using hdisp
    · obtain rfl := Option.some.inj hslot
      have hup : up.net = true := hnet
      simp [registerAll, put, hup, rebootNet, bootSlot, freshSlot,
        BootArgs.netDevice, hhostname (hwithin.net hup), devNet, devConsole]
  · rw [booted_of_none _ _ _ _ hdisp]
    refine ⟨fun slot hslot payload hpayload ↦ ?_, fun slot hslot disk hdisk ↦ ?_,
      fun slot hslot hnet ↦ ?_⟩
    · obtain rfl := Option.some.inj hslot
      exact hpayload
    · obtain rfl := Option.some.inj hslot
      cases hdisk
    · obtain rfl := Option.some.inj hslot
      cases hnet

theorem tracks_coldBoot {args : BootArgs} (hl2cpu : args.l2cpu = l2cpu)
    (hhostname : args.devices.network = true → args.hostnameOverride = none)
    (h : held.Tracks platform l2cpu keeps) :
    Settles (Setting.any ι platform l2cpu .any).next (fun _ _ ↦ True)
      (coldBoot platform thread args)
      (fun _ held' ↦ held'.Tracks platform l2cpu (Caches (some args.payload)))
      (fun _ held' ↦ held'.Tracks platform l2cpu keeps) held := by
  have hrelease : Setting.Releases (Setting.any ι platform l2cpu .any) thread
      fun held' ↦ held'.slot = none := fun _ hslot _ ↦
    (Setting.leads_still (Setting.still_releaseL2cpuFromReset thread l2cpu)).mono
      (fun _ _ heq ↦ heq) fun _ _ heq ↦ heq ▸ hslot
  refine (Setting.settles_coldBoot hrelease hl2cpu).mono (fun _ held' hbooted ↦ ?_)
    fun _ held' hfailed ↦ ?_
  · obtain ⟨-, v, dtb, up, hwithin, rfl⟩ := hbooted
    subst hl2cpu
    exact tracks_booted v args dtb hwithin hhostname
  · rcases hfailed with ⟨-, rfl | hnone⟩ | hnone
    · exact h
    · exact tracks_of_none hnone
    · exact tracks_of_none hnone

/-- A boot, from reset or by a release, keeps the payload that was booted last. -/
theorem tracks_dispatchBoot {args : BootArgs} (hl2cpu : args.l2cpu = l2cpu)
    (hrepeats : args.Repeats held.slot) (h : held.Tracks platform l2cpu (Caches booted)) :
    Settles (Setting.any ι platform l2cpu .any).next (fun _ _ ↦ True)
      (dispatchBoot platform thread args)
      (fun _ held' ↦ held'.Tracks platform l2cpu (Caches (some args.payload)))
      (fun _ held' ↦ held'.Tracks platform l2cpu (Caches booted)) held := by
  let keeps (payload : Option BootPayload) (forwards : Forwards) : Prop :=
    (∀ kept ∈ payload, booted = some kept ∧ args.payload = kept) ∧
      (args.devices.network = true → args.devices.extraFwd = forwards)
  have hkeeps : held.Tracks platform l2cpu keeps := h.mono fun slot hslot hcaches ↦
    ⟨fun kept hkept ↦ ⟨hcaches kept hkept, (hrepeats.payload slot hslot kept hkept).symm⟩,
      fun hnetwork ↦ hrepeats.forwards hnetwork slot hslot⟩
  have hbefore {held' : Attachments} (htracks : held'.Tracks platform l2cpu keeps) :
      held'.Tracks platform l2cpu (Caches booted) :=
    htracks.mono fun _ _ hcached kept hkept ↦ (hcached.1 kept hkept).1
  have hstill {α : Type} {part : RpcM α} (hpart : part.Only RpcOp.Still) :
      Settles (Setting.any ι platform l2cpu .any).next (fun _ _ ↦ True) (rpc part)
        (fun _ held' ↦ held' = held) (fun _ held' ↦ held'.Tracks platform l2cpu (Caches booted))
        held :=
    (Setting.leads_still (Setting.still_rpc hpart)).mono (fun _ _ heq ↦ heq) fun _ _ heq ↦ heq ▸ h
  refine Settles.bind (hstill only_require) fun _ held' heq ↦ ?_
  rw [heq]
  refine Settles.bind (hstill only_tell) fun _ held' heq ↦ ?_
  rw [heq]
  refine Settles.bind (hstill ((looks_findParked _).allow fun _ hop ↦ hop.still))
    fun parked held' heq ↦ ?_
  rw [heq]
  cases parked with
  | some parked =>
    have hrelease :
        KeepsTrack .any platform l2cpu keeps (releaseParked platform args parked) held :=
      keepsTrack_releaseParked hkeeps args parked hl2cpu fun hnetwork _ _ hkept ↦ hkept.2 hnetwork
    refine (Setting.settles_rpc hrelease).mono (fun _ held' htracks ↦ ?_)
      fun _ held' htracks ↦ hbefore htracks
    exact htracks.mono fun _ _ hkept kept hmem ↦ congrArg some (hkept.1 kept hmem).2
  | none => exact tracks_coldBoot thread hl2cpu hrepeats.hostname h

end Boots

/-! ### A reboot in which no step fails -/

/-- The memory and the attachments, with what is known of the steps to come. -/
structure LuckView where
  faults : Faults
  guest : GuestView

/-- The view of an L2CPU. -/
def DaemonWorld.lucky (l2cpu : L2CpuIdx) (w : DaemonWorld ι) : LuckView := ⟨w.faults, w.guest l2cpu⟩

/-- The steps of the abstraction. While nothing is to fail, no step fails. -/
structure LuckNext (l2cpu : L2CpuIdx) (op : RpcOp) (v : LuckView) (reply : Reply) (v' : LuckView) :
    Prop where
  guest : GuestNext l2cpu op v.guest reply v'.guest
  faults : v.faults = .none → v'.faults = .none
  trial : v.faults = .none → op = .trial → reply.ok = true
  fits : v.faults = .none → op.Fits .sound l2cpu v.guest.held reply

theorem luckNext_rpcExec (l2cpu : L2CpuIdx) (op : RpcOp) (w : DaemonWorld ι) :
    LuckNext l2cpu op (w.lucky l2cpu) (rpcExec op w).1 ((rpcExec op w).2.lucky l2cpu) := by
  refine ⟨guestNext_rpcExec l2cpu op w, rpcExec_faults op, fun hfaults hop ↦ ?_, fun hfaults ↦ ?_⟩
  · subst hop
    have hnone : w.faults = .none := hfaults
    simp [rpcExec, DaemonWorld.luck, hnone, Faults.none]
  · have hnone : w.faults = .none := hfaults
    refine (attachNext_rpcExec l2cpu op w fun mutex _ ↦ ?_).1
    simp [DaemonWorld.poisoned, hnone, Faults.none]

section Lucky

variable {platform : Platform} {l2cpu : L2CpuIdx}

theorem settles_lucky {part : RpcM α} {post : α → GuestView → Prop} {fail : GuestView → Prop}
    {v : LuckView} (hfaults : v.faults = .none) (h : Guests l2cpu part post fail v.guest) :
    Runs (LuckNext l2cpu) part
      (fun value v' ↦ v'.faults = .none ∧ post value v'.guest)
      (fun _ v' ↦ v'.faults = .none ∧ fail v'.guest) v :=
  Settles.lift LuckView.guest
    (fun _ _ hu _ ↦ ⟨trivial, fun _ _ hnext ↦ ⟨hnext.faults hu, hnext.guest⟩⟩) hfaults h

/-- What a part leaves that stores nothing, when every mutex is to be had. -/
theorem lucky_leaves {part : RpcM α} {post : α → Attachments → Prop} {fail : Attachments → Prop}
    {v : LuckView} (hfaults : v.faults = .none) (hpart : part.Only (RpcOp.Storeless l2cpu))
    (h : Leaves .sound l2cpu part post fail v.guest.held) :
    Runs (LuckNext l2cpu) part
      (fun value v' ↦ v'.faults = .none ∧ v'.guest.ram = v.guest.ram ∧ post value v'.guest.held)
      (fun _ v' ↦ v'.faults = .none ∧ v'.guest.ram = v.guest.ram ∧ fail v'.guest.held) v := by
  have hop (op : RpcOp) (u : LuckView) (hu : u.faults = .none ∧ u.guest.ram = v.guest.ram)
      (hop : True ∧ op.Storeless l2cpu) :
      True ∧ ∀ reply u', LuckNext l2cpu op u reply u' →
        (u'.faults = .none ∧ u'.guest.ram = v.guest.ram) ∧
          AttachNext .sound l2cpu op u.guest.held reply u'.guest.held := by
    refine ⟨trivial, fun reply u' hnext ↦ ⟨⟨hnext.faults hu.1, ?_⟩, hnext.fits hu.1, ?_⟩⟩
    · exact (hnext.guest.ram_of_storeless hop.2).trans hu.2
    · exact hnext.guest.held.2
  have hstart : v.faults = .none ∧ v.guest.ram = v.guest.ram := ⟨hfaults, rfl⟩
  exact (Settles.lift (fun v : LuckView ↦ v.guest.held) hop hstart (h.only hpart)).mono
    (fun _ _ hpost ↦ ⟨hpost.1.1, hpost.1.2, hpost.2⟩)
    fun _ _ hfail ↦ ⟨hfail.1.1, hfail.1.2, hfail.2⟩

theorem lucky_trial {rest : Reply → RpcM α} {post : α → LuckView → Prop}
    {fail : Failure → LuckView → Prop} {v : LuckView} (hfaults : v.faults = .none)
    (h : ∀ reply v', v'.faults = .none → v'.guest = v.guest →
      Runs (LuckNext l2cpu) (rest reply) post fail v') :
    Runs (LuckNext l2cpu) (askOk .trial >>= rest) post fail v := by
  refine runs_askOk (fun reply v' hnext hok ↦ ?_) fun reply v' hnext _ ↦ ?_
  · exact absurd (hnext.trial hfaults rfl) (by simp [hok])
  · exact h reply v' (hnext.faults hfaults)
      (hnext.guest.eq (hnext.guest.ram_of_storeless rfl) trivial)

/-- Nothing keeps a network from being attached to a slot without one. -/
theorem lucky_dispatchAddNet {v : LuckView} (hfaults : v.faults = .none)
    (hslot : v.guest.held.slot = some slot) (hnet : slot.net = false)
    (hdisp : v.guest.held.dispatcher = true) {extraFwd : Forwards} :
    Runs (LuckNext l2cpu) (dispatchAddNet platform l2cpu none extraFwd)
      (fun _ v' ↦ v'.faults = .none ∧ v'.guest.ram = v.guest.ram ∧ v'.guest.held =
        v.guest.held.attach { slot with net := true } devNet
          (.net (netForwards (sshPort platform.card l2cpu) extraFwd) none))
      (fun _ _ ↦ False) v := by
  have hends : Runs (LuckNext l2cpu)
      (dispatchAddNet platform l2cpu none extraFwd) (fun _ _ ↦ True) (fun _ _ ↦ False) v := by
    unfold dispatchAddNet bootedSlot
    rw [bind_assoc]
    refine runs_ask fun reply v1 hnext ↦ ?_
    have hfaults1 := hnext.faults hfaults
    have hguest1 : v1.guest = v.guest := hnext.guest.eq (hnext.guest.ram_of_storeless rfl) trivial
    obtain ⟨hgot, hfound⟩ := hnext.fits hfaults
    rw [hfound rfl, if_pos hgot, hslot, pure_bind, hnet]
    refine Settles.bind (settles_forM (fun _ (v' : LuckView) ↦ v'.faults = .none ∧
      v'.guest = v.guest) (fun _ _ v' hv' ↦ ?_) _ ⟨hfaults1, hguest1⟩) fun _ v2 hv2 ↦ ?_
    · refine lucky_trial hv'.1 fun _ v'' hfaults'' hguest'' ↦ settles_pure ?_
      exact ⟨hfaults'', hguest''.trans hv'.2⟩
    · refine runs_askOk (fun reply v3 hnext3 hok ↦ ?_) fun reply v3 hnext3 _ ↦ ?_
      · obtain ⟨hgot3, hreply⟩ := hnext3.fits hv2.1
        rw [hgot3, hv2.2, hdisp, hok] at hreply
        exact Bool.false_ne_true hreply
      · refine lucky_trial (hnext3.faults hv2.1) fun _ _ _ _ ↦ ?_
        exact runs_tell fun _ _ _ ↦ runs_tell fun _ _ _ ↦ settles_pure trivial
  have hspec := lucky_leaves hfaults (attaches_storeless.does_dispatchAddNet rfl)
    (leaves_dispatchAddNet l2cpu v.guest.held platform none extraFwd)
  refine (hends.and hspec).mono (fun _ v' hv' ↦ ?_) fun _ _ hfalse ↦ hfalse.1
  obtain ⟨-, hfaults', hram, -, slot', hslot', -, hheld⟩ := hv'
  obtain rfl : slot = slot' := Option.some.inj (hslot.symm.trans hslot')
  exact ⟨hfaults', hram, hheld⟩

/-- The network that a reboot attaches takes the place of the one it has dropped. -/
theorem Attachments.Tracks.reattach (h : held.Tracks platform l2cpu keeps)
    (hslot : held.slot = some slot) (hnet : slot.net = true) :
    ((held.withSlot (some { slot with net := false })).without [devNet]).attach
      { slot with net := true } devNet (slot.rebootNet platform l2cpu) = held := by
  obtain ⟨_, hreg⟩ := h.net slot hslot hnet
  have hsame : { slot with net := true } = slot := by
    rw [← hnet]
  rw [hsame]
  ext1
  · exact hslot.symm
  · funext devIdx
    by_cases hdev : devIdx = devNet
    · simp [Attachments.attach, hdev, hreg]
    · simp [Attachments.attach, Attachments.without, Attachments.withSlot, hdev]
  · rfl
  · rfl
  · rfl

theorem guests_read32 :
    Guests l2cpu (read32 l2cpu addr)
      (fun value v' ↦ v' = v ∧ ∀ word ∈ value, word = v.ram addr) (fun _ ↦ True) v :=
  runs_ask fun _ _ hnext ↦ settles_pure
    ⟨hnext.eq (hnext.ram_of_storeless rfl) trivial, hnext.word addr rfl⟩

theorem guests_readU64 :
    Guests l2cpu (readU64 l2cpu addr)
      (fun value v' ↦ v' = v ∧ ∀ word ∈ value, word = u64At v.ram addr) (fun _ ↦ True) v := by
  refine Settles.bind (guests_read32 addr) fun lo v1 hlo ↦ ?_
  obtain ⟨rfl, hlo⟩ := hlo
  cases lo with
  | none => exact settles_pure ⟨rfl, nofun⟩
  | some lo =>
    refine Settles.bind (guests_read32 (addr + 4)) fun hi v2 hhi ↦ ?_
    obtain ⟨rfl, hhi⟩ := hhi
    cases hi with
    | none => exact settles_pure ⟨rfl, nofun⟩
    | some hi =>
      refine settles_pure ⟨rfl, fun word hword ↦ ?_⟩
      rw [← Option.some.inj hword, hlo lo rfl, hhi hi rfl]
      rfl

theorem nonzero_of_read {read : Option ℕ} {word value : ℕ} (hread : ∀ word ∈ read, word = value)
    (h : nonzero read = some word) : nonzero (some value) = some word := by
  cases read with
  | none => exact nomatch h
  | some found => rwa [← hread found rfl]

/-- Addresses that were all read are the ones that were published. -/
theorem ofPublished_of_read {nextAddr nextMode nextArg1 hsmState msip : ℕ} {a b c d e : Option ℕ}
    (ha : ∀ word ∈ a, word = nextAddr) (hb : ∀ word ∈ b, word = nextMode)
    (hc : ∀ word ∈ c, word = nextArg1) (hd : ∀ word ∈ d, word = hsmState)
    (he : ∀ word ∈ e, word = msip) (h : ParkedReleaseMeta.ofPublished a b c d e = some parked) :
    ParkedReleaseMeta.ofPublished (some nextAddr) (some nextMode) (some nextArg1) (some hsmState)
      (some msip) = some parked := by
  simp only [ParkedReleaseMeta.ofPublished, Option.bind_eq_bind, Option.bind_eq_some_iff] at h ⊢
  obtain ⟨na, hna, nm, hnm, n1, hn1, hs, hhs, ms, hms, heq⟩ := h
  exact ⟨na, nonzero_of_read ha hna, nm, nonzero_of_read hb hnm, n1, nonzero_of_read hc hn1, hs,
    nonzero_of_read hd hhs, ms, nonzero_of_read he hms, heq⟩

theorem guests_readParkedReleaseMeta :
    Guests l2cpu (readParkedReleaseMeta l2cpu)
      (fun found v' ↦ v' = v ∧ ∀ parked ∈ found, v.parked l2cpu = some parked)
      (fun _ ↦ True) v := by
  refine runs_askOk (fun _ _ _ _ ↦ trivial) fun reply v1 hnext hok ↦ ?_
  rw [hnext.eq (hnext.ram_of_storeless rfl) trivial, hnext.held.1.2 rfl, if_pos hok]
  by_cases hslot : v.held.slot.isNone = true
  · rw [if_pos hslot]
    exact settles_pure ⟨rfl, nofun⟩
  rw [if_neg hslot]
  refine Settles.bind (guests_readU64 _) fun status v2 hstatus ↦ ?_
  obtain ⟨rfl, hstatus⟩ := hstatus
  split_ifs with hparked
  · exact settles_pure ⟨rfl, nofun⟩
  have hmagic : u64At v2.ram (startingAddress l2cpu + statusOffset) = statusParked :=
    (hstatus statusParked (not_not.mp hparked)).symm
  refine Settles.bind (guests_readU64 _) fun nextAddr v3 hnextAddr ↦ ?_
  obtain ⟨rfl, hnextAddr⟩ := hnextAddr
  refine Settles.bind (guests_readU64 _) fun nextMode v4 hnextMode ↦ ?_
  obtain ⟨rfl, hnextMode⟩ := hnextMode
  refine Settles.bind (guests_readU64 _) fun nextArg1 v5 hnextArg1 ↦ ?_
  obtain ⟨rfl, hnextArg1⟩ := hnextArg1
  refine Settles.bind (guests_readU64 _) fun hsmState v6 hhsmState ↦ ?_
  obtain ⟨rfl, hhsmState⟩ := hhsmState
  refine Settles.bind (guests_readU64 _) fun msip v7 hmsip ↦ ?_
  obtain ⟨rfl, hmsip⟩ := hmsip
  refine settles_pure ⟨rfl, fun parked hfound ↦ ?_⟩
  unfold GuestView.parked
  rw [if_neg hslot, if_neg (not_not.mpr hmagic)]
  exact ofPublished_of_read hnextAddr hnextMode hnextArg1 hhsmState hmsip hfound

/-- The images of a reboot fit in their places. -/
structure RebootFits (platform : Platform) (l2cpu : L2CpuIdx) (payload : BootPayload)
    (dtbBytes : Option Image) : Prop where
  kernel : ∀ image, platform.files payload.path = some image → ImagePart.kernel.Fits image
  tree : ∀ cached ∈ dtbBytes, ∀ image, platform.addOpensbiReservation l2cpu cached = some image →
    ImagePart.dtb.Fits image

/-- A release stores the kernel, whether a device tree was kept or not. -/
theorem guests_dispatchRelease_kernel {payload : BootPayload} {dtbBytes : Option Image}
    (hbelow : parked.Below l2cpu) (hfits : RebootFits platform l2cpu payload dtbBytes) :
    Guests l2cpu (dispatchRelease platform l2cpu payload parked dtbBytes args)
      (fun _ v' ↦ ∃ kernel, platform.files payload.path = some kernel ∧
        Holds v'.ram (partAddr l2cpu .kernel) kernel) (fun _ ↦ True) v := by
  cases dtbBytes with
  | some cached =>
    refine (guests_dispatchRelease args hbelow hfits.kernel (hfits.tree cached rfl)).imp
      fun _ v' hv' ↦ ?_
    obtain ⟨kernel, _, hkernel, _, hrestored⟩ := hv'
    exact ⟨kernel, hkernel, hrestored.hasKernel⟩
  | none =>
    have hdtb : partAddr l2cpu .dtb ≤ partAddr l2cpu .kernel := Nat.add_le_add_left (by decide) _
    refine guests_readBinFile fun kernel hkernel ↦ ?_
    refine Settles.bind ((settles_nocWriteBulk .kernel kernel).lax fun _ _ hv ↦ hv)
      fun _ v1 hv1 ↦ ?_
    refine guests_storeless_bind (only_pure ()) fun _ v2 hram2 ↦ ?_
    refine guests_storeless_bind (only_doIf (storeless_swapAttachedForRelease platform args))
      fun _ v3 hram3 ↦ ?_
    refine Settles.bind (guests_storesBelow (storesBelow_wakeParked hbelow)) fun _ v4 hram4 ↦ ?_
    refine (guests_storeless only_tell).imp fun _ v5 hram5 ↦ ?_
    refine ⟨kernel, hkernel, hv1.2.1.congr fun index _ ↦ ?_⟩
    rw [hram5, hram4 _ (by omega), hram3, hram2]

theorem still_dispatchRelease {parked : ParkedReleaseMeta} {dtbBytes : Option Image} :
    (dispatchRelease platform l2cpu payload parked dtbBytes .none).Only RpcOp.Still :=
  composes_only.dispatchRelease nofun

/-- A reboot that succeeds has stored the kernel that is kept, and leaves the attachments alone. -/
theorem guests_autoReleaseForReboot (hbelow : ∀ parked ∈ v.parked l2cpu, parked.Below l2cpu)
    (hfits : ∀ slot ∈ v.held.slot, ∀ payload ∈ slot.bootPayload,
      RebootFits platform l2cpu payload slot.dtbBytes) :
    Guests l2cpu (autoReleaseForReboot platform l2cpu)
      (fun _ v' ↦ v'.held = v.held ∧ ∃ slot payload kernel, v.held.slot = some slot ∧
        slot.bootPayload = some payload ∧ platform.files payload.path = some kernel ∧
        Holds v'.ram (partAddr l2cpu .kernel) kernel) (fun _ ↦ True) v := by
  refine runs_tell fun _ v0 hnext0 ↦ ?_
  rw [hnext0.eq (hnext0.ram_of_storeless rfl) trivial]
  refine Settles.bind guests_readParkedReleaseMeta fun found v1 hfound ↦ ?_
  obtain ⟨rfl, hfound⟩ := hfound
  cases found with
  | none => exact settles_throw
  | some parked =>
    change Guests l2cpu ((ask (.peekSlot l2cpu) >>= _) >>= _) _ _ _
    rw [bind_assoc]
    refine runs_ask fun reply v2 hnext ↦ ?_
    rw [hnext.eq (hnext.ram_of_storeless rfl) trivial]
    cases hreply : reply.slot with
    | none => exact settles_throw
    | some slot =>
      obtain ⟨-, hslot⟩ := slot_of_fits (hnext.held.1.2 rfl) hreply
      rw [pure_bind]
      cases hpayload : slot.bootPayload with
      | none => exact settles_throw
      | some payload =>
        have hstill : (do
            let _ ← askOk .trial
            dispatchRelease platform l2cpu payload parked slot.dtbBytes .none : RpcM Unit).Only
            RpcOp.Still :=
          (only_askOk).bind fun _ ↦ still_dispatchRelease _
        have hstored : Guests l2cpu (do
            let _ ← askOk .trial
            dispatchRelease platform l2cpu payload parked slot.dtbBytes .none)
            (fun _ v' ↦ ∃ kernel, platform.files payload.path = some kernel ∧
              Holds v'.ram (partAddr l2cpu .kernel) kernel) (fun _ ↦ True) v1 := by
          refine guests_storeless_bind only_askOk fun _ v4 _ ↦ ?_
          exact guests_dispatchRelease_kernel _ (hbelow parked (hfound parked rfl))
            (hfits slot hslot payload hpayload)
        refine ((guests_of_leaves (leaves_still hstill)).and hstored).lax fun _ v' hv' ↦ ?_
        obtain ⟨hheld, kernel, hkernel, hholds⟩ := hv'
        exact ⟨hheld, slot, payload, kernel, hslot, hpayload, hkernel, hholds⟩

/-- A reboot has loaded the payload that was booted last, and a network that was attached is there
again as it was: with its forwards, the one for SSH among them, and its host name. -/
structure GuestView.Reproduced (platform : Platform) (l2cpu : L2CpuIdx)
    (booted : Option BootPayload) (v v' : GuestView) : Prop where
  payload : ∃ payload kernel, booted = some payload ∧ platform.files payload.path = some kernel ∧
    Holds v'.ram (partAddr l2cpu .kernel) kernel
  net : ∀ slot ∈ v.held.slot, slot.net = true → ∃ device, v.held.registry devNet = some device ∧
    v'.held.registry devNet = some device

theorem lucky_rebootReport {v : LuckView} (hfaults : v.faults = .none)
    (h : v.guest.held.Tracks platform l2cpu (Caches booted))
    (hbelow : ∀ parked ∈ v.guest.parked l2cpu, parked.Below l2cpu)
    (hfits : ∀ slot ∈ v.guest.held.slot, ∀ payload ∈ slot.bootPayload,
      RebootFits platform l2cpu payload slot.dtbBytes) :
    Runs (LuckNext l2cpu) (rebootReport platform l2cpu)
      (fun released v' ↦ released = true → v.guest.Reproduced platform l2cpu booted v'.guest)
      (fun _ _ ↦ True) v := by
  have hdrop := lucky_leaves hfaults (attaches_storeless.does_dropNetForReboot fun _ ↦ rfl)
    (leaves_dropNetForReboot l2cpu v.guest.held)
  refine Settles.bind (hdrop.lax fun _ _ hv ↦ hv) fun extraFwd v1 hv1 ↦ ?_
  obtain ⟨hfaults1, hram1, hdropped⟩ := hv1
  -- the network that was dropped is back before the guest is released
  have hnet : Runs (LuckNext l2cpu) (forSome extraFwd fun extraFwd ↦ do
        let _ ← caught (do
          let _ ← askOk .trial
          dispatchAddNet platform l2cpu none extraFwd))
      (fun _ v2 ↦ v2.faults = .none ∧ v2.guest = v.guest) (fun _ _ ↦ True) v1 := by
    rcases hdropped with ⟨rfl, hheld1⟩ | ⟨slot, hslot, -, hattached, rfl, hheld1 | ⟨hlock, -⟩⟩
    · exact ⟨hfaults1, congrArg₂ GuestView.mk hram1 hheld1⟩
    · have hattach : Runs (LuckNext l2cpu) (do
          let _ ← askOk .trial
          dispatchAddNet platform l2cpu none slot.netExtraFwd)
          (fun _ v2 ↦ v2.faults = .none ∧ v2.guest = v.guest) (fun _ _ ↦ False) v1 := by
        refine lucky_trial hfaults1 fun _ v2 hfaults2 hguest2 ↦ ?_
        have hslot2 : v2.guest.held.slot = some { slot with net := false } := by
          rw [hguest2, hheld1]
          rfl
        have hdisp2 : v2.guest.held.dispatcher = true := by
          rw [hguest2, hheld1]
          exact (h.net slot hslot hattached).1
        refine (lucky_dispatchAddNet hfaults2 hslot2 rfl hdisp2).imp fun _ v3 hv3 ↦ ?_
        obtain ⟨hfaults3, hram3, hheld3⟩ := hv3
        rw [hguest2, hheld1] at hheld3
        rw [hguest2] at hram3
        exact ⟨hfaults3, congrArg₂ GuestView.mk (hram3.trans hram1)
          (hheld3.trans (h.reattach hslot hattached))⟩
      have hcaught : Runs (LuckNext l2cpu) (caught (do
          let _ ← askOk .trial
          dispatchAddNet platform l2cpu none slot.netExtraFwd))
          (fun _ v2 ↦ v2.faults = .none ∧ v2.guest = v.guest) (fun _ _ ↦ True) v1 :=
        settles_caught (hattach.mono (fun _ _ hv2 ↦ hv2) fun _ _ hfalse ↦ hfalse.elim)
      exact hcaught.bind fun _ _ hv2 ↦ settles_pure hv2
    · exact absurd hlock (by decide)
  refine Settles.bind hnet fun _ v2 hv2 ↦ ?_
  obtain ⟨hfaults2, hguest2⟩ := hv2
  have hrelease := settles_lucky hfaults2 (guests_autoReleaseForReboot (v := v2.guest)
    (hguest2 ▸ hbelow) (hguest2 ▸ hfits))
  have hcaught : Runs (LuckNext l2cpu)
      (caught (autoReleaseForReboot platform l2cpu)) (fun released v3 ↦ released = true →
        v.guest.Reproduced platform l2cpu booted v3.guest) (fun _ _ ↦ True) v2 := by
    refine settles_caught (hrelease.mono (fun _ v3 hv3 _ ↦ ?_) fun _ _ _ ↦ ⟨nofun, trivial⟩)
    obtain ⟨-, hheld3, slot, payload, kernel, hslot, hpayload, hkernel, hholds⟩ := hv3
    rw [hguest2] at hheld3 hslot
    refine ⟨⟨payload, kernel, h.cache slot hslot payload hpayload, hkernel, hholds⟩,
      fun slot' hslot' hnet' ↦ ⟨_, (h.net slot' hslot' hnet').2, ?_⟩⟩
    rw [hheld3]
    exact (h.net slot' hslot' hnet').2
  refine hcaught.bind fun released v3 hv3 ↦ ?_
  refine runs_tell fun _ v4 hnext ↦ settles_pure ?_
  rw [hnext.guest.eq (hnext.guest.ram_of_storeless rfl) trivial]
  exact hv3

end Lucky

/-! ### Histories -/

/-- What happens to an L2CPU: a request to boot it, a request for one of its devices, a probe of its
console thread, or anything else. -/
inductive SlotEvent (ι : Type)
  | boot (thread : ι) (args : BootArgs)
  | device (request : DeviceRequest)
  | probe (lastParked : Bool)
  | other (change : DaemonWorld ι → DaemonWorld ι)

/-- The world, the number of steps so far, and the payload that was booted last. -/
structure SlotHistory (ι : Type) where
  world : DaemonWorld ι
  clock : ℕ
  booted : Option BootPayload

section Histories

variable (platform : Platform) (l2cpu : L2CpuIdx)
  (environment : ℕ → DaemonWorld ι → DaemonWorld ι)

/-- What an event leaves. A boot that succeeds, from reset or by a release, is the last one. -/
def SlotHistory.after (history : SlotHistory ι) : SlotEvent ι → SlotHistory ι
  | .boot thread args =>
    let outcome := (dispatchBoot platform thread args).run.run (daemonExec platform) environment
      history.clock history.world
    ⟨outcome.state, outcome.clock, outcome.result.toOption.elim history.booted
      fun _ ↦ some args.payload⟩
  | .device request =>
    let outcome := (request.dispatch platform l2cpu).run.run rpcExec environment history.clock
      history.world
    ⟨outcome.state, outcome.clock, history.booted⟩
  | .probe lastParked =>
    let outcome := (parkProbe platform l2cpu lastParked).run.run rpcExec environment history.clock
      history.world
    ⟨outcome.state, outcome.clock, history.booted⟩
  | .other change => { history with world := change history.world }

/-- The event asks for nothing that a later reboot would not repeat. A network has the usual port
for SSH and the forwards that are kept, the network is not removed while the slot cannot be looked
at, and what happens besides leaves alone the attachments or empties the slot. -/
def SlotHistory.Repeatable (history : SlotHistory ι) : SlotEvent ι → Prop
  | .boot _ args => args.l2cpu = l2cpu ∧ args.Repeats (history.world.slots l2cpu)
  | .device (.addNet port extraFwd) =>
    port.getD (sshPort platform.card l2cpu) = sshPort platform.card l2cpu ∧
      ∀ slot ∈ history.world.slots l2cpu, extraFwd = slot.netExtraFwd
  | .device .removeNet => history.world.poisoned (.slot l2cpu) = false
  | .other change =>
    (change history.world).attachments l2cpu = history.world.attachments l2cpu ∨
      (change history.world).slots l2cpu = none
  | _ => True

/-- Every event is one, in what those before it have left. -/
def SlotHistory.AllRepeatable (history : SlotHistory ι) : List (SlotEvent ι) → Prop
  | [] => True
  | event :: events => history.Repeatable platform l2cpu event ∧
    SlotHistory.AllRepeatable (history.after platform l2cpu environment event) events

variable {platform l2cpu environment} {history : SlotHistory ι}

/-- What a reboot needs is kept in the slot. -/
abbrev SlotHistory.Tracked (platform : Platform) (l2cpu : L2CpuIdx) (history : SlotHistory ι) :
    Prop :=
  (history.world.attachments l2cpu).Tracks platform l2cpu (Caches history.booted)

variable (henvironment : SparesSlot l2cpu environment)
include henvironment

theorem run_keepsTrack {part : RpcM α} {clock : ℕ} {w : DaemonWorld ι}
    (h : KeepsTrack (.of w.faults.poisoned) platform l2cpu keeps part (w.attachments l2cpu)) :
    ((part.run.run rpcExec environment clock w).state.attachments l2cpu).Tracks platform l2cpu
      keeps :=
  (h.settled henvironment clock).both

theorem tracked_after (h : history.Tracked platform l2cpu) {event : SlotEvent ι}
    (hevent : history.Repeatable platform l2cpu event) :
    (history.after platform l2cpu environment event).Tracked platform l2cpu := by
  cases event with
  | boot thread args =>
    obtain ⟨hl2cpu, hrepeats⟩ := hevent
    have hsettled := Settles.run (fun w : DaemonWorld ι ↦ w.attachments l2cpu)
      (fun op w ↦ ⟨trivial, daemonNext_daemonExec platform l2cpu op w fun _ _ ↦ trivial⟩)
      (fun clock w ↦ congrArg SlotView.held (henvironment clock w)) history.clock
      (tracks_dispatchBoot thread hl2cpu hrepeats h)
    unfold SlotHistory.Tracked SlotHistory.after
    cases hres : ((dispatchBoot platform thread args).run.run (daemonExec platform) environment
        history.clock history.world).result with
    | ok value =>
      rw [hres] at hsettled
      simp only [hres]
      exact hsettled
    | error failure =>
      rw [hres] at hsettled
      simp only [hres]
      exact hsettled
  | device request =>
    refine run_keepsTrack henvironment ?_
    by_cases hnet : ∃ port extraFwd, request = .addNet port extraFwd
    · obtain ⟨port, extraFwd, rfl⟩ := hnet
      obtain ⟨hport, hforwards⟩ := hevent
      exact keepsTrack_of_forwards (extraFwd = ·) hforwards
        (fun htracks ↦ keepsTrack_addNet hport (fun _ _ hkept ↦ hkept.2) htracks) h
    · refine keepsTrack_request h request
        (fun port extraFwd heq ↦ absurd ⟨port, extraFwd, heq⟩ hnet) fun heq hrefused ↦ ?_
      subst heq
      exact absurd ((Locks.of_false hrefused).symm.trans hevent) (by decide)
  | probe lastParked => exact run_keepsTrack henvironment (keepsTrack_parkProbe h lastParked)
  | other change =>
    rcases hevent with hsame | hnone
    · unfold SlotHistory.Tracked SlotHistory.after
      simpa [hsame] using h
    · exact tracks_of_none hnone

theorem tracked_of_allRepeatable (h : history.Tracked platform l2cpu)
    {events : List (SlotEvent ι)}
    (hevents : history.AllRepeatable platform l2cpu environment events) :
    (events.foldl (SlotHistory.after platform l2cpu environment) history).Tracked platform
      l2cpu := by
  induction events generalizing history with
  | nil => exact h
  | cons event events ih => exact ih (tracked_after henvironment h hevents.1) hevents.2

end Histories

/-- An automatic reboot that succeeds loads the payload that was booted last and leaves the network
as it was, after every history that begins with an empty slot and whose events ask for nothing that
a reboot would not repeat.

Assumes: no step of the reboot is to fail and no mutex is poisoned then, the images fit in their
places and the addresses that the guest has published are below them. What happens besides leaves
alone the attachments of the L2CPU during an event and poisons no mutex, and during the reboot it
leaves alone its memory as well. -/
theorem reboot_reproduces (platform : Platform) (l2cpu : L2CpuIdx)
    {environment quiet : ℕ → DaemonWorld ι → DaemonWorld ι}
    (henvironment : SparesSlot l2cpu environment)
    (hquiet : ∀ clock w, (quiet clock w).lucky l2cpu = w.lucky l2cpu)
    {start : DaemonWorld ι} (hstart : start.slots l2cpu = none) (events : List (SlotEvent ι))
    (hevents : SlotHistory.AllRepeatable platform l2cpu environment ⟨start, 0, none⟩ events) :
    let history := events.foldl (SlotHistory.after platform l2cpu environment) ⟨start, 0, none⟩
    let outcome := (rebootReport platform l2cpu).run.run rpcExec quiet history.clock history.world
    history.world.faults = .none →
    (∀ parked ∈ (history.world.guest l2cpu).parked l2cpu, parked.Below l2cpu) →
    (∀ slot ∈ history.world.slots l2cpu, ∀ payload ∈ slot.bootPayload,
      RebootFits platform l2cpu payload slot.dtbBytes) →
    outcome.result = .ok true →
    (history.world.guest l2cpu).Reproduced platform l2cpu history.booted
      (outcome.state.guest l2cpu) := by
  intro history outcome hfaults hbelow hfits hreleased
  have hempty : SlotHistory.Tracked platform l2cpu ⟨start, 0, none⟩ :=
    tracks_of_none hstart
  have htracked : history.Tracked platform l2cpu :=
    tracked_of_allRepeatable henvironment hempty hevents
  have hsettled := Settles.run (DaemonWorld.lucky l2cpu) (luckNext_rpcExec l2cpu) hquiet
    history.clock
    (lucky_rebootReport (v := history.world.lucky l2cpu) hfaults htracked hbelow hfits)
  rw [hreleased] at hsettled
  exact hsettled rfl

/-- The world after the guest of L2CPU 1 has parked. -/
def parkedAs (resetType : UInt32) (w : DaemonWorld Unit) : DaemonWorld Unit :=
  { w with
    ram := Function.update w.ram 1 fun addr ↦
      if partAddr 1 .dtb ≤ addr then w.ram 1 addr else parkedRam resetType addr }

theorem parkedAs_attachments {resetType : UInt32} {w : DaemonWorld Unit} :
    (parkedAs resetType w).attachments 1 = w.attachments 1 := rfl

/-- A boot of L2CPU 1 with a network. -/
def forwardBoot : BootArgs :=
  { plainBoot 1 with devices := { DeviceArgs.none with network := true, extraFwd := [(8080, 80)] } }

/-- A guest that was booted with a network asks for a reboot. -/
def forwardReboot : List (SlotEvent Unit) :=
  [.boot () forwardBoot, .other (parkedAs resetTypeColdReboot)]

/-- What some events leave of a daemon that has just started. -/
def rebootHistory (events : List (SlotEvent Unit)) : SlotHistory Unit :=
  events.foldl (SlotHistory.after smallPlatform 1 fun _ w ↦ w) ⟨startedWorld Unit [], 0, none⟩

/-- The reboot after them. -/
def rebootAfter (events : List (SlotEvent Unit)) :
    Program.Outcome (Except Failure Bool) (DaemonWorld Unit) :=
  (rebootReport smallPlatform 1).run.run rpcExec (fun _ w ↦ w) (rebootHistory events).clock
    (rebootHistory events).world

/-- A guest that was booted with a network. -/
theorem reboot_reproduces_net :
    (rebootAfter forwardReboot).result = .ok true ∧
      ((rebootHistory forwardReboot).world.guest 1).Reproduced smallPlatform 1 (some (.kernel 1))
        ((rebootAfter forwardReboot).state.guest 1) := by
  have hreleased : (rebootAfter forwardReboot).result = .ok true := by
    decide +kernel
  have hevents : SlotHistory.AllRepeatable smallPlatform 1 (fun _ w ↦ w)
      ⟨startedWorld Unit [], 0, none⟩ forwardReboot :=
    ⟨⟨rfl, fun _ ↦ rfl, nofun, fun _ ↦ nofun⟩, .inl parkedAs_attachments, trivial⟩
  have hparked : ((rebootHistory forwardReboot).world.guest 1).parked 1 = some diskParkedMeta := by
    decide +kernel
  have hslot : (rebootHistory forwardReboot).world.slots 1 = some { plainSlot with
        blkDtbDevIdx := [devBlk]
        dtbBytes := some [2]
        net := true
        netExtraFwd := [(8080, 80)] } := by
    decide +kernel
  refine ⟨hreleased, reboot_reproduces smallPlatform 1 (fun _ _ ↦ rfl) (fun _ _ ↦ rfl) rfl
    forwardReboot hevents (by rfl) (fun parked hfound ↦ ?_)
    (fun slot hfound payload hpayload ↦ ?_) hreleased⟩
  · obtain rfl : diskParkedMeta = parked := Option.some.inj (hparked.symm.trans hfound)
    decide +kernel
  · obtain rfl := Option.some.inj (hslot.symm.trans hfound)
    obtain rfl := Option.some.inj hpayload
    refine ⟨fun image himage ↦ ?_, fun cached hcached image himage ↦ ?_⟩
    · obtain rfl := Option.some.inj himage
      decide
    · obtain rfl := Option.some.inj hcached
      obtain rfl := Option.some.inj himage
      decide

/-- After a release with another kernel, a reboot brings back the kernel of the boot before. A
network with a host name comes back without it, and one that was added with another port for SSH and
other forwards comes back with the usual port and the forwards of the boot. A network whose ports
are taken by then does not come back. -/
theorem reboot_forgets :
    let parks := .other (parkedAs resetTypeColdReboot)
    let released := [.boot () (plainBoot 1), parks,
      .boot () { plainBoot 1 with payload := .kernel 7 }, parks]
    let named := [.boot () { forwardBoot with hostnameOverride := some "guest" }, parks]
    let added := [
      .boot () { plainBoot 1 with devices := { DeviceArgs.none with console := true } },
      .device (.addNet (some 2300) [(9000, 90)]), parks]
    let taken := [.boot () forwardBoot, parks,
      .other fun w ↦ { w with faults := ⟨[true, false], fun _ ↦ false⟩ }]
    (rebootHistory released).booted = some (.kernel 7) ∧
      (rebootAfter released).result = .ok true ∧
      (rebootHistory released).world.ram 1 (partAddr 1 .kernel) = 7 ∧
      (rebootAfter released).state.ram 1 (partAddr 1 .kernel) = 1 ∧
      (rebootAfter named).result = .ok true ∧
      (rebootHistory named).world.registry 1 devNet =
        some (.net [(2223, 22), (8080, 80)] (some "guest")) ∧
      (rebootAfter named).state.registry 1 devNet = some (.net [(2223, 22), (8080, 80)] none) ∧
      (rebootAfter added).result = .ok true ∧
      (rebootHistory added).world.registry 1 devNet = some (.net [(2300, 22), (9000, 90)] none) ∧
      (rebootAfter added).state.registry 1 devNet = some (.net [(2223, 22)] none) ∧
      (rebootAfter taken).result = .ok true ∧
      (rebootHistory taken).world.registry 1 devNet = some (.net [(2223, 22), (8080, 80)] none) ∧
      (rebootAfter taken).state.registry 1 devNet = none := by
  refine ⟨?_, ?_, ?_, ?_, ?_, ?_, ?_, ?_, ?_, ?_, ?_, ?_, ?_⟩ <;> decide +kernel

end Bhx.Daemon
