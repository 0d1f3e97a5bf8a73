import Bhx.Daemon.GuestMemory

/-!
# What a released kernel is started with

A boot from reset places four images in the memory of the guest: OpenSBI, the kernel, the device
tree that was made for the request, and the initramfs. The device tree says the boot arguments, the
size of the memory and the devices. A release of a parked guest is another way to start a kernel: it
stores the kernel of the request and the device tree that was kept from the last boot from reset,
with a reservation for OpenSBI, and nothing else.

So a released kernel does not see what a boot from reset with the same request would have placed
(`SameInputs`) when the request has another device tree in mind than the one that was kept, or an
initramfs that the last kernel did not leave in its place (`release_keeps_old_inputs`).
`release_like_boot_iff` says that nothing else is missing.

Scope. The images are in their places in the four gigabytes of the guest (`ImagePart.Fits`), and the
addresses that the parked guest has published are below them.
-/

set_option autoImplicit false

namespace Bhx.Daemon

open SharedMemory Chip Machine.L1Layout List ImagePart

variable {ι : Type} (platform : Platform) {index : ℕ} {l2cpu : L2CpuIdx} {addr : ℕ} {image : Image}

/-! ### Places of images -/

/-- Where the place of a part ends, from the start of the memory. -/
def ImagePart.limit : ImagePart → ℕ
  | .opensbi => ImagePart.dtb.offset
  | .dtb => ImagePart.kernel.offset
  | .kernel => ImagePart.initramfs.offset
  | .initramfs => 2 ^ 32

/-- The image fits in the place of the part. -/
def ImagePart.Fits (part : ImagePart) (image : Image) : Prop :=
  part.offset + 4 * image.length ≤ part.limit

instance (part : ImagePart) (image : Image) : Decidable (part.Fits image) :=
  inferInstanceAs (Decidable (_ ≤ _))

section Places

variable {part part' : ImagePart} {image' : Image}

theorem outside_of_fits (h : part.Fits image) (h' : part'.Fits image') (hne : part ≠ part')
    (hindex : index < image.length) :
    Outside (partAddr l2cpu part') image' (partAddr l2cpu part + 4 * index) := by
  intro index' hindex'
  unfold ImagePart.Fits at h h'
  cases part <;> cases part' <;> first
      | exact absurd rfl hne
      | simp only [partAddr, limit, offset] at h h' ⊢
        omega

theorem Holds.congr {ram ram' : ℕ → UInt32} {base : ℕ} (h : Holds ram base image)
    (hram : ∀ index < image.length, ram' (base + 4 * index) = ram (base + 4 * index)) :
    Holds ram' base image := by
  intro index word hword
  rw [hram index (List.getElem?_eq_some_iff.mp hword).1]
  exact h index word hword

/-- An image stays while another is stored. -/
theorem Holds.of_outside {ram ram' : ℕ → UInt32} (h : Holds ram (partAddr l2cpu part) image)
    (hfits : part.Fits image) (hfits' : part'.Fits image') (hne : part ≠ part')
    (hram : ∀ addr, Outside (partAddr l2cpu part') image' addr → ram' addr = ram addr) :
    Holds ram' (partAddr l2cpu part) image :=
  h.congr fun _ hindex ↦ hram _ (outside_of_fits hfits hfits' hne hindex)

end Places

/-! ### What is stored -/

variable {α : Type} {v : GuestView}

section Stored

variable {post : α → GuestView → Prop}

theorem guests_storeless {part : RpcM α} (h : part.Only (RpcOp.Storeless l2cpu)) :
    Guests l2cpu part (fun _ v' ↦ v'.ram = v.ram) (fun _ ↦ True) v := by
  have hop (op : RpcOp) (u : GuestView) (hop : op.Storeless l2cpu) (hu : u.ram = v.ram) :
      True ∧ ∀ reply u', GuestNext l2cpu op u reply u' → u'.ram = v.ram :=
    ⟨trivial, fun _ _ hnext ↦ (hnext.ram_of_storeless hop).trans hu⟩
  exact (settles_keeping h hop rfl).lax fun _ _ hram ↦ hram

theorem guests_readBinFile {platform : Platform} {path : Path} {rest : Image → RpcM α}
    (h : ∀ image, platform.files path = some image →
      Guests l2cpu (rest image) post (fun _ ↦ True) v) :
    Guests l2cpu (readBinFile platform path >>= rest) post (fun _ ↦ True) v := by
  unfold readBinFile
  rw [bind_assoc]
  refine guests_trial trivial fun _ ↦ ?_
  cases hfile : platform.files path with
  | none => exact settles_throw
  | some image =>
    exact h image hfile

theorem guests_loadPart (part : ImagePart) (path : Path) :
    Guests l2cpu (loadPart platform l2cpu part path)
      (fun _ v' ↦ ∃ image, platform.files path = some image ∧
        Holds v'.ram (partAddr l2cpu part) image ∧
        ∀ addr, Outside (partAddr l2cpu part) image addr → v'.ram addr = v.ram addr)
      (fun _ ↦ True) v :=
  guests_readBinFile fun image hfile ↦ (settles_nocWriteBulk part image).lax
    fun _ _ h ↦ ⟨image, hfile, h.2⟩

theorem guests_storeless_bind {β : Type} {part : RpcM β} {rest : β → RpcM α}
    (hpart : part.Only (RpcOp.Storeless l2cpu))
    (h : ∀ value v', v'.ram = v.ram → Guests l2cpu (rest value) post (fun _ ↦ True) v') :
    Guests l2cpu (part >>= rest) post (fun _ ↦ True) v :=
  Settles.bind (guests_storeless hpart) h

end Stored

theorem attaches_storeless {target : L2CpuIdx} : Attaches target (RpcOp.Storeless l2cpu) :=
  ⟨rfl, rfl, rfl, rfl, fun _ _ ↦ rfl, fun _ ↦ rfl⟩

theorem storeless_swapAttachedForRelease {target : L2CpuIdx} (args : DeviceArgs) :
    (swapAttachedForRelease platform target args).Only (RpcOp.Storeless l2cpu) :=
  composes_only.swapAttachedForRelease (by rfl) (attaches_storeless.does_detachWorkers rfl)
    (fun _ _ ↦ attaches_storeless.does_dispatchAddDisk fun _ ↦ rfl)
    (fun _ ↦ attaches_storeless.does_dispatchAddNet rfl)
    (attaches_storeless.does_dispatchAddConsole rfl) (attaches_storeless.does_attachRngInline rfl)

/-! ### A boot from reset -/

/-- The images of a request fit, with this device tree. -/
structure BootArgs.Fits (args : BootArgs) (platform : Platform) (dtb : Image) : Prop where
  kernel : ∀ image, platform.files args.payload.path = some image → ImagePart.kernel.Fits image
  dtb : ImagePart.dtb.Fits dtb
  initramfs : ∀ path ∈ args.initramfs, ∀ image, platform.files path = some image →
    ImagePart.initramfs.Fits image

/-- The images of a request are in their places, with this device tree. -/
structure BootArgs.Placed (args : BootArgs) (platform : Platform) (dtb : Image) (ram : ℕ → UInt32) :
    Prop where
  kernel : ∃ image, platform.files args.payload.path = some image ∧
    Holds ram (partAddr args.l2cpu .kernel) image
  dtb : Holds ram (partAddr args.l2cpu .dtb) dtb
  initramfs : ∀ path ∈ args.initramfs, ∃ image, platform.files path = some image ∧
    Holds ram (partAddr args.l2cpu .initramfs) image

variable {args : BootArgs} {dtb : Image}

section Boot

variable {platform : Platform}

/-- The places of images are below the control registers. -/
theorem addr_lt_controlBase {part : ImagePart} (h : part.Fits image) {l2cpu : L2CpuIdx}
    (hindex : index < image.length) : partAddr l2cpu part + 4 * index < controlBase := by
  have hstart : startingAddress l2cpu ≤ 0x4000b0000000 := by
    revert l2cpu
    decide
  have hlimit : part.limit ≤ 2 ^ 32 := by cases part <;> decide
  unfold ImagePart.Fits at h
  unfold partAddr controlBase
  omega

theorem BootArgs.Placed.congr (hfits : args.Fits platform dtb) {ram ram' : ℕ → UInt32}
    (h : args.Placed platform dtb ram) (hram : ∀ addr < controlBase, ram' addr = ram addr) :
    args.Placed platform dtb ram' := by
  obtain ⟨kernel, hkernel, hholds⟩ := h.kernel
  refine ⟨⟨kernel, hkernel, hholds.congr fun index hindex ↦ hram _ ?_⟩,
    h.dtb.congr fun index hindex ↦ hram _ ?_, fun path hpath ↦ ?_⟩
  · exact addr_lt_controlBase (hfits.kernel kernel hkernel) hindex
  · exact addr_lt_controlBase hfits.dtb hindex
  · obtain ⟨image, hfile, hholds⟩ := h.initramfs path hpath
    refine ⟨image, hfile, hholds.congr fun index hindex ↦ hram _ ?_⟩
    exact addr_lt_controlBase (hfits.initramfs path hpath image hfile) hindex

theorem guests_writeControl {ram : ℕ → UInt32} (haddr : controlBase ≤ addr) {value : UInt32}
    (h : ∀ addr < controlBase, v.ram addr = ram addr) :
    Guests l2cpu (write32 l2cpu addr value)
      (fun _ v' ↦ ∀ addr < controlBase, v'.ram addr = ram addr) (fun _ ↦ True) v := by
  refine (guests_write32 addr value).lax fun _ v' hv' other hother ↦ ?_
  rw [hv'.2, Function.update_of_ne (by omega)]
  exact h other hother

theorem guests_resetVectors (l2cpu : L2CpuIdx) {entry : ℕ} :
    Guests l2cpu ((range 4).forM fun core ↦ writeU64 l2cpu (controlBase + core * 8) entry)
      (fun _ v' ↦ ∀ addr < controlBase, v'.ram addr = v.ram addr) (fun _ ↦ True) v := by
  refine settles_forM (fun _ (v' : GuestView) ↦ ∀ addr < controlBase, v'.ram addr = v.ram addr)
    (fun core _ v' hv' ↦ ?_) (range 4) fun _ _ ↦ rfl
  refine Settles.bind (guests_writeControl (by omega) hv') fun _ v'' hv'' ↦ ?_
  exact guests_writeControl (by omega) hv''

theorem guests_bootL2cpu (hfits : args.Fits platform dtb) :
    Guests args.l2cpu (bootL2cpu platform args dtb)
      (fun _ v' ↦ args.Placed platform dtb v'.ram) (fun _ ↦ True) v := by
  refine Settles.bind ((guests_write32 _ _).lax fun _ _ h ↦ h) fun _ v1 _ ↦ ?_
  refine guests_storeless_bind only_askOk fun _ v2 _ ↦ ?_
  refine Settles.bind (guests_loadPart platform .opensbi args.opensbi) fun _ v3 _ ↦ ?_
  refine Settles.bind (guests_loadPart platform .kernel args.payload.path) fun _ v4 h4 ↦ ?_
  obtain ⟨kernel, hkernel, hkernelHolds, -⟩ := h4
  have hkernelFits := hfits.kernel kernel hkernel
  refine Settles.bind ((settles_nocWriteBulk .dtb dtb).lax fun _ _ h ↦ h) fun _ v5 h5 ↦ ?_
  obtain ⟨-, hdtbHolds, hram5⟩ := h5
  have hkernelHolds : Holds v5.ram (partAddr args.l2cpu .kernel) kernel :=
    hkernelHolds.of_outside hkernelFits hfits.dtb (by decide) hram5
  have hplaced : Guests args.l2cpu (forSome args.initramfs (loadPart platform args.l2cpu
      .initramfs)) (fun _ v' ↦ args.Placed platform dtb v'.ram) (fun _ ↦ True) v5 := by
    refine settles_forSome (fun path hpath ↦ ?_) fun hnone ↦ ?_
    · refine (guests_loadPart platform .initramfs path).imp fun _ v6 h6 ↦ ?_
      obtain ⟨image, hfile, hholds, hram6⟩ := h6
      have hinitramfs := hfits.initramfs path hpath image hfile
      refine ⟨⟨kernel, hkernel, ?_⟩, ?_, fun other hother ↦ ?_⟩
      · exact hkernelHolds.of_outside hkernelFits hinitramfs (by decide) hram6
      · exact hdtbHolds.of_outside hfits.dtb hinitramfs (by decide) hram6
      · obtain rfl : other = path := Option.some.inj (hother.symm.trans hpath)
        exact ⟨image, hfile, hholds⟩
    · exact ⟨⟨kernel, hkernel, hkernelHolds⟩, hdtbHolds, by simp [hnone]⟩
  refine Settles.bind hplaced fun _ v6 h6 ↦ ?_
  exact (guests_resetVectors args.l2cpu).imp fun _ _ hram ↦ h6.congr hfits hram

/-- The device tree of a request. -/
def BootArgs.tree (args : BootArgs) (platform : Platform) : Option Image :=
  (platform.files args.dtb).bind (platform.modifyDtb args)

/-- A boot from reset places the images of the request, with the device tree that was made for
it. -/
theorem guests_runBootSequence
    (hfits : ∀ dtb, args.tree platform = some dtb → args.Fits platform dtb) :
    Guests args.l2cpu (runBootSequence platform args)
      (fun dtb v' ↦ args.tree platform = some dtb ∧ args.Placed platform dtb v'.ram)
      (fun _ ↦ True) v := by
  refine guests_storeless_bind only_askOk fun _ v1 _ ↦ ?_
  refine guests_readBinFile fun raw hraw ↦ ?_
  refine guests_storeless_bind (only_doIf (only_forSome fun path ↦
    ((only_askOk).bind fun _ ↦ ?_).map)) fun _ v2 _ ↦ ?_
  · cases platform.files path with
    | none => exact only_throw
    | some image => exact only_pure image
  refine guests_storeless_bind (only_doIf ((only_askOk).bind fun _ ↦
    (only_askOk).map)) fun _ v3 _ ↦ ?_
  cases hdtb : platform.modifyDtb args raw with
  | none => exact settles_throw
  | some dtb =>
    have htree : args.tree platform = some dtb := by
      unfold BootArgs.tree
      rw [hraw]
      exact hdtb
    exact Settles.bind (guests_bootL2cpu (hfits dtb htree)) fun _ v4 hplaced ↦
      settles_pure ⟨htree, hplaced⟩

end Boot

/-! ### A release -/

/-- The addresses that a parked guest has published are below the places of the images. -/
def ParkedReleaseMeta.Below (parked : ParkedReleaseMeta) (l2cpu : L2CpuIdx) : Prop :=
  ∀ addr ∈ [parked.nextAddrPa + 4, parked.nextModePa + 4, parked.nextArg1Pa + 4, parked.hsmStatePa,
    parked.msipPa], addr < partAddr l2cpu .dtb

instance (parked : ParkedReleaseMeta) (l2cpu : L2CpuIdx) : Decidable (parked.Below l2cpu) :=
  inferInstanceAs (Decidable (∀ addr ∈ [parked.nextAddrPa + 4, parked.nextModePa + 4,
    parked.nextArg1Pa + 4, parked.hsmStatePa, parked.msipPa], addr < partAddr l2cpu .dtb))

/-- Stores only below the places of the images. -/
def RpcOp.StoresBelow (l2cpu : L2CpuIdx) (op : RpcOp) : Prop :=
  ∀ entry ∈ op.store l2cpu, entry.1 < partAddr l2cpu .dtb

/-- What is in the memory after a kernel and a device tree were stored. -/
structure Restored (l2cpu : L2CpuIdx) (kernel tree : Image) (ram ram' : ℕ → UInt32) : Prop where
  hasKernel : Holds ram' (partAddr l2cpu .kernel) kernel
  hasTree : Holds ram' (partAddr l2cpu .dtb) tree
  rest : ∀ addr, partAddr l2cpu .dtb ≤ addr → Outside (partAddr l2cpu .kernel) kernel addr →
    Outside (partAddr l2cpu .dtb) tree addr → ram' addr = ram addr

variable {cached : Image}

section Release

variable {platform : Platform} {payload : BootPayload} {parked : ParkedReleaseMeta}

theorem Restored.congr {kernel tree : Image} {ram ram' ram'' : ℕ → UInt32}
    (h : Restored l2cpu kernel tree ram ram')
    (hram : ∀ addr, partAddr l2cpu .dtb ≤ addr → ram'' addr = ram' addr) :
    Restored l2cpu kernel tree ram ram'' := by
  have hdtb : partAddr l2cpu .dtb ≤ partAddr l2cpu .kernel := Nat.add_le_add_left (by decide) _
  refine ⟨h.hasKernel.congr fun index _ ↦ hram _ (by omega),
    h.hasTree.congr fun index _ ↦ hram _ (by omega), fun addr haddr hkernel htree ↦ ?_⟩
  exact (hram addr haddr).trans (h.rest addr haddr hkernel htree)

theorem guests_storesBelow {part : RpcM α} (h : part.Only (RpcOp.StoresBelow l2cpu)) :
    Guests l2cpu part (fun _ v' ↦ ∀ addr, partAddr l2cpu .dtb ≤ addr → v'.ram addr = v.ram addr)
      (fun _ ↦ True) v := by
  have hop (op : RpcOp) (u : GuestView) (hop : op.StoresBelow l2cpu) (hu : ∀ addr, partAddr l2cpu
      .dtb ≤ addr → u.ram addr = v.ram addr) : True ∧ ∀ reply u', GuestNext l2cpu op u reply u' →
      ∀ addr, partAddr l2cpu .dtb ≤ addr → u'.ram addr = v.ram addr := by
    refine ⟨trivial, fun reply u' hnext addr haddr ↦ ?_⟩
    rw [hnext.ram]
    split_ifs
    · cases hstore : op.store l2cpu with
      | none => exact hu addr haddr
      | some entry =>
        have hbelow := hop entry hstore
        change Function.update u.ram entry.1 entry.2 addr = v.ram addr
        rw [Function.update_of_ne (by omega)]
        exact hu addr haddr
    · exact hu addr haddr
  exact (settles_keeping h hop fun _ _ ↦ rfl).lax fun _ _ hram ↦ hram

theorem storesBelow_write32 (haddr : addr < partAddr l2cpu .dtb) {value : UInt32} :
    (write32 l2cpu addr value).Only (RpcOp.StoresBelow l2cpu) := by
  refine (only_askOk fun entry hentry ↦ ?_).map
  obtain rfl : (addr, value) = entry := by simpa [RpcOp.store] using hentry
  exact haddr

theorem storesBelow_writeU64 (haddr : addr + 4 < partAddr l2cpu .dtb) {value : ℕ} :
    (writeU64 l2cpu addr value).Only (RpcOp.StoresBelow l2cpu) :=
  (storesBelow_write32 (by omega)).bind fun _ ↦ storesBelow_write32 haddr

theorem storesBelow_wakeParked (hbelow : parked.Below l2cpu) :
    (wakeParked l2cpu parked).Only (RpcOp.StoresBelow l2cpu) := by
  simp only [ParkedReleaseMeta.Below, forall_mem_cons, not_mem_nil, false_implies,
    implies_true, and_true] at hbelow
  obtain ⟨hnextAddr, hnextMode, hnextArg1, hhsmState, hmsip⟩ := hbelow
  have hstatus : startingAddress l2cpu + statusOffset + 4 < partAddr l2cpu .dtb :=
    Nat.add_lt_add_left (by decide : statusOffset + 4 < dtb.offset) _
  refine (storesBelow_writeU64 hstatus).bind fun _ ↦ (storesBelow_writeU64 hnextAddr).bind
    fun _ ↦ (storesBelow_writeU64 hnextMode).bind fun _ ↦
      (storesBelow_writeU64 hnextArg1).bind fun _ ↦ (only_askOk nofun).bind fun hsmNow ↦ ?_
  split_ifs
  · exact only_throw
  · refine (storesBelow_write32 hhsmState).bind fun _ ↦ (only_askOk ?_).map
    intro entry hentry
    obtain rfl : (parked.msipPa, (1 : UInt32)) = entry := by simpa [RpcOp.store] using hentry
    exact hmsip

/-- A release stores the kernel of the request and the device tree that was kept. -/
theorem guests_dispatchRelease (args : DeviceArgs) (hbelow : parked.Below l2cpu)
    (hkernelFits : ∀ image, platform.files payload.path = some image → ImagePart.kernel.Fits image)
    (htreeFits : ∀ image, platform.addOpensbiReservation l2cpu cached = some image →
      ImagePart.dtb.Fits image) :
    Guests l2cpu (dispatchRelease platform l2cpu payload parked (some cached) args)
      (fun _ v' ↦ ∃ kernel tree, platform.files payload.path = some kernel ∧
        platform.addOpensbiReservation l2cpu cached = some tree ∧
        Restored l2cpu kernel tree v.ram v'.ram)
      (fun _ ↦ True) v := by
  refine guests_readBinFile fun kernel hkernel ↦ ?_
  refine Settles.bind ((settles_nocWriteBulk .kernel kernel).lax fun _ _ h ↦ h) fun _ v1 h1 ↦ ?_
  obtain ⟨-, hkernelHolds, hram1⟩ := h1
  have hstored : Guests l2cpu (reimageDtb platform l2cpu (some cached))
      (fun _ v' ↦ ∃ tree, platform.addOpensbiReservation l2cpu cached = some tree ∧
        Restored l2cpu kernel tree v.ram v'.ram) (fun _ ↦ True) v1 := by
    refine settles_forSome (fun bytes hbytes ↦ ?_) nofun
    obtain rfl := Option.some.inj hbytes
    cases htree : platform.addOpensbiReservation l2cpu cached with
    | none => exact settles_throw
    | some tree =>
      refine (settles_nocWriteBulk .dtb tree).lax fun _ v2 h2 ↦ ⟨tree, rfl, ?_⟩
      obtain ⟨-, htreeHolds, hram2⟩ := h2
      refine ⟨?_, htreeHolds, fun addr _ hkernelOut htreeOut ↦ ?_⟩
      · exact hkernelHolds.of_outside (hkernelFits kernel hkernel) (htreeFits tree htree)
          (by decide) hram2
      · exact (hram2 addr htreeOut).trans (hram1 addr hkernelOut)
  refine Settles.bind hstored fun _ v2 h2 ↦ ?_
  obtain ⟨tree, htree, hrestored⟩ := h2
  refine guests_storeless_bind (only_doIf (storeless_swapAttachedForRelease platform args))
    fun _ v3 hram3 ↦ ?_
  refine Settles.bind (guests_storesBelow (storesBelow_wakeParked hbelow)) fun _ v4 hram4 ↦ ?_
  refine (guests_storeless only_tell).imp fun _ v5 hram5 ↦ ?_
  refine ⟨kernel, tree, hkernel, htree, hrestored.congr fun addr haddr ↦ ?_⟩
  rw [hram5, hram4 addr haddr, hram3]

theorem guests_releaseParked {slot : L2CpuSlot} (hslot : v.held.slot = some slot)
    (hcached : slot.dtbBytes = some cached) (hbelow : parked.Below args.l2cpu)
    (hkernelFits : ∀ image, platform.files args.payload.path = some image →
      ImagePart.kernel.Fits image)
    (htreeFits : ∀ image, platform.addOpensbiReservation args.l2cpu cached = some image →
      ImagePart.dtb.Fits image) :
    Guests args.l2cpu (releaseParked platform args parked)
      (fun _ v' ↦ ∃ kernel tree, platform.files args.payload.path = some kernel ∧
        platform.addOpensbiReservation args.l2cpu cached = some tree ∧
        Restored args.l2cpu kernel tree v.ram v'.ram)
      (fun _ ↦ True) v := by
  unfold releaseParked takeSlotDtbBytes
  rw [bind_assoc]
  refine runs_askOk (fun _ _ _ _ ↦ trivial) fun reply v' hnext hok ↦ ?_
  rw [hnext.eq (hnext.ram_of_storeless rfl) trivial, pure_bind, hnext.held.1.2 rfl, if_pos hok,
    hslot]
  rw [show (some slot).bind L2CpuSlot.dtbBytes = some cached from hcached]
  exact guests_dispatchRelease args.devices hbelow hkernelFits htreeFits

end Release

/-! ### The two compared -/

/-- A released kernel sees what a boot from reset with the same request has placed: the kernel, the
device tree with the reservation for OpenSBI, and the initramfs. -/
structure SameInputs (platform : Platform) (args : BootArgs) (dtb : Image)
    (booted released : ℕ → UInt32) : Prop where
  kernel : ∀ image, platform.files args.payload.path = some image → ∀ index < image.length,
    released (partAddr args.l2cpu .kernel + 4 * index) =
      booted (partAddr args.l2cpu .kernel + 4 * index)
  tree : ∃ image, platform.addOpensbiReservation args.l2cpu dtb = some image ∧
    Holds released (partAddr args.l2cpu .dtb) image
  initramfs : ∀ path ∈ args.initramfs, ∀ image, platform.files path = some image →
    ∀ index < image.length, released (partAddr args.l2cpu .initramfs + 4 * index) =
      booted (partAddr args.l2cpu .initramfs + 4 * index)

/-- The tree that was kept, followed by what is in the memory, begins with the tree of the request,
and the initramfs of the request is in the memory. -/
structure StillThere (platform : Platform) (args : BootArgs) (cached dtb : Image)
    (ram : ℕ → UInt32) : Prop where
  tree : ∃ image tree, platform.addOpensbiReservation args.l2cpu dtb = some image ∧
    platform.addOpensbiReservation args.l2cpu cached = some tree ∧
    ∀ index word, image[index]? = some word →
      (tree[index]?).getD (ram (partAddr args.l2cpu .dtb + 4 * index)) = word
  initramfs : ∀ path ∈ args.initramfs, ∀ image, platform.files path = some image →
    Holds ram (partAddr args.l2cpu .initramfs) image

section Compared

variable {platform : Platform} {kernel tree : Image} {ram ram' booted : ℕ → UInt32}

theorem Restored.tree_word (h : Restored l2cpu kernel tree ram ram')
    (hkernel : ImagePart.kernel.Fits kernel) (himage : ImagePart.dtb.Fits image)
    (hindex : index < image.length) :
    ram' (partAddr l2cpu .dtb + 4 * index) =
      (tree[index]?).getD (ram (partAddr l2cpu .dtb + 4 * index)) := by
  by_cases hlen : index < tree.length
  · rw [h.hasTree index _ (getElem?_eq_getElem hlen), getElem?_eq_getElem hlen]
    rfl
  · rw [getElem?_eq_none (by omega)]
    refine h.rest _ (by omega) (outside_of_fits himage hkernel (by decide) hindex) ?_
    intro index' hindex'
    omega

theorem Restored.initramfs_word (h : Restored l2cpu kernel tree ram ram')
    (hkernel : ImagePart.kernel.Fits kernel) (htree : ImagePart.dtb.Fits tree)
    (himage : ImagePart.initramfs.Fits image) (hindex : index < image.length) :
    ram' (partAddr l2cpu .initramfs + 4 * index) = ram (partAddr l2cpu .initramfs + 4 * index) := by
  refine h.rest _ ?_ (outside_of_fits himage hkernel (by decide) hindex)
    (outside_of_fits himage htree (by decide) hindex)
  have hoffset : ImagePart.dtb.offset ≤ ImagePart.initramfs.offset := by decide
  unfold partAddr
  omega

/-- The memory after a release and that after a boot from reset, compared. -/
theorem sameInputs_iff (hfits : args.Fits platform dtb)
    (hreserved : ∀ image, platform.addOpensbiReservation args.l2cpu dtb = some image →
      ImagePart.dtb.Fits image) (hplaced : args.Placed platform dtb booted)
    (hkernel : platform.files args.payload.path = some kernel)
    (htree : platform.addOpensbiReservation args.l2cpu cached = some tree)
    (htreeFits : ImagePart.dtb.Fits tree) (hrestored : Restored args.l2cpu kernel tree ram ram') :
    SameInputs platform args dtb booted ram' ↔ StillThere platform args cached dtb ram := by
  have hkernelFits := hfits.kernel kernel hkernel
  constructor
  · intro h
    obtain ⟨image, himage, hholds⟩ := h.tree
    refine ⟨⟨image, tree, himage, htree, fun index word hword ↦ ?_⟩,
      fun path hpath image hfile ↦ ?_⟩
    · obtain ⟨hindex, -⟩ := List.getElem?_eq_some_iff.mp hword
      rw [← hrestored.tree_word hkernelFits (hreserved image himage) hindex]
      exact hholds index word hword
    · obtain ⟨image', hfile', hplaced'⟩ := hplaced.initramfs path hpath
      obtain rfl : image' = image := Option.some.inj (hfile'.symm.trans hfile)
      refine hplaced'.congr fun index hindex ↦ ?_
      rw [← hrestored.initramfs_word hkernelFits htreeFits
        (hfits.initramfs path hpath image' hfile) hindex]
      exact h.initramfs path hpath image' hfile index hindex
  · intro h
    obtain ⟨image, tree', himage, htree', hwords⟩ := h.tree
    obtain rfl : tree = tree' := Option.some.inj (htree.symm.trans htree')
    refine ⟨fun image hfile index hindex ↦ ?_, ⟨image, himage, fun index word hword ↦ ?_⟩,
      fun path hpath image hfile index hindex ↦ ?_⟩
    · obtain rfl : kernel = image := Option.some.inj (hkernel.symm.trans hfile)
      obtain ⟨kernel', hkernel', hplaced'⟩ := hplaced.kernel
      obtain rfl : kernel = kernel' := Option.some.inj (hkernel.symm.trans hkernel')
      have hword := List.getElem?_eq_getElem hindex
      rw [hrestored.hasKernel index _ hword, hplaced' index _ hword]
    · obtain ⟨hindex, -⟩ := List.getElem?_eq_some_iff.mp hword
      rw [hrestored.tree_word hkernelFits (hreserved image himage) hindex]
      exact hwords index word hword
    · have hword := List.getElem?_eq_getElem hindex
      obtain ⟨image', hfile', hplaced'⟩ := hplaced.initramfs path hpath
      obtain rfl : image = image' := Option.some.inj (hfile.symm.trans hfile')
      rw [hrestored.initramfs_word hkernelFits htreeFits (hfits.initramfs path hpath image hfile)
        hindex, h.initramfs path hpath image hfile index _ hword, hplaced' index _ hword]

end Compared

/-- A released kernel sees what a boot from reset with the same request would have placed, exactly
if the device tree that was kept is the one of the request and the initramfs of the request is still
in the memory.

Assumes: the images fit in their places, the addresses that the guest has published are below them,
both the boot and the release succeed, and what happens besides leaves alone the L2CPU. -/
theorem release_like_boot_iff (platform : Platform) (args : BootArgs) (parked : ParkedReleaseMeta)
    {dtb cached : Image} {slot : L2CpuSlot} {w w' : DaemonWorld ι}
    {environment environment' : ℕ → DaemonWorld ι → DaemonWorld ι}
    (henvironment : ∀ clock w, (environment clock w).guest args.l2cpu = w.guest args.l2cpu)
    (henvironment' : ∀ clock w, (environment' clock w).guest args.l2cpu = w.guest args.l2cpu)
    (clock clock' : ℕ) (hslot : w.slots args.l2cpu = some slot)
    (hcached : slot.dtbBytes = some cached) (hbelow : parked.Below args.l2cpu)
    (hfits : ∀ dtb, args.tree platform = some dtb → args.Fits platform dtb)
    (hreserved : ∀ tree ∈ [dtb, cached], ∀ image,
      platform.addOpensbiReservation args.l2cpu tree = some image → ImagePart.dtb.Fits image)
    (hrelease : ((releaseParked platform args parked).run.run rpcExec environment clock w).result =
      .ok ())
    (hboot : ((runBootSequence platform args).run.run rpcExec environment' clock' w').result =
      .ok dtb) :
    SameInputs platform args dtb
      (((runBootSequence platform args).run.run rpcExec environment' clock' w').state.ram
        args.l2cpu)
      (((releaseParked platform args parked).run.run rpcExec environment clock w).state.ram
        args.l2cpu) ↔
    StillThere platform args cached dtb (w.ram args.l2cpu) := by
  have hbooted := run_guests henvironment' clock'
    (guests_runBootSequence hfits : Guests _ _ _ _ (w'.guest args.l2cpu))
  rw [hboot] at hbooted
  obtain ⟨hdtb, hplaced⟩ := hbooted
  have hreleased := run_guests henvironment clock (guests_releaseParked
    (show (w.guest args.l2cpu).held.slot = some slot from hslot) hcached hbelow
    (hfits dtb hdtb).kernel (hreserved cached (by simp)))
  rw [hrelease] at hreleased
  obtain ⟨kernel, tree, hkernel, htree, hrestored⟩ := hreleased
  exact sameInputs_iff (hfits dtb hdtb) (hreserved dtb (by simp)) hplaced hkernel htree
    (hreserved cached (by simp) tree htree) hrestored

/-- A platform whose device trees begin with the size of the memory. -/
def sizedPlatform : Platform :=
  { smallPlatform with
    modifyDtb := fun args dtb ↦ some (UInt32.ofNat (args.memoryOverride.getD 0) :: dtb) }

/-- A parked guest of L2CPU 1 whose last boot from reset had no request for the size of its
memory. -/
def sizedParked : DaemonWorld Unit :=
  parkedWorld Unit resetTypeShutdown { plainSlot with dtbBytes := some [0, 2] }

/-- A release of it for a request. -/
def sizedRelease (args : BootArgs) : Program.Outcome (Except Failure Unit) (DaemonWorld Unit) :=
  (releaseParked sizedPlatform args diskParkedMeta).run.run rpcExec (fun _ w ↦ w) 0 sizedParked

/-- A boot from reset with a request. -/
def sizedBoot (args : BootArgs) : Program.Outcome (Except Failure Image) (DaemonWorld Unit) :=
  (runBootSequence sizedPlatform args).run.run rpcExec (fun _ w ↦ w) 0 (startedWorld Unit [])

/-- A request that changes nothing. -/
theorem release_like_boot_iff_same :
    (sizedRelease (plainBoot 1)).result = .ok () ∧ (sizedBoot (plainBoot 1)).result = .ok [0, 2] ∧
      SameInputs sizedPlatform (plainBoot 1) [0, 2] ((sizedBoot (plainBoot 1)).state.ram 1)
        ((sizedRelease (plainBoot 1)).state.ram 1) := by
  have hrelease : (sizedRelease (plainBoot 1)).result = .ok () := rfl
  have hboot : (sizedBoot (plainBoot 1)).result = .ok [0, 2] := rfl
  have hfits : ∀ dtb, (plainBoot 1).tree sizedPlatform = some dtb →
      (plainBoot 1).Fits sizedPlatform dtb := by
    intro dtb hdtb
    obtain rfl : [0, 2] = dtb := Option.some.inj hdtb
    exact ⟨fun image himage ↦ Option.some.inj himage ▸ by decide, by decide, nofun⟩
  have hreserved : ∀ tree ∈ [([0, 2] : Image), [0, 2]], ∀ image,
      sizedPlatform.addOpensbiReservation 1 tree = some image → dtb.Fits image := by
    intro tree htree image himage
    obtain rfl : tree = [0, 2] := by simpa using htree
    obtain rfl : [0, 2] = image := Option.some.inj himage
    decide
  have hiff := release_like_boot_iff sizedPlatform (plainBoot 1) diskParkedMeta (fun _ _ ↦ rfl)
    (fun _ _ ↦ rfl) 0 0 rfl rfl (by decide +kernel) hfits hreserved hrelease hboot
  refine ⟨hrelease, hboot, hiff.mpr ⟨⟨[0, 2], [0, 2], rfl, rfl, fun index word hword ↦ ?_⟩, nofun⟩⟩
  rw [hword]
  rfl

/-- A release for a request with another size of the memory leaves the device tree at the old size,
and one for a request with an initramfs leaves the memory without it. -/
theorem release_keeps_old_inputs :
    let sized := { plainBoot 1 with memoryOverride := some 4 }
    let loaded := { plainBoot 1 with initramfs := some 3 }
    (sizedRelease sized).result = .ok () ∧ (sizedBoot sized).result = .ok [4, 2] ∧
      (sizedBoot sized).state.ram 1 (partAddr 1 .dtb) = 4 ∧
      (sizedRelease sized).state.ram 1 (partAddr 1 .dtb) = 0 ∧
      (sizedRelease loaded).result = .ok () ∧ (sizedBoot loaded).result = .ok [0, 2] ∧
      (sizedBoot loaded).state.ram 1 (partAddr 1 .initramfs) = 3 ∧
      (sizedRelease loaded).state.ram 1 (partAddr 1 .initramfs) = 0 := by
  refine ⟨rfl, rfl, ?_, ?_, rfl, rfl, ?_, ?_⟩ <;> decide +kernel

end Bhx.Daemon
