import Bhx.Daemon.BootLayout
import Bhx.Daemon.DiskRequests
import Bhx.Daemon.DeviceRequests

/-!
# Disks that the kernel can see

The kernel finds the virtio devices that are in its device tree when it starts. A disk that is added
later is seen if it takes the place of a device that has a node. `run_boot_sequence` makes the nodes
from what the request asks for. `dispatch_boot` notes in the slot which block devices have one, and
it notes the first of them whether the request has a disk or not. So does the slot of a guest that
was taken over from an earlier daemon. After a boot without a disk the first disk that is added is
registered and reported as attached, and the kernel never sees it (`unseen_disk`).

`hot_added_visible` says that this is all: when the kernel was booted with a disk, every disk that
is added later has a node.

Scope. The requests are carried out one after the other, next to any steps that leave alone what is
attached to the L2CPU. The device tree of a boot is any that `modify_dtb` makes for the request.
-/

set_option autoImplicit false

namespace Bhx.Daemon

open SharedMemory Chip DeviceTree Machine.L1Layout Option

variable {ι : Type} {devIdx : ℕ}

/-! ### The device tree of a boot -/

/-- DISK_IRQ. -/
def diskIrq : ℕ := 33
/-- NET_IRQ. -/
def netIrq : ℕ := 32
/-- CONSOLE_IRQ. -/
def consoleIrq : ℕ := 31
/-- RNG_IRQ. -/
def rngIrq : ℕ := 30
/-- DISK1_IRQ. -/
def disk1Irq : ℕ := 29

/-- The closure `emit` of `run_boot_sequence`. -/
def emit (x280Base devIdx : ℕ) (enabled : Bool) (irq : ℕ) : List VirtioMmioNode :=
  if enabled then [⟨x280Base + devIdx * regsPerDev, regsPerDev, irq⟩] else []

/-- The nodes that `run_boot_sequence` asks for. -/
def virtioNodes (x280Base : ℕ) (devices : DeviceArgs) : List VirtioMmioNode :=
  if devices.asks then
    emit x280Base devBlk devices.disk.isSome diskIrq ++
      emit x280Base devNet devices.network netIrq ++
      emit x280Base devConsole devices.console consoleIrq ++
      emit x280Base devRng devices.rng rngIrq ++
      emit x280Base devBlk1 devices.cloudInit.isSome disk1Irq
  else []

/-- The boot device of `run_boot_sequence`. -/
def BootArgs.bootDevice (args : BootArgs) (initramfsLen : ℕ) : BootDevice :=
  if args.payload.isUboot then .uboot
  else
    match args.initramfs, args.devices.disk with
    | some _, some _ =>
      .initramfsAndVda (partAddr args.l2cpu .initramfs) initramfsLen args.rootDevice
    | some _, none => .initramfs (partAddr args.l2cpu .initramfs) initramfsLen
    | none, _ => .vda args.rootDevice

/-- The device tree that the kernel of a boot is started with. -/
def bootTree (x280Base : ℕ) (args : BootArgs) (initramfsLen : ℕ) (raw : Fdt) : Option Fdt :=
  modifyDtb raw (args.bootDevice initramfsLen) (startingAddress args.l2cpu)
    (bootMemorySize args.l2cpu args.memoryOverride) (virtioNodes x280Base args.devices) none
    args.devices.console args.extraBootargs

/-- The kernel finds a virtio device with the index. -/
def Visible (x280Base : ℕ) (tree : Fdt) (devIdx : ℕ) : Prop :=
  Present tree (x280Base + devIdx * regsPerDev) regsPerDev

instance (x280Base : ℕ) (tree : Fdt) (devIdx : ℕ) : Decidable (Visible x280Base tree devIdx) :=
  inferInstanceAs (Decidable (Present _ _ _))

section Trees

variable {x280Base initramfsLen : ℕ} {args : BootArgs} {raw tree : Fdt}

variable (htree : bootTree x280Base args initramfsLen raw = some tree)
include htree

theorem visible_of_emit {irq : ℕ}
    (hemit : ⟨x280Base + devIdx * regsPerDev, regsPerDev, irq⟩ ∈
      virtioNodes x280Base args.devices) : Visible x280Base tree devIdx :=
  present_of_modifyDtb htree hemit

/-- The block devices that `dispatch_boot` notes have nodes, if there is a disk. -/
theorem visible_of_freshSlot (hdisk : args.devices.disk.isSome = true) (dtb : Image)
    (hdev : devIdx ∈ (freshSlot args dtb).blkDtbDevIdx) : Visible x280Base tree devIdx := by
  have hasks : args.devices.asks = true := by simp [DeviceArgs.asks, hdisk]
  rcases List.mem_cons.mp hdev with rfl | hseed
  · have hemit : ⟨x280Base + devBlk * regsPerDev, regsPerDev, diskIrq⟩ ∈
        virtioNodes x280Base args.devices := by
      simp [virtioNodes, hasks, emit, hdisk]
    exact visible_of_emit htree hemit
  · by_cases hcloudInit : args.devices.cloudInit.isSome = true
    · rw [if_pos hcloudInit] at hseed
      obtain rfl := List.mem_singleton.mp hseed
      have hemit : ⟨x280Base + devBlk1 * regsPerDev, regsPerDev, disk1Irq⟩ ∈
          virtioNodes x280Base args.devices := by
        simp [virtioNodes, hasks, emit, hcloudInit]
      exact visible_of_emit htree hemit
    · rw [if_neg hcloudInit] at hseed
      exact absurd hseed List.not_mem_nil

end Trees

/-- The platform makes device trees as `run_boot_sequence` does with `modify_dtb`; images are read
as trees by `parse`. -/
def Platform.Patches (platform : Platform) (x280Base : ℕ) (parse : Image → Option Fdt) : Prop :=
  ∀ args raw dtb, platform.modifyDtb args raw = some dtb → ∃ initramfsLen, ∃ fdt ∈ parse raw,
    ∃ tree ∈ bootTree x280Base args initramfsLen fdt, parse dtb = some tree

/-- Then the block devices that a boot with a disk notes have nodes in the tree that it stores. -/
theorem Platform.Patches.visible {platform : Platform} {x280Base : ℕ} {parse : Image → Option Fdt}
    (h : platform.Patches x280Base parse) {args : BootArgs} {raw dtb : Image}
    (hdtb : platform.modifyDtb args raw = some dtb) (hdisk : args.devices.disk.isSome = true)
    (hdev : devIdx ∈ (freshSlot args dtb).blkDtbDevIdx) :
    ∃ tree ∈ parse dtb, Visible x280Base tree devIdx := by
  obtain ⟨_, _, -, tree, htree, hparse⟩ := h args raw dtb hdtb
  exact ⟨tree, hparse, visible_of_freshSlot htree hdisk dtb hdev⟩

/-! ### The block devices of a slot -/

/-- The slot that `make_slot_from_l2cpu` makes for a guest of an earlier daemon. -/
def resumedSlot : L2CpuSlot where
  disks := []
  blkDtbDevIdx := [devBlk]
  dtbBytes := none
  net := false
  virtioConsole := false
  virtioRng := false
  bootPayload := none
  netExtraFwd := []

/-- The block devices that the slot has noted. -/
def Attachments.blkDevs (held : Attachments) : Option (List ℕ) :=
  held.slot.map L2CpuSlot.blkDtbDevIdx

section Requests

variable {platform : Platform} {l2cpu : L2CpuIdx} {held : Attachments}

/-- The request leaves the block devices that the slot has noted. -/
abbrev KeepsBlkDevs (l2cpu : L2CpuIdx) (part : RpcM Unit) (held : Attachments) : Prop :=
  Leaves .any l2cpu part (fun _ held' ↦ held'.blkDevs = held.blkDevs)
    (fun held' ↦ held'.blkDevs = held.blkDevs) held

theorem blkDtbDevIdx_withoutDisks (name : Option Serial) (slot : L2CpuSlot) :
    (slot.withoutDisks name).blkDtbDevIdx = slot.blkDtbDevIdx := by
  cases name with
  | none =>
    unfold L2CpuSlot.withoutDisks
    split_ifs
    · rfl
    · rfl
  | some want => rfl

theorem keepsBlkDevs_detachDevice (devIdx : ℕ) (has : L2CpuSlot → Bool)
    {take : L2CpuSlot → L2CpuSlot}
    (htake : ∀ slot, (take slot).blkDtbDevIdx = slot.blkDtbDevIdx) :
    KeepsBlkDevs l2cpu (detachDevice l2cpu devIdx has take) held := by
  have htaken : (held.slot.map take).map L2CpuSlot.blkDtbDevIdx = held.blkDevs := by
    rw [map_map, Attachments.blkDevs]
    exact congrArg (held.slot.map ·) (funext htake)
  refine (leaves_detachDevice l2cpu held devIdx has take).mono (fun _ held' h ↦ ?_)
    fun _ held' h ↦ ?_
  · rw [h.2.2]
    exact htaken
  · rcases h with ⟨-, rfl⟩ | ⟨-, ⟨-, rfl⟩ | ⟨-, rfl⟩⟩
    · rfl
    · rfl
    · exact htaken

theorem leaves_blkDevs (request : DeviceRequest) :
    KeepsBlkDevs l2cpu (request.dispatch platform l2cpu) held := by
  have hsame {held' : Attachments} (h : held' = held) : held'.blkDevs = held.blkDevs := by rw [h]
  cases request with
  | addDisk path name =>
    refine (leaves_dispatchAddDisk l2cpu held path name).mono (fun _ held' h ↦ ?_) fun _ _ ↦ hsame
    obtain ⟨-, slot, devIdx, hslot, -, -, rfl⟩ := h
    simp [Attachments.blkDevs, Attachments.attach, hslot]
  | removeDisk name =>
    refine (leaves_dispatchRemoveDisk l2cpu held name).mono (fun _ held' h ↦ ?_) fun _ held' h ↦ ?_
    · obtain ⟨-, slot, hslot, -, rfl⟩ := h
      rw [Attachments.blkDevs, Attachments.blkDevs, hslot]
      exact congrArg some (blkDtbDevIdx_withoutDisks name slot)
    · rcases h with ⟨heq, -⟩ | ⟨-, -, slot, hslot, -, rfl⟩
      · exact hsame heq
      · rw [Attachments.blkDevs, Attachments.blkDevs, hslot]
        exact congrArg some (blkDtbDevIdx_withoutDisks name slot)
  | addNet sshPort extraFwd =>
    refine (leaves_dispatchAddNet l2cpu held platform sshPort extraFwd).mono (fun _ held' h ↦ ?_)
      fun _ _ ↦ hsame
    obtain ⟨-, slot, hslot, -, rfl⟩ := h
    simp [Attachments.blkDevs, Attachments.attach, hslot]
  | addConsole =>
    refine (leaves_dispatchAddConsole l2cpu held).mono (fun _ held' h ↦ ?_) fun _ _ ↦ hsame
    obtain ⟨-, slot, hslot, -, rfl⟩ := h
    simp [Attachments.blkDevs, Attachments.attach, hslot]
  | removeNet => exact keepsBlkDevs_detachDevice devNet _ fun _ ↦ rfl
  | removeConsole => exact keepsBlkDevs_detachDevice devConsole _ fun _ ↦ rfl

/-- A boot from reset notes the block devices that its slot begins with. -/
theorem settles_coldBoot_blkDevs (platform : Platform) (thread : ι) (args : BootArgs) :
    Settles (Setting.any ι platform args.l2cpu .any).next (fun _ _ ↦ True)
      (coldBoot platform thread args)
      (fun _ held' ↦ ∃ dtb, held'.blkDevs = some (freshSlot args dtb).blkDtbDevIdx)
      (fun _ _ ↦ True) held := by
  refine (Setting.settles_coldBoot (releases_any platform _ _ thread) rfl).lax fun _ held' h ↦ ?_
  obtain ⟨-, v, dtb, up, -, rfl⟩ := h
  refine ⟨dtb, ?_⟩
  by_cases hdisp : v.dispatcher = true
  · rw [Attachments.booted_of_dispatcher _ _ _ _ hdisp]
    rfl
  · rw [Attachments.booted_of_none _ _ _ _ hdisp]
    rfl

end Requests

/-! ### Histories -/

/-- The world and the number of steps so far. -/
structure RequestHistory (ι : Type) where
  world : DaemonWorld ι
  clock : ℕ

section Histories

variable (platform : Platform) (l2cpu : L2CpuIdx) (environment : ℕ → DaemonWorld ι → DaemonWorld ι)

/-- What happens next to the requests leaves alone what is attached to the L2CPU. -/
def Quiet (l2cpu : L2CpuIdx) (environment : ℕ → DaemonWorld ι → DaemonWorld ι) : Prop :=
  ∀ clock w, (environment clock w).attachments l2cpu = w.attachments l2cpu

/-- The run of a request. -/
def RequestHistory.run (history : RequestHistory ι) (request : DeviceRequest) :
    Program.Outcome (Except Failure Unit) (DaemonWorld ι) :=
  (request.dispatch platform l2cpu).run.run rpcExec environment history.clock history.world

/-- What a request leaves. -/
def RequestHistory.after (history : RequestHistory ι) (request : DeviceRequest) :
    RequestHistory ι :=
  let outcome := history.run platform l2cpu environment request
  ⟨outcome.state, outcome.clock⟩

/-- A world in which the guest that runs was booted as asked: by a boot from reset that has just
succeeded, or before the daemon started, which has then taken it over. -/
inductive RunningAs (args : BootArgs) : DaemonWorld ι → Prop
  | booted {thread : ι} {clock : ℕ} {w : DaemonWorld ι}
      (hboot : ((coldBoot platform thread args).run.run (daemonExec platform) environment clock
        w).result = .ok ()) :
      RunningAs args ((coldBoot platform thread args).run.run (daemonExec platform) environment
        clock w).state
  | resumed {w : DaemonWorld ι} (hslot : w.slots args.l2cpu = some resumedSlot) : RunningAs args w

variable {platform l2cpu environment}

theorem Leaves.settled_any {α : Type} {part : RpcM α} {post : α → Attachments → Prop}
    {fail : Attachments → Prop} {w : DaemonWorld ι}
    (h : Leaves .any l2cpu part post fail (w.attachments l2cpu))
    (henvironment : Quiet l2cpu environment) (clock : ℕ) :
    Settled post (fun _ ↦ fail) (part.run.run rpcExec environment clock w).result
      ((part.run.run rpcExec environment clock w).state.attachments l2cpu) :=
  h.run (fun w : DaemonWorld ι ↦ w.attachments l2cpu)
    (fun op w ↦ attachNext_rpcExec l2cpu op w fun _ _ ↦ trivial) henvironment clock

theorem RequestHistory.blkDevs_foldl (henvironment : Quiet l2cpu environment)
    (requests : List DeviceRequest) (history : RequestHistory ι) :
    ((requests.foldl (RequestHistory.after platform l2cpu environment) history).world.attachments
        l2cpu).blkDevs = (history.world.attachments l2cpu).blkDevs := by
  induction requests generalizing history with
  | nil => rfl
  | cons request requests ih =>
    refine (ih _).trans ?_
    have hleaves : KeepsBlkDevs l2cpu (request.dispatch platform l2cpu)
        (history.world.attachments l2cpu) := leaves_blkDevs request
    have hsettled := hleaves.settled_any henvironment history.clock
    change Settled _ _ (history.run platform l2cpu environment request).result
      ((history.run platform l2cpu environment request).state.attachments l2cpu) at hsettled
    cases hres : (history.run platform l2cpu environment request).result with
    | ok value =>
      rw [hres] at hsettled
      exact hsettled
    | error failure =>
      rw [hres] at hsettled
      exact hsettled

/-- What is noted of a guest that runs has nodes, if it was booted with a disk. -/
theorem RunningAs.visible {args : BootArgs} {w : DaemonWorld ι}
    (h : RunningAs platform environment args w) (henvironment : Quiet args.l2cpu environment)
    (hdisk : args.devices.disk.isSome = true) {x280Base initramfsLen : ℕ} {raw tree : Fdt}
    (htree : bootTree x280Base args initramfsLen raw = some tree) {devs : List ℕ}
    (hdevs : (w.attachments args.l2cpu).blkDevs = some devs) (hdev : devIdx ∈ devs) :
    Visible x280Base tree devIdx := by
  cases h with
  | @booted thread clock w hboot =>
    have hsettles : Settles (Setting.any ι platform args.l2cpu .any).next (fun _ _ ↦ True)
        (coldBoot platform thread args)
        (fun _ held' ↦ ∃ dtb, held'.blkDevs = some (freshSlot args dtb).blkDtbDevIdx)
        (fun _ _ ↦ True) (w.attachments args.l2cpu) := settles_coldBoot_blkDevs platform thread args
    have hsettled := hsettles.run (fun w : DaemonWorld ι ↦ w.attachments args.l2cpu)
      (fun op w ↦ ⟨trivial, daemonNext_daemonExec platform args.l2cpu op w fun _ _ ↦ trivial⟩)
      henvironment clock
    rw [hboot] at hsettled
    obtain ⟨dtb, hnoted⟩ := hsettled
    obtain rfl := some.inj (hnoted.symm.trans hdevs)
    exact visible_of_freshSlot htree hdisk dtb hdev
  | resumed hslot =>
    have hnoted : (w.attachments args.l2cpu).blkDevs = some [devBlk] := by
      rw [Attachments.blkDevs, show (w.attachments args.l2cpu).slot = some resumedSlot from hslot]
      rfl
    obtain rfl := some.inj (hnoted.symm.trans hdevs)
    have hfirst : devIdx = devBlk := List.mem_singleton.mp hdev
    exact visible_of_freshSlot htree hdisk [] (List.mem_cons.mpr (.inl hfirst))

end Histories

/-- A disk that is added to a guest that was booted with a disk is seen by its kernel. Assumes: a
guest that was booted from reset as asked, by this daemon or an earlier one, with any other devices
and any device tree that `modify_dtb` makes for the request; and any requests for devices after
that, with any failures of steps, next to anything that leaves alone what is attached to the L2CPU.
A request to add a disk that succeeds then adds it to the slot, with the index of a device that has
a node. -/
theorem hot_added_visible (platform : Platform) (args : BootArgs)
    {environment : ℕ → DaemonWorld ι → DaemonWorld ι} (henvironment : Quiet args.l2cpu environment)
    (hdisk : args.devices.disk.isSome = true) {x280Base initramfsLen : ℕ} {raw tree : Fdt}
    (htree : bootTree x280Base args initramfsLen raw = some tree) {w : DaemonWorld ι}
    (hrunning : RunningAs platform environment args w) (clock : ℕ) (requests : List DeviceRequest)
    (path : Path) (name : Option Serial) :
    let history := requests.foldl (RequestHistory.after platform args.l2cpu environment) ⟨w, clock⟩
    let outcome := history.run platform args.l2cpu environment (.addDisk path name)
    outcome.result = .ok () → ∃ slot devIdx, history.world.slots args.l2cpu = some slot ∧
      outcome.state.slots args.l2cpu =
        some { slot with disks := slot.disks ++ [⟨path, name, devIdx⟩] } ∧
      Visible x280Base tree devIdx := by
  intro history outcome hadded
  have hsettled := (leaves_dispatchAddDisk args.l2cpu (history.world.attachments args.l2cpu) path
    name).settled_any henvironment history.clock
  change Settled _ _ outcome.result (outcome.state.attachments args.l2cpu) at hsettled
  rw [hadded] at hsettled
  obtain ⟨-, slot, devIdx, hslot, -, hpick, hheld⟩ := hsettled
  refine ⟨slot, devIdx, hslot, congrArg Attachments.slot hheld, ?_⟩
  have hnoted : (w.attachments args.l2cpu).blkDevs = some slot.blkDtbDevIdx := by
    rw [← RequestHistory.blkDevs_foldl henvironment requests ⟨w, clock⟩]
    exact congrArg (Option.map L2CpuSlot.blkDtbDevIdx) hslot
  exact hrunning.visible henvironment hdisk htree hnoted (mem_of_pickFreeBlkSlot hpick).2.1

/-! ### Boots with and without a disk -/

/-- A device tree with a memory and a bus. -/
def smallTree : Fdt :=
  [⟨[], ⟨"memory", some 0x400030000000⟩, []⟩, ⟨[], ⟨"soc", none⟩, []⟩,
    ⟨[⟨"soc", none⟩], ⟨"interrupt-controller", some 0xc000000⟩, []⟩]

/-- The world after a boot of L2CPU 1 from reset. -/
def bootedWorld (args : BootArgs) : DaemonWorld Unit :=
  ((coldBoot smallPlatform () args).run.run (daemonExec smallPlatform) (fun _ w ↦ w) 0
    (startedWorld Unit [])).state

/-- A disk that is added to a guest with a disk and a seed, whose disk was removed before. -/
theorem hot_added_visible_again :
    ∃ tree ∈ bootTree 0x430000000 seededBoot 0 smallTree,
      let history := RequestHistory.after smallPlatform 1 (fun _ w ↦ w) ⟨bootedWorld seededBoot, 0⟩
        (.removeDisk (some cidata))
      let outcome := history.run smallPlatform 1 (fun _ w ↦ w) (.addDisk 7 none)
      outcome.result = .ok () ∧ ∃ slot devIdx, history.world.slots 1 = some slot ∧
        outcome.state.slots 1 = some { slot with disks := slot.disks ++ [⟨7, none, devIdx⟩] } ∧
        Visible 0x430000000 tree devIdx := by
  have htree : (bootTree 0x430000000 seededBoot 0 smallTree).isSome = true := by decide +kernel
  obtain ⟨tree, htree⟩ := isSome_iff_exists.mp htree
  have hadded : ((RequestHistory.after smallPlatform 1 (fun _ w ↦ w) ⟨bootedWorld seededBoot, 0⟩
      (.removeDisk (some cidata))).run smallPlatform 1 (fun _ w ↦ w) (.addDisk 7 none)).result =
      .ok () := by decide +kernel
  exact ⟨tree, htree, hadded, hot_added_visible smallPlatform seededBoot (fun _ _ ↦ rfl) rfl htree
    (.booted (by decide +kernel)) 0 [.removeDisk (some cidata)] 7 none hadded⟩

/-- A boot of L2CPU 1 with a network. -/
def networkBoot : BootArgs :=
  { plainBoot 1 with devices := { DeviceArgs.none with network := true } }

/-- A guest is booted with a network and no disk. A disk that is added then is reported as attached
and registered as the first block device, for which the device tree of the kernel has no node. The
same happens when a later daemon has taken over the guest. -/
theorem unseen_disk :
    ((coldBoot smallPlatform () networkBoot).run.run (daemonExec smallPlatform) (fun _ w ↦ w) 0
        (startedWorld Unit [])).result = .ok () ∧
      (∃ tree ∈ bootTree 0x430000000 networkBoot 0 smallTree, ¬ Visible 0x430000000 tree devBlk) ∧
      ∀ w ∈ [bootedWorld networkBoot, (bootedWorld networkBoot).setSlot 1 (some resumedSlot)],
        let outcome := (RequestHistory.mk w 0).run smallPlatform 1 (fun _ w ↦ w) (.addDisk 7 none)
        outcome.result = .ok () ∧ outcome.state.registry 1 devBlk = some (.blk 7 none) ∧
          (outcome.state.slots 1).map L2CpuSlot.disks = some [⟨7, none, devBlk⟩] := by
  have hunseen : (bootTree 0x430000000 networkBoot 0 smallTree).any
      (fun tree ↦ decide ¬ Visible 0x430000000 tree devBlk) = true := by decide +kernel
  refine ⟨by decide +kernel, ?_, by decide +kernel⟩
  cases htree : bootTree 0x430000000 networkBoot 0 smallTree with
  | none => simp [htree] at hunseen
  | some tree =>
    rw [htree] at hunseen
    exact ⟨tree, rfl, of_decide_eq_true hunseen⟩

end Bhx.Daemon
