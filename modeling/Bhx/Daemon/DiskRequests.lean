import Mathlib.Data.List.Pairwise
import Bhx.SharedMemory.Mutex
import Bhx.Daemon.RegistryAgreement

/-!
# Disk requests at the same time

Requests that add or remove a disk, and releases that swap all devices, may run at the same time on
one L2CPU. What keeps its disk table whole is the mutex of the slot: a request holds it from its
first look at the slot to its last change, and a release takes it anew for each device that it
attaches (`DiskJob.run`). Without the steps on the mutex these are the handlers themselves
(`erase_diskJob`).

By itself a section does to the attachments what its handler does (`leaves_dispatchAddDisk`,
`leaves_dispatchRemoveDisk`), so the table keeps its invariant in every interleaving and every
section does what it reports (`disk_table_kept`).

Scope. One L2CPU and any number of threads that add and remove disks or swap its devices, next to
anything that leaves alone what is attached to it and poisons no mutex.
-/

set_option autoImplicit false

namespace Bhx.Daemon

open SharedMemory Chip Machine.L1Layout List Attachments

variable {ι : Type} {edit : L2CpuSlot → L2CpuSlot} (thread : ι) (platform : Platform)
  (l2cpu : L2CpuIdx) (path : Path) (name : Option Serial) (condition : Bool) {slot : L2CpuSlot}
  {want : Serial}

/-! ### Sections -/

/-- What a section with the mutex of the slot was for, and whether it ended without an error. -/
inductive DiskReport
  | addDisk (path : Path) (name : Option Serial) (ok : Bool)
  | removeDisk (name : Option Serial) (ok : Bool)
  | other

/-- A part of a thread that takes the mutex of the slot. -/
abbrev SlotM (ι α : Type) := Fallible (MutexOp ι RpcOp DiskReport) Reply Failure α

instance : Inhabited Reply := ⟨{}⟩

/-- Adds a disk, with the mutex. -/
def addDiskLocked (thread : ι) (l2cpu : L2CpuIdx) (path : Path) (name : Option Serial) :
    SlotM ι Unit :=
  locked thread (fun result ↦ .addDisk path name result.isOk) (dispatchAddDisk l2cpu path name)

/-- Removes a disk, with the mutex. -/
def removeDiskLocked (thread : ι) (l2cpu : L2CpuIdx) (name : Option Serial) : SlotM ι Unit :=
  locked thread (fun result ↦ .removeDisk name result.isOk) (dispatchRemoveDisk l2cpu name)

/-- A part under a condition, with the mutex. -/
def lockedIf (thread : ι) (condition : Bool) (part : RpcM Unit) : SlotM ι Unit :=
  if condition then locked thread (fun _ ↦ .other) part else pure ()

/-- `attach_rng_inline` from where it takes the mutex. -/
def attachRngSlot (l2cpu : L2CpuIdx) : RpcM Unit := do
  let _ ← bootedSlot l2cpu
  tell (.register l2cpu devRng .rng)
  tell (.updateSlot l2cpu fun slot ↦ { slot with virtioRng := true })

/-- Attaches the entropy device. It looks for the dispatcher before it takes the mutex. -/
def attachRngLocked (thread : ι) (l2cpu : L2CpuIdx) : SlotM ι Unit := do
  let _ ← unlocked (askOk .lockEngine)
  let _ ← unlocked (askOk .hasDispatcher)
  locked thread (fun _ ↦ .other) (attachRngSlot l2cpu)

/-- Swaps the devices of a release. The mutex is taken anew for each of them. -/
def swapLocked (thread : ι) (platform : Platform) (l2cpu : L2CpuIdx) (args : DeviceArgs) :
    SlotM ι Unit := do
  let booted ← locked thread (fun _ ↦ .other) (detachWorkers l2cpu true)
  if booted then do
    let _ ← unlocked (askOk .trial)
    args.disk.elim (pure ()) fun path ↦ addDiskLocked thread l2cpu path none
    args.cloudInit.elim (pure ()) fun path ↦ addDiskLocked thread l2cpu path (some cidata)
    lockedIf thread args.network (dispatchAddNet platform l2cpu none args.extraFwd)
    lockedIf thread args.console (dispatchAddConsole l2cpu)
    if args.rng then attachRngLocked thread l2cpu else pure ()
  else throw .error

/-- What a thread is asked to do. -/
inductive DiskJob
  | add (path : Path) (name : Option Serial)
  | remove (name : Option Serial)
  | swap (args : DeviceArgs)
deriving DecidableEq, Repr

/-- What it does. -/
def DiskJob.run (thread : ι) (platform : Platform) (l2cpu : L2CpuIdx) : DiskJob → SlotM ι Unit
  | .add path name => addDiskLocked thread l2cpu path name
  | .remove name => removeDiskLocked thread l2cpu name
  | .swap args => swapLocked thread platform l2cpu args

/-- The same without the steps on the mutex. -/
def DiskJob.handler (platform : Platform) (l2cpu : L2CpuIdx) : DiskJob → RpcM Unit
  | .add path name => dispatchAddDisk l2cpu path name
  | .remove name => dispatchRemoveDisk l2cpu name
  | .swap args => swapAttachedForRelease platform l2cpu args

theorem erase_lockedIf (part : RpcM Unit) :
    Fallible.erase (lockedIf thread condition part) = doIf condition part := by
  cases condition with
  | true => exact erase_locked thread _ part
  | false => rfl

theorem erase_elim {α : Type} (value : Option α) (part : α → SlotM ι Unit) :
    Fallible.erase (value.elim (pure ()) part) = forSome value fun a ↦ Fallible.erase (part a) := by
  cases value with
  | none => rfl
  | some a => rfl

theorem erase_attachRngLocked :
    Fallible.erase (attachRngLocked thread l2cpu) = attachRngInline l2cpu := by
  simp only [attachRngLocked, Fallible.erase_bind, erase_unlocked, erase_locked]
  rfl

theorem erase_diskJob (job : DiskJob) :
    Fallible.erase (job.run thread platform l2cpu) = job.handler platform l2cpu := by
  cases job with
  | add path name => exact erase_locked _ _ _
  | remove name => exact erase_locked _ _ _
  | swap args =>
    refine (Fallible.erase_bind _ _).trans ?_
    rw [erase_locked]
    refine congrArg (detachWorkers l2cpu true >>= ·) (funext fun booted ↦ ?_)
    cases booted with
    | false => rfl
    | true =>
      have hrng : Fallible.erase (if args.rng then attachRngLocked thread l2cpu else pure ()) =
          doIf args.rng (attachRngInline l2cpu) := by
        cases args.rng with
        | true => exact erase_attachRngLocked thread l2cpu
        | false => rfl
      simp only [if_true, Fallible.erase_bind, erase_unlocked, erase_elim, erase_lockedIf,
        addDiskLocked, erase_locked, hrng]

/-! ### What a section does -/

/-- What is held after a disk was taken out. -/
def Attachments.detachDisk (held : Attachments) (slot : L2CpuSlot) (disk : DiskWorker) :
    Attachments :=
  { held with
    slot := some { slot with disks := slot.disks.filter (· ≠ disk) }
    registry := Function.update held.registry disk.devIdx none }

/-- What a section does to what is attached. One that ends with an error changes nothing. One that
adds a disk appends its entry at a free index that was declared for it, and registers it there. One
that removes a disk takes out the entry with the given name, or the only one, and its
registration. -/
def DiskReport.Does (entry now : Attachments) : DiskReport → Prop
  | .addDisk path name true => ∃ slot devIdx, entry.slot = some slot ∧
    devIdx ∈ slot.blkDtbDevIdx ∧ devIdx ∈ blockDevs ∧ devIdx ∉ slot.disks.map DiskWorker.devIdx ∧
    now = entry.attach { slot with disks := slot.disks ++ [⟨path, name, devIdx⟩] } devIdx
      (.blk path name)
  | .removeDisk (some want) true => ∃ slot disk, entry.slot = some slot ∧ disk ∈ slot.disks ∧
    disk.name = some want ∧ now = entry.detachDisk slot disk
  | .removeDisk none true => ∃ slot disk, entry.slot = some slot ∧ slot.disks = [disk] ∧
    now = entry.detachDisk slot disk
  | .addDisk _ _ false | .removeDisk _ false => now = entry
  | .other => True

/-- The table of the slot keeps its invariant. -/
def Attachments.Tabled (held : Attachments) : Prop := ∀ slot ∈ held.slot, slot.DiskTable

/-- No disk is registered without a dispatcher. -/
def Attachments.Served (held : Attachments) : Prop :=
  held.dispatcher = false → ∀ devIdx ∈ blockDevs, held.registry devIdx = none

/-- No mutex is poisoned. -/
def SlotView.Sound (v : SlotView) : Prop := v.poisoned = fun _ ↦ false

theorem SlotView.Sound.next {op : DaemonOp ι} {reply : Reply} {v v' : SlotView} {l2cpu : L2CpuIdx}
    (h : v.Sound) (hnext : v.next l2cpu op reply v') :
    v'.Sound ∧ DaemonNext .sound l2cpu op v.held reply v'.held := by
  obtain ⟨hnext, hpoisoned⟩ := hnext
  rw [h] at hnext
  exact ⟨hpoisoned.trans h, hnext⟩

/-- What the mutex of a slot protects. -/
def slotResource (ι : Type) (l2cpu : L2CpuIdx) :
    Resource (DaemonWorld ι) SlotView RpcOp Reply DiskReport where
  view w := w.slotView l2cpu
  step op v reply v' := v.next l2cpu (.rpc op : DaemonOp ι) reply v'
  harmless := RpcOp.Still
  inv v := v.Sound ∧ v.held.Tabled ∧ v.held.Served
  within _ v := v.held.Tabled
  effect report entry now := report.Does entry.held now.held

theorem slotResource_sees : (slotResource ι l2cpu).Sees rpcExec where
  step := slotView_rpcExec l2cpu
  still op w hop := by
    have hheld : AttachNext .any l2cpu op (w.attachments l2cpu) _ _ :=
      attachNext_rpcExec l2cpu op w fun _ _ ↦ trivial
    exact congrArg₂ SlotView.mk (hheld.2.trans (hop.change _ _ _)) (rpcExec_poisoned op w)

variable {held : Attachments} {α : Type}

section Sections

variable {l2cpu : L2CpuIdx}

theorem Attachments.Tabled.attach (hslot : L2CpuSlot) (devIdx : ℕ) (device : Device)
    (h : hslot.DiskTable) : (held.attach hslot devIdx device).Tabled :=
  fun _ heq ↦ Option.mem_some_iff.mp heq ▸ h

theorem Attachments.Tabled.map (h : held.Tabled)
    (hedit : ∀ slot : L2CpuSlot, slot.DiskTable → (edit slot).DiskTable) :
    (held.withSlot (held.slot.map edit)).Tabled := by
  intro slot hslot
  obtain ⟨slot', hslot', rfl⟩ := Option.map_eq_some_iff.mp hslot
  exact hedit slot' (h slot' hslot')

/-- A part that changes the slot in one way keeps the table whole, when that way does. -/
theorem tabled_of_edits {part : RpcM α} (hpart : part.Only (RpcOp.Edits l2cpu edit))
    (hedit : ∀ slot : L2CpuSlot, slot.DiskTable → (edit slot).DiskTable) (h : held.Tabled) :
    Settles (AttachNext .sound l2cpu) (fun _ held ↦ held.Tabled) part (fun _ held ↦ held.Tabled)
      (fun _ held ↦ held.Tabled) held := by
  refine settles_keeping hpart (fun op v hop hv ↦ ⟨hv, fun reply v' hnext ↦ ?_⟩) h
  rw [hnext.2]
  cases op with
  | editSlot target edit' =>
    obtain ⟨rfl, rfl⟩ := hop
    rw [RpcOp.change, if_pos ⟨rfl, hnext.1.1⟩]
    exact hv.map hedit
  | updateSlot target edit' =>
    obtain ⟨rfl, rfl⟩ := hop
    rw [RpcOp.change, if_pos rfl]
    exact hv.map hedit
  | register target devIdx device =>
    have hown : target = l2cpu := hop
    rw [RpcOp.change, if_pos hown]
    exact hv
  | unregister target devIdx =>
    have hown : target = l2cpu := hop
    rw [RpcOp.change, if_pos hown]
    exact hv
  | read32 | write32 | peekSlot | lockEngine | hasDispatcher | dupFd | trial => exact hv
  | _ => exact absurd hop not_false

/-- The table changes with the last step of a request that adds a disk. -/
theorem tabled_dispatchAddDisk (h : held.Tabled) :
    Settles (AttachNext .sound l2cpu) (fun _ held ↦ held.Tabled) (dispatchAddDisk l2cpu path name)
      (fun _ _ ↦ True) (fun _ _ ↦ True) held := by
  unfold dispatchAddDisk bootedSlot
  rw [bind_assoc]
  refine settles_ask (fun reply v hnext ↦ ?_) h
  rw [show v = held from hnext.2]
  cases reply.slot with
  | none => exact settles_throw
  | some slot =>
    change Settles _ _ (if _ then _ else _) _ _ _
    split_ifs
    · refine settles_askOk (fun _ _ _ _ ↦ trivial) (fun _ v hnext _ ↦ ?_) h
      rw [show v = held from hnext.2]
      cases pickFreeBlkSlot (slot.disks.map DiskWorker.devIdx) slot.blkDtbDevIdx with
      | none => exact settles_throw
      | some devIdx =>
        -- the dispatcher and the engine are there, and the image is mapped
        iterate 3
          refine settles_askOk (fun _ _ _ _ ↦ trivial) (fun _ v hnext _ ↦ ?_) h
          rw [show v = held from hnext.2]
        refine settles_ask (fun _ v hnext ↦ settles_ask (fun _ _ _ ↦ settles_pure trivial) ?_) h
        rw [hnext.2, RpcOp.change, if_pos rfl]
        exact h
    · exact settles_throw

theorem Attachments.Served.without (h : held.Served) (slot : Option L2CpuSlot) (devs : List ℕ) :
    ((held.withSlot slot).without devs).Served :=
  fun hnone devIdx hdev ↦ by simp [Attachments.without, Attachments.withSlot, h hnone devIdx hdev]

theorem Attachments.Served.attach (h : held.Served) (slot : L2CpuSlot) {devIdx : ℕ}
    (hdev : devIdx ∉ blockDevs) (device : Device) : (held.attach slot devIdx device).Served := by
  intro hnone other hother
  have hne : other ≠ devIdx := fun heq ↦ hdev (heq ▸ hother)
  simp [Attachments.attach, hne, h hnone other hother]

theorem settles_addDiskSection (htabled : held.Tabled) (hserved : held.Served) :
    Settles (AttachNext .sound l2cpu) (fun _ held ↦ held.Tabled) (dispatchAddDisk l2cpu path name)
      (fun _ now ↦ (DiskReport.addDisk path name true).Does held now ∧ now.Tabled ∧ now.Served)
      (fun _ now ↦ (DiskReport.addDisk path name false).Does held now ∧ now.Tabled ∧ now.Served)
      held := by
  refine ((leaves_dispatchAddDisk l2cpu held path name).and
    (tabled_dispatchAddDisk path name htabled)).mono (fun _ now hnow ↦ ?_) fun _ now hnow ↦ ?_
  · obtain ⟨⟨hdisp, slot, devIdx, hslot, hmay, hpick, rfl⟩, -⟩ := hnow
    obtain ⟨hblock, heligible, hfree⟩ := mem_of_pickFreeBlkSlot hpick
    refine ⟨⟨slot, devIdx, hslot, heligible, hblock, hfree, rfl⟩, ?_, ?_⟩
    · exact .attach _ _ _ ((htabled slot hslot).append hmay hpick path)
    · exact fun hnone ↦ absurd (hdisp.symm.trans hnone) (by decide)
  · obtain ⟨rfl, -⟩ := hnow
    exact ⟨rfl, htabled, hserved⟩

theorem L2CpuSlot.DiskTable.eq_of_name (h : slot.DiskTable) {disk other : DiskWorker}
    (hdisk : disk ∈ slot.disks) (hother : other ∈ slot.disks) (hname : disk.name = some want)
    (hname' : other.name = some want) : other = disk := by
  by_contra hne
  have hsymm : Std.Symm fun disk other : DiskWorker ↦
      ∀ name, disk.name = some name → ∀ name', other.name = some name' → name ≠ name' :=
    ⟨fun _ _ h name hname name' hname' ↦ (h name' hname' name hname).symm⟩
  exact (pairwise_filterMap.mp h.names).forall hother hdisk hne want hname' want hname rfl

/-- What a request with a name takes out of a whole table is one entry. -/
theorem L2CpuSlot.DiskTable.takenDisks (h : slot.DiskTable)
    (hmay : mayRemoveDisk slot (some want) = true) :
    ∃ disk ∈ slot.disks, disk.name = some want ∧ slot.takenDisks (some want) = [disk] ∧
      (slot.disks.filter fun other ↦ other.name ≠ some want) = slot.disks.filter (· ≠ disk) := by
  have htaken : slot.takenDisks (some want) ≠ [] := by
    simpa using (Bool.and_eq_true _ _).mp hmay |>.2
  obtain ⟨disk, hdisk⟩ := exists_mem_of_ne_nil _ htaken
  obtain ⟨hdisk, hname⟩ := mem_filter.mp hdisk
  have hname : disk.name = some want := of_decide_eq_true hname
  have hiff (other : DiskWorker) (hother : other ∈ slot.disks) : other.name = some want ↔ other =
    disk := ⟨h.eq_of_name hdisk hother hname, fun heq ↦ heq ▸ hname⟩
  have hnodup : slot.disks.Nodup := .of_map _ h.nodup
  refine ⟨disk, hdisk, hname, ?_, ?_⟩
  · calc slot.takenDisks (some want) = slot.disks.filter (· = disk) :=
          filter_congr fun other hother ↦ by simp [hiff other hother]
      _ = replicate (slot.disks.count disk) disk := filter_eq disk
      _ = [disk] := by rw [count_eq_one_of_mem hnodup hdisk, replicate_one]
  · exact filter_congr fun other hother ↦ by simp [hiff other hother]

theorem Attachments.without_eq_detachDisk (hserved : held.Served) (slot : L2CpuSlot)
    {disk : DiskWorker} (hdisk : disk.devIdx ∈ blockDevs) :
    (held.withSlot (some { slot with disks := slot.disks.filter (· ≠ disk) })).without
      [disk.devIdx] = held.detachDisk slot disk := by
  unfold without detachDisk withSlot
  congr 1
  funext devIdx
  by_cases hself : devIdx = disk.devIdx
  · subst hself
    cases hdisp : held.dispatcher with
    | true => simp
    | false => simp [hserved hdisp _ hdisk]
  · simp [hself]

theorem settles_removeDiskSection (htabled : held.Tabled) (hserved : held.Served) :
    Settles (AttachNext .sound l2cpu) (fun _ held ↦ held.Tabled) (dispatchRemoveDisk l2cpu name)
      (fun _ now ↦ (DiskReport.removeDisk name true).Does held now ∧ now.Tabled ∧ now.Served)
      (fun _ now ↦ (DiskReport.removeDisk name false).Does held now ∧ now.Tabled ∧ now.Served)
      held := by
  refine ((leaves_dispatchRemoveDisk l2cpu held name).and (tabled_of_edits
    (attaches_edits.does_dispatchRemoveDisk ⟨rfl, rfl⟩) (fun _ htable ↦ htable.withoutDisks name)
    htabled)).mono
    (fun _ now hnow ↦ ?_) fun _ now hnow ↦ ?_
  · obtain ⟨⟨-, slot, hslot, hmay, rfl⟩, hnow⟩ := hnow
    refine ⟨?_, hnow, hserved.without _ _⟩
    have htable := htabled slot hslot
    cases name with
    | some want =>
      obtain ⟨disk, hdisk, hname, htaken, hfilter⟩ := htable.takenDisks hmay
      refine ⟨slot, disk, hslot, hdisk, hname, ?_⟩
      rw [htaken, L2CpuSlot.withoutDisks, hfilter]
      exact without_eq_detachDisk hserved slot (htable.block disk hdisk)
    | none =>
      obtain ⟨disk, hdisks⟩ : ∃ disk, slot.disks = [disk] := by
        rw [← length_eq_one_iff]
        have hempty := hmay
        simp [mayRemoveDisk, L2CpuSlot.takenDisks] at hempty
        have hpos := length_pos_of_ne_nil hempty.1.1
        omega
      refine ⟨slot, disk, hslot, hdisks, ?_⟩
      have hdisk : disk.devIdx ∈ blockDevs := htable.block disk (by simp [hdisks])
      rw [← without_eq_detachDisk hserved slot hdisk]
      simp [L2CpuSlot.withoutDisks, L2CpuSlot.takenDisks, hdisks]
  · obtain ⟨⟨rfl, -⟩ | ⟨-, hlock, -⟩, hnow⟩ := hnow
    swap
    · exact absurd hlock (by decide)
    refine ⟨?_, hnow, hserved⟩
    cases name with
    | none => rfl
    | some want => rfl

theorem settles_otherSection {part : RpcM α} (hpart : part.Only (RpcOp.Edits l2cpu edit))
    (hedit : ∀ slot : L2CpuSlot, slot.DiskTable → (edit slot).DiskTable)
    {post : α → Attachments → Prop} {fail : Attachments → Prop}
    (hleaves : Leaves .sound l2cpu part post fail held)
    (hpost : ∀ value now, post value now → now.Served) (hfail : ∀ now, fail now → now.Served)
    (htabled : held.Tabled) :
    Settles (AttachNext .sound l2cpu) (fun _ held ↦ held.Tabled) part
      (fun _ now ↦ DiskReport.other.Does held now ∧ now.Tabled ∧ now.Served)
      (fun _ now ↦ DiskReport.other.Does held now ∧ now.Tabled ∧ now.Served) held :=
  (hleaves.and (tabled_of_edits hpart hedit htabled)).mono
    (fun _ _ hnow ↦ ⟨trivial, hnow.2, hpost _ _ hnow.1⟩)
    fun _ _ hnow ↦ ⟨trivial, hnow.2, hfail _ hnow.1⟩

theorem leaves_attachRngSlot :
    Leaves .sound l2cpu (attachRngSlot l2cpu)
      (fun _ now ↦ ∃ slot, now = held.attach slot devRng .rng) (fun now ↦ now = held) held :=
  leaves_bootedSlot rfl fun _ hslot ↦ leaves_attach l2cpu hslot ⟨_, rfl⟩

theorem edits_attachRngSlot :
    (attachRngSlot l2cpu).Only (RpcOp.Edits l2cpu fun slot ↦ { slot with virtioRng := true }) :=
  attaches_edits.does_bootedSlot.bind fun _ ↦ attaches_edits.does_attach ⟨rfl, rfl⟩

end Sections

/-! ### A thread by itself -/

section Jobs

variable {l2cpu : L2CpuIdx} {thread : ι}

/-- A part of a thread keeps to what the mutex protects, and begins and ends outside of sections. -/
abbrev Guards (l2cpu : L2CpuIdx) (thread : ι) (part : SlotM ι α) : Prop :=
  Settles (slotResource ι l2cpu).next ((slotResource ι l2cpu).guarantee thread) part
    (fun _ place ↦ place = .outside) (fun _ place ↦ place = .outside) .outside

theorem guards_bind {β : Type} {part : SlotM ι α} {rest : α → SlotM ι β}
    (h : Guards l2cpu thread part) (hrest : ∀ value, Guards l2cpu thread (rest value)) :
    Guards l2cpu thread (part >>= rest) :=
  Settles.bind h fun value place hplace ↦ by
    rw [show place = .outside from hplace]
    exact hrest value

/-- A section with the mutex, while no mutex is poisoned. -/
theorem guards_locked {part : RpcM α} {report : Except Failure α → DiskReport}
    (h : ∀ held : Attachments, held.Tabled → held.Served →
      Settles (AttachNext .sound l2cpu) (fun _ held ↦ held.Tabled) part
        (fun value now ↦ (report (.ok value)).Does held now ∧ now.Tabled ∧ now.Served)
        (fun failure now ↦ (report (.error failure)).Does held now ∧ now.Tabled ∧ now.Served)
        held) : Guards l2cpu thread (locked thread report part) := by
  refine Resource.settles_locked fun v hinv ↦ ?_
  obtain ⟨hsound, htabled, hserved⟩ := hinv
  have hop (op : RpcOp) (u : SlotView) (hu : u.Sound) (hop : u.held.Tabled) :
      u.held.Tabled ∧ ∀ reply u', (slotResource ι l2cpu).step op u reply u' →
        u'.Sound ∧ AttachNext .sound l2cpu op u.held reply u'.held := by
    exact ⟨hop, fun reply u' hnext ↦ hu.next hnext⟩
  exact (Settles.lift SlotView.held hop hsound (h v.held htabled hserved)).mono
    (fun _ _ hnow ↦ ⟨hnow.2.1, hnow.1, hnow.2.2⟩) fun _ _ hnow ↦ ⟨hnow.2.1, hnow.1, hnow.2.2⟩

theorem guards_addDisk : Guards l2cpu thread (addDiskLocked thread l2cpu path name) :=
  guards_locked fun _ ↦ settles_addDiskSection path name

theorem guards_removeDisk : Guards l2cpu thread (removeDiskLocked thread l2cpu name) :=
  guards_locked fun _ ↦ settles_removeDiskSection name

theorem guards_lockedIf {part : RpcM Unit}
    (h : Guards l2cpu thread (locked thread (fun _ ↦ .other) part)) :
    Guards l2cpu thread (lockedIf thread condition part) := by
  cases condition with
  | true => exact h
  | false => exact settles_pure rfl

theorem guards_swap (args : DeviceArgs) :
    Guards l2cpu thread (swapLocked thread platform l2cpu args) := by
  have hsame {slot slot' : L2CpuSlot} (hdisks : slot'.disks = slot.disks) (h : slot.DiskTable) :
      slot'.DiskTable := h.sublist (hdisks ▸ .refl _)
  have hdisk (path : Option Path) (name : Option Serial) :
      Guards l2cpu thread
        (path.elim (pure ()) fun path ↦ addDiskLocked thread l2cpu path name) := by
    cases path with
    | none => exact settles_pure rfl
    | some path => exact guards_addDisk path name
  have hfalse {now : Attachments} (hlock : Locks.sound .dispatcher false) : now.Served :=
    absurd hlock (by decide)
  refine guards_bind (guards_locked fun held htabled hserved ↦ settles_otherSection
    (attaches_edits.does_detachWorkers ⟨rfl, rfl⟩) (fun _ h ↦ h.sublist (nil_sublist _))
    (leaves_detachWorkers l2cpu held true) ?_ (fun _ h ↦ hfalse h.1) htabled) fun booted ↦ ?_
  · rintro _ _ (⟨-, -, rfl⟩ | ⟨-, rfl | ⟨-, hlock, -⟩⟩)
    · exact hserved
    · exact hserved.without _ _
    · exact hfalse hlock
  cases booted with
  | false => exact settles_throw
  | true =>
    refine guards_bind (Resource.settles_unlocked only_askOk) fun _ ↦ ?_
    refine guards_bind (hdisk _ _) fun _ ↦ guards_bind (hdisk _ _) fun _ ↦ ?_
    refine guards_bind (guards_lockedIf _ (guards_locked fun held htabled hserved ↦
      settles_otherSection (attaches_edits.does_dispatchAddNet ⟨rfl, rfl⟩)
        (fun _ ↦ hsame rfl) (leaves_dispatchAddNet l2cpu held platform none args.extraFwd) ?_
        (fun _ heq ↦ heq ▸ hserved) htabled)) fun _ ↦ ?_
    · rintro _ _ ⟨-, slot, -, -, rfl⟩
      exact hserved.attach _ (by decide) _
    refine guards_bind (guards_lockedIf _ (guards_locked fun held htabled hserved ↦
      settles_otherSection (attaches_edits.does_dispatchAddConsole ⟨rfl, rfl⟩) (fun _ ↦ hsame rfl)
        (leaves_dispatchAddConsole l2cpu held) ?_ (fun _ heq ↦ heq ▸ hserved) htabled)) fun _ ↦ ?_
    · rintro _ _ ⟨-, slot, -, -, rfl⟩
      exact hserved.attach _ (by decide) _
    cases args.rng with
    | false => exact settles_pure rfl
    | true =>
      refine guards_bind (Resource.settles_unlocked only_askOk) fun _ ↦ ?_
      refine guards_bind (Resource.settles_unlocked only_askOk) fun _ ↦ ?_
      refine guards_locked fun held htabled hserved ↦ settles_otherSection edits_attachRngSlot
        (fun _ ↦ hsame rfl) leaves_attachRngSlot ?_ (fun _ heq ↦ heq ▸ hserved) htabled
      rintro _ _ ⟨slot, rfl⟩
      exact hserved.attach _ (by decide) _

theorem guards_job (job : DiskJob) : Guards l2cpu thread (job.run thread platform l2cpu) := by
  cases job with
  | add path name => exact guards_addDisk path name
  | remove name => exact guards_removeDisk name
  | swap args => exact guards_swap platform args

end Jobs

/-! ### After a boot -/

section Booted

variable {platform : Platform} {l2cpu : L2CpuIdx} {held' : Attachments}

/-- No effect registers a disk without a dispatcher. -/
theorem Effect.served {allowance : Allowance} (heffect : Effect platform l2cpu allowance held held')
    (h : held.Served) : held'.Served := by
  have hattach (hdisp : held.dispatcher = true) (slot : L2CpuSlot) (devIdx : ℕ)
      (device : Device) : (held.attach slot devIdx device).Served :=
    fun hnone ↦ absurd (hdisp.symm.trans hnone) (by decide)
  cases heffect with
  | addDisk hdisp => exact hattach hdisp _ _ _
  | addNet hdisp => exact hattach hdisp _ _ _
  | addConsole hdisp => exact hattach hdisp _ _ _
  | addRng hdisp => exact hattach hdisp _ _ _
  | removeDisk => exact h.without _ _
  | removeNet => exact h.without held.slot [devNet]
  | removeConsole => exact h.without held.slot [devConsole]
  | detach => exact h.without _ _
  | tearDown => exact h.without none _
  | dropEngine => exact fun _ _ _ ↦ rfl
  | bringUp => exact nofun
  | @boot args dtb up =>
    by_cases hdisp : held.dispatcher = true
    · rw [booted_of_dispatcher _ _ _ _ hdisp]
      exact fun hnone ↦ absurd (hdisp.symm.trans hnone) (by decide)
    · rw [booted_of_none _ _ _ _ hdisp]
      exact h

/-- Nothing is known of the steps but the answers to requests for mutexes. -/
def Setting.any (ι : Type) (platform : Platform) (l2cpu : L2CpuIdx) (locks : Locks) :
    Setting ι where
  platform
  l2cpu
  locks
  allowance _ _ _ := True
  sure _ _ _ := True
  registers _ _ _ _ _ := trivial

theorem releases_any (platform : Platform) (l2cpu : L2CpuIdx) (locks : Locks) (thread : ι) :
    Setting.Releases (Setting.any ι platform l2cpu locks) thread fun _ ↦ True :=
  fun _ _ _ ↦ (Setting.leads_still (Setting.still_releaseL2cpuFromReset thread l2cpu)).lax
    fun _ _ h ↦ h

theorem settles_coldBoot_table (platform : Platform) (thread : ι) (args : BootArgs)
    (hserved : held.Served) :
    Runs (Setting.any ι platform args.l2cpu .sound).next (coldBoot platform thread args)
      (fun _ held' ↦ held'.Tabled ∧ held'.Served) (fun _ _ ↦ True) held := by
  refine (Setting.settles_coldBoot (releases_any platform _ _ thread) rfl).lax fun _ held' h ↦ ?_
  obtain ⟨heffects, v, dtb, up, -, heq⟩ := h
  refine ⟨?_, heffects.keeping (fun _ _ heffect ↦ heffect.served)
    ⟨fun _ h ↦ h, fun _ h ↦ h, fun _ h ↦ h⟩ hserved⟩
  intro slot hslot
  by_cases hdisp : v.dispatcher = true
  · rw [heq, booted_of_dispatcher _ _ _ _ hdisp] at hslot
    obtain rfl := Option.mem_some_iff.mp hslot
    exact diskTable_bootSlot args dtb up
  · rw [heq, booted_of_none _ _ _ _ hdisp] at hslot
    obtain rfl := Option.mem_some_iff.mp hslot
    exact (diskTable_bootSlot args dtb up).sublist (nil_sublist _)

end Booted

/-! ### Threads -/

/-- Threads that carry out disk jobs on one L2CPU. What happens besides is any change of the
world. -/
def diskThreads (ι : Type) (platform : Platform) (l2cpu : L2CpuIdx) :
    Cores ι (MutexOp ι RpcOp DiskReport) Reply (DaemonWorld ι → DaemonWorld ι)
      (Guarded ι (DaemonWorld ι)) fun _ ↦ List DiskJob :=
  mutexThreads rpcExec (fun event w ↦ event w) fun thread jobs ↦
    match jobs with
    | [] => pure []
    | job :: jobs => do
      let _ ← (job.run thread platform l2cpu).run
      pure jobs

/-- The threads between jobs, with the mutex free. -/
def diskStart (w : DaemonWorld ι) (jobs : ι → List DiskJob) :
    Config ι (MutexOp ι RpcOp DiskReport) Reply (DaemonWorld ι → DaemonWorld ι)
      (Guarded ι (DaemonWorld ι)) fun _ ↦ List DiskJob where
  scene := ⟨⟨w, none, w⟩, []⟩
  rest thread := .done (jobs thread)

section Threads

variable [DecidableEq ι]

/-- After a boot from reset, in every interleaving of requests that add and remove disks and of
swaps, the disk table of the slot is whole: at most three entries, for different block devices, with
different names. A section that ends does what it reports: with an error it has changed nothing,
else it has added or removed one entry, with its registration.

Assumes: no mutex is poisoned, no disk is registered without a dispatcher before the boot, and what
happens besides leaves alone what is attached to the L2CPU and poisons no mutex. -/
theorem disk_table_kept (platform : Platform) (args : BootArgs) (booter : ι)
    {environment : ℕ → DaemonWorld ι → DaemonWorld ι}
    (henvironment : ∀ clock w, (environment clock w).slotView args.l2cpu = w.slotView args.l2cpu)
    (clock : ℕ) {w : DaemonWorld ι} (hsound : (w.slotView args.l2cpu).Sound)
    (hserved : (w.attachments args.l2cpu).Served)
    (hboot : ((coldBoot platform booter args).run.run (daemonExec platform) environment clock
      w).result = .ok ()) (jobs : ι → List DiskJob)
    (turns : List (Turn ι (DaemonWorld ι → DaemonWorld ι))) :
    let start := diskStart
      ((coldBoot platform booter args).run.run (daemonExec platform) environment
      clock w).state jobs
    (diskThreads ι platform args.l2cpu).Admits
      ((slotResource ι args.l2cpu).Waits fun event w ↦ event w) start turns →
    let c := (diskThreads ι platform args.l2cpu).follow start turns
    (∀ slot ∈ c.scene.memory.memory.slots args.l2cpu, slot.DiskTable) ∧
      ∀ thread report, (c.rest thread).nextOp = some (.unlock report) →
        report.Does (c.scene.memory.entry.attachments args.l2cpu)
          (c.scene.memory.memory.attachments args.l2cpu) := by
  intro start hturns c
  have hop (op : DaemonOp ι) (u : SlotView) (hu : u.Sound) (_ : True) : True ∧ ∀ reply u',
      u.next args.l2cpu op reply u' →
        u'.Sound ∧ (Setting.any ι platform args.l2cpu .sound).next op u.held reply u'.held :=
    ⟨trivial, fun reply u' hnext ↦ ⟨(hu.next hnext).1, trivial, (hu.next hnext).2⟩⟩
  have hbooted := (Settles.lift SlotView.held hop hsound
    (settles_coldBoot_table platform booter args hserved)).run
    (fun w : DaemonWorld ι ↦ w.slotView args.l2cpu) (slotView_daemonExec platform args.l2cpu)
    henvironment clock
  rw [hboot] at hbooted
  have hholds : (slotResource ι args.l2cpu).Holds (fun _ _ ↦ True) c := by
    refine Resource.follow (slotResource_sees args.l2cpu) (fun thread jobs _ ↦ ?_) hturns
      ⟨fun _ ↦ ⟨trivial, rfl⟩, fun _ ↦ hbooted⟩
    cases jobs with
    | nil => exact ⟨trivial, rfl⟩
    | cons job jobs =>
      refine Meets.bind (guards_job platform job) fun result place hplace ↦ ⟨trivial, ?_⟩
      cases result with
      | ok value => exact hplace
      | error failure => exact hplace
  exact ⟨hholds.always (fun _ hinv ↦ hinv.2.1) fun _ _ hwithin ↦ hwithin,
    fun thread report hnext ↦ hholds.effect hnext⟩

end Threads

/-- A boot of L2CPU 1 with a disk and a seed. -/
def seededBoot : BootArgs :=
  { plainBoot 1 with devices := { DeviceArgs.none with disk := some 5, cloudInit := some 6 } }

/-- Two threads after it, of which one adds a disk and the other removes the seed. -/
def seededStart : Config Bool (MutexOp Bool RpcOp DiskReport) Reply
    (DaemonWorld Bool → DaemonWorld Bool) (Guarded Bool (DaemonWorld Bool)) fun _ ↦ List DiskJob :=
  diskStart ((coldBoot smallPlatform true seededBoot).run.run (daemonExec smallPlatform)
    (fun _ w ↦ w) 0 (startedWorld Bool [])).state
    fun thread ↦ if thread then [.add 7 none] else [.remove (some cidata)]

/-- The first thread begins and waits while the second removes the seed. -/
def seededTurns : List (Turn Bool (DaemonWorld Bool → DaemonWorld Bool)) :=
  .core true :: (List.replicate 6 (.core false) ++ List.replicate 8 (.core true))

/-- The turn is one of a thread that finds the mutex free, if it wants it. -/
def takesTurn (c : Config Bool (MutexOp Bool RpcOp DiskReport) Reply
    (DaemonWorld Bool → DaemonWorld Bool) (Guarded Bool (DaemonWorld Bool)) fun _ ↦ List DiskJob) :
    Turn Bool (DaemonWorld Bool → DaemonWorld Bool) → Bool
  | .core thread => match (c.rest thread).nextOp with
    | some (.lock _) => c.scene.memory.owner.isNone
    | _ => true
  | .act _ => false

theorem waits_of_takesTurn {c : Config Bool (MutexOp Bool RpcOp DiskReport) Reply
    (DaemonWorld Bool → DaemonWorld Bool) (Guarded Bool (DaemonWorld Bool)) fun _ ↦ List DiskJob}
    {turn : Turn Bool (DaemonWorld Bool → DaemonWorld Bool)} (h : takesTurn c turn = true) :
    (slotResource Bool 1).Waits (fun event w ↦ event w) c turn := by
  cases turn with
  | act event => exact absurd h (by simp [takesTurn])
  | core thread =>
    intro taker hnext
    simpa [takesTurn, hnext] using h

set_option maxRecDepth 4000 in
/-- The disk takes the device of the seed. -/
theorem disk_table_kept_seed :
    let c := (diskThreads Bool smallPlatform 1).follow seededStart seededTurns
    (c.rest true).nextOp = some (.unlock (.addDisk 7 none true)) ∧
      (∀ slot ∈ c.scene.memory.memory.slots 1, slot.DiskTable) ∧
      (DiskReport.addDisk 7 none true).Does (c.scene.memory.entry.attachments 1)
        (c.scene.memory.memory.attachments 1) := by
  have hserved : ((startedWorld Bool []).attachments 1).Served := fun _ _ _ ↦ rfl
  have hsound : ((startedWorld Bool []).slotView 1).Sound := rfl
  have hturns : (diskThreads Bool smallPlatform 1).Admits (fun c turn ↦ takesTurn c turn = true)
      seededStart seededTurns := by decide +kernel
  have hnext :
      (((diskThreads Bool smallPlatform 1).follow seededStart seededTurns).rest true).nextOp =
      some (.unlock (.addDisk 7 none true)) := rfl
  have hkept := disk_table_kept smallPlatform seededBoot true (fun _ _ ↦ rfl) 0 hsound hserved rfl
    (fun thread ↦ if thread then [.add 7 none] else [.remove (some cidata)]) seededTurns
    (hturns.mono _ fun _ _ ↦ waits_of_takesTurn)
  exact ⟨hnext, hkept.1, hkept.2 true _ hnext⟩

end Bhx.Daemon
