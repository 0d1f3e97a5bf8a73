import Bhx.Daemon.DiskTable
import Bhx.Daemon.ConcurrentJobs

/-!
# The registry and the slots

The daemon keeps twice what is attached to an L2CPU: its dispatcher has the devices that are
registered and its slot has their workers. More than ten handlers change the two, and none of them
does so in one step. When no thread is at work on the L2CPU they should agree: a device is
registered exactly if the slot has a worker for it, and nothing at all is left of an L2CPU whose
slot is empty.

Several things break this. A boot from reset registers the entropy device without a worker in the
slot (`entropy_without_worker`), so that no later teardown by the workers finds it. A boot that
fails after its registrations, when the core does not leave reset, its prefetchers cannot be set up
or a mutex is poisoned, leaves the devices, the UART and the console thread behind
(`failed_boot_leaves_devices`). A teardown that does not get the dispatcher leaves what is
registered, and two handlers for one L2CPU may undo what the other one does.
`registry_agrees_with_slot` and `nothing_left_without_slot` say that in runs without these steps
both properties hold, whatever the jobs of the threads are and whichever other steps fail. They
follow from what handlers do to the attachments (`Effect`): `Tidy` and `Agrees` are kept by each
effect.
-/

set_option autoImplicit false

namespace Bhx.Daemon

open SharedMemory Chip Machine.L1Layout List Attachments L2CpuSlot

variable {ι : Type} {platform : Platform} {devIdx : ℕ} {held' : Attachments} {l2cpu : L2CpuIdx}
  {args : BootArgs}

/-! ### Steps that can be carried out -/

/-- A fatal step can be carried out: the mutex is free, the window to the chip is open, the store
goes through. -/
def DaemonOp.Ready (w : DaemonWorld ι) : DaemonOp ι → Prop
  | .chip (.lock _ _) => w.chip.poisoned = false ∧ w.chip.seqLock.isNone = true
  | .chip (.arcRead32 _) | .chip (.arcWrite32 _ _) => w.chip.inner = true
  | .rpc _ => w.luck = true
  | _ => True

instance (w : DaemonWorld ι) : (op : DaemonOp ι) → Decidable (op.Ready w)
  | .chip (.lock _ _) => inferInstanceAs (Decidable (_ ∧ _))
  | .chip (.arcRead32 _) | .chip (.arcWrite32 _ _) => inferInstanceAs (Decidable (_ = _))
  | .rpc _ => inferInstanceAs (Decidable (_ = _))
  | .chip .unlock | .chip .poison | .resetBoard | .readFlag | .setFlag => .isTrue trivial

theorem not_failed_of_ready {op : DaemonOp ι} {w : DaemonWorld ι} (hop : op.Fatal)
    (h : op.Ready w) : ¬ op.Failed (daemonExec platform op w).1 := by
  cases op with
  | chip op =>
    cases op with
    | lock thread call =>
      obtain ⟨hpoisoned, hfree⟩ := h
      simp [DaemonOp.Failed, daemonExec, chipExec, hpoisoned, hfree]
    | arcRead32 addr =>
      have hopen : w.chip.inner = true := h
      simp [DaemonOp.Failed, daemonExec, chipExec, hopen]
    | arcWrite32 addr value =>
      have hopen : w.chip.inner = true := h
      simp [DaemonOp.Failed, daemonExec, chipExec, hopen]
    | _ => simp [DaemonOp.Failed, daemonExec, chipExec]
  | rpc op =>
    cases op with
    | write32 target addr value =>
      have hluck : w.luck = true := h
      simp [DaemonOp.Failed, daemonExec, rpcExec, DaemonWorld.tryStore, hluck]
    | _ => exact hop.elim
  | _ => exact hop.elim

/-- A handler for the L2CPU asks for the mutex. -/
def Mutex.Concerns (l2cpu : L2CpuIdx) : Mutex → Prop
  | .slot target => target = l2cpu
  | .tensixEngine | .dispatcher => True

instance (l2cpu : L2CpuIdx) : (mutex : Mutex) → Decidable (mutex.Concerns l2cpu)
  | .slot target => inferInstanceAs (Decidable (target = l2cpu))
  | .tensixEngine | .dispatcher => .isTrue trivial

/-- The setting in which fatal steps can be carried out, mutexes are there and only these devices
are registered. -/
def Setting.along (ι : Type) (platform : Platform) (l2cpu : L2CpuIdx) (allowance : Allowance) :
    Setting ι where
  platform
  l2cpu
  allowance
  locks mutex ok := mutex.Concerns l2cpu → ok = true
  sure op held reply :=
    (op.Fatal → held.slot = none → held.consoles ≠ 0 → ¬ op.Failed reply) ∧
      ∀ devIdx device, op = .rpc (.register l2cpu devIdx device) → allowance held.slot devIdx device
  registers _ devIdx device _ hsure := hsure.2 devIdx device rfl

/-- The step is not a fatal one that cannot be carried out while a console thread of the L2CPU runs
without a slot. -/
def DaemonOp.Firm (l2cpu : L2CpuIdx) (w : DaemonWorld ι) (op : DaemonOp ι) : Prop :=
  op.Fatal → w.slots l2cpu = none → w.consoles l2cpu ≠ 0 → op.Ready w

/-- The step asks for no mutex of the L2CPU that is poisoned. -/
def DaemonOp.Unpoisoned (l2cpu : L2CpuIdx) (w : DaemonWorld ι) (op : DaemonOp ι) : Prop :=
  ∀ mutex ∈ op.mutexes, mutex.Concerns l2cpu → w.poisoned mutex = false

/-- In order, and without an exit that leaves something behind: threads begin to work on the L2CPU
one after the other, and no step of one that is engaged with it finds a poisoned mutex or is fatal
and fails. -/
def Steady [DecidableEq ι] (workers : ι → Worker) (l2cpu : L2CpuIdx) (c : DaemonConfig ι) :
    Turn ι Incident → Prop
  | .core thread => Orderly workers l2cpu c thread ∧ (Engaged workers l2cpu c thread →
      ∀ op ∈ (c.rest thread).nextOp, op.Firm l2cpu c.scene.memory ∧
        op.Unpoisoned l2cpu c.scene.memory)
  | .act _ => True

instance (l2cpu : L2CpuIdx) (w : DaemonWorld ι) (op : DaemonOp ι) :
    Decidable (op.Firm l2cpu w ∧ op.Unpoisoned l2cpu w) :=
  inferInstanceAs (Decidable ((op.Fatal → w.slots l2cpu = none → w.consoles l2cpu ≠ 0 →
    op.Ready w) ∧ ∀ mutex ∈ op.mutexes, mutex.Concerns l2cpu → w.poisoned mutex = false))

instance [DecidableEq ι] [Fintype ι] (workers : ι → Worker) (l2cpu : L2CpuIdx)
    (c : DaemonConfig ι) : (turn : Turn ι Incident) → Decidable (Steady workers l2cpu c turn)
  | .core thread => inferInstanceAs (Decidable (Orderly workers l2cpu c thread ∧
    (Engaged workers l2cpu c thread → ∀ op ∈ (c.rest thread).nextOp,
      op.Firm l2cpu c.scene.memory ∧ op.Unpoisoned l2cpu c.scene.memory)))
  | .act _ => .isTrue trivial

/-! ### Tidy attachments -/

/-- Nothing is left of an L2CPU whose slot is empty, and one that has a slot has one console
thread. -/
structure Attachments.Tidy (held : Attachments) : Prop where
  unused : held.slot = none →
    (∀ devIdx, held.registry devIdx = none) ∧ held.uart = false ∧ held.consoles = 0
  served : held.slot ≠ none → held.consoles = 1
  unserved : held.dispatcher = false →
    (∀ devIdx, held.registry devIdx = none) ∧ held.uart = false
  indexed : ∀ devIdx, held.registry devIdx ≠ none → devIdx < devsPerL2Cpu

variable {held : Attachments}

theorem Attachments.Tidy.attach (h : held.Tidy) (hslot : held.slot ≠ none)
    (hdisp : held.dispatcher = true) (slot' : L2CpuSlot) (hindex : devIdx < devsPerL2Cpu)
    (device : Device) : (held.attach slot' devIdx device).Tidy where
  unused hnone := absurd hnone (Option.some_ne_none _)
  served _ := h.served hslot
  unserved hnone := absurd hnone (by simp [Attachments.attach, hdisp])
  indexed other hother := by
    by_cases hself : other = devIdx
    · rw [hself]
      exact hindex
    · exact h.indexed other (by simpa [Attachments.attach, hself] using hother)

theorem Attachments.Tidy.without (h : held.Tidy) (devs : List ℕ) : (held.without devs).Tidy where
  unused hnone := ⟨fun devIdx ↦ by simp [Attachments.without, (h.unused hnone).1 devIdx],
    (h.unused hnone).2⟩
  served := h.served
  unserved hnone := ⟨fun devIdx ↦ by simp [Attachments.without, (h.unserved hnone).1 devIdx],
    (h.unserved hnone).2⟩
  indexed devIdx hdev := h.indexed devIdx (by simp_all [Attachments.without])

theorem Attachments.Tidy.map (h : held.Tidy) (edit : L2CpuSlot → L2CpuSlot) :
    (held.withSlot (held.slot.map edit)).Tidy where
  unused hnone := h.unused (by simpa [withSlot] using hnone)
  served hsome := h.served (by simpa [withSlot] using hsome)
  unserved := h.unserved
  indexed := h.indexed

theorem Attachments.Tidy.tornDown (h : held.Tidy) (hslot : held.slot ≠ none) :
    (held.withSlot none).tornDown.Tidy := by
  have hgone (devIdx : ℕ) : (held.withSlot none).tornDown.registry devIdx = none := by
    by_cases hdisp : held.dispatcher = true
    · by_contra hdev
      have hindex := h.indexed devIdx
        (by simp_all [Attachments.tornDown, Attachments.without, withSlot])
      exact hdev (by simp [Attachments.tornDown, Attachments.without, withSlot,
        hdisp, hindex])
    · simp [Attachments.tornDown, Attachments.without, withSlot, hdisp,
        (h.unserved (Bool.eq_false_iff.mpr hdisp)).1 devIdx]
  have huart : (held.withSlot none).tornDown.uart = false := by
    by_cases hdisp : held.dispatcher = true
    · simp [Attachments.tornDown, withSlot, hdisp]
    · simp [Attachments.tornDown, withSlot,
        (h.unserved (Bool.eq_false_iff.mpr hdisp)).2]
  exact ⟨fun _ ↦ ⟨hgone, huart, by simp [Attachments.tornDown, withSlot,
    h.served hslot]⟩, fun hsome ↦ absurd rfl hsome, fun _ ↦ ⟨hgone, huart⟩,
    fun devIdx hdev ↦ absurd (hgone devIdx) hdev⟩

theorem Attachments.put_ne_none (held : Attachments) (devIdx : ℕ) (device : Option Device)
    (other : ℕ) : (held.put devIdx device).registry other ≠ none ↔
      (other = devIdx ∧ device ≠ none) ∨ held.registry other ≠ none := by
  by_cases hself : other = devIdx
  · cases device <;> simp [put, hself]
  · simp [put, hself]

/-- The devices that are registered after the registrations of a boot. -/
theorem Attachments.registerAll_ne_none (held : Attachments) (platform : Platform) (args : BootArgs)
    (up : BootDevices) (devIdx : ℕ) :
    (held.registerAll platform args up).registry devIdx ≠ none ↔
      (devIdx = devConsole ∧ args.devices.console = true) ∨ (devIdx = devNet ∧ up.net = true) ∨
      (devIdx = devBlk1 ∧ up.seed ≠ none) ∨ (devIdx = devBlk ∧ up.disk ≠ none) ∨
      (devIdx = devRng ∧ args.devices.rng = true) ∨ held.registry devIdx ≠ none := by
  unfold registerAll
  simp only [put_ne_none]
  simp

theorem Attachments.Tidy.booted (h : held.Tidy) (hslot : held.slot = none) (platform : Platform)
    (args : BootArgs) (dtb : Image) (up : BootDevices) :
    (held.booted platform args dtb up).Tidy := by
  obtain ⟨hregistry, huart, hconsoles⟩ := h.unused hslot
  by_cases hdisp : held.dispatcher = true
  · rw [booted_of_dispatcher platform args dtb up hdisp]
    refine ⟨fun hnone ↦ absurd hnone (Option.some_ne_none _), fun _ ↦ by simp [hconsoles],
      fun hnone ↦ absurd (hdisp.symm.trans hnone) (by decide), fun devIdx hdev ↦ ?_⟩
    rw [held.registerAll_ne_none] at hdev
    rcases hdev with ⟨rfl, -⟩ | ⟨rfl, -⟩ | ⟨rfl, -⟩ | ⟨rfl, -⟩ | ⟨rfl, -⟩ | hdev
    any_goals decide
    exact absurd (hregistry devIdx) hdev
  · rw [booted_of_none platform args dtb up hdisp]
    exact ⟨fun hnone ↦ absurd hnone (Option.some_ne_none _), fun _ ↦ by simp [hconsoles],
      fun _ ↦ ⟨hregistry, huart⟩, h.indexed⟩

theorem Effect.tidy {allowance : Allowance} (heffect : Effect platform l2cpu allowance held held')
    (h : held.Tidy) : held'.Tidy := by
  have hbooted {slot : L2CpuSlot} (hslot : held.slot = some slot) : held.slot ≠ none :=
    hslot ▸ Option.some_ne_none slot
  cases heffect with
  | addDisk hdisp hslot hmay hpick =>
    exact h.attach (hbooted hslot) hdisp _ (lt_of_mem_blockDevs (mem_of_pickFreeBlkSlot hpick).1) _
  | addNet hdisp hslot => exact h.attach (hbooted hslot) hdisp _ (by decide) _
  | addConsole hdisp hslot => exact h.attach (hbooted hslot) hdisp _ (by decide) _
  | addRng hdisp hslot => exact h.attach (hbooted hslot) hdisp _ (by decide) _
  | @removeDisk slot name hslot hmay =>
    have hmap := h.map (withoutDisks name)
    rw [hslot] at hmap
    exact hmap.without _
  | removeNet => exact (h.without _).map _
  | removeConsole => exact (h.without _).map _
  | detach => exact (h.map _).without _
  | tearDown hslot => exact h.tornDown hslot
  | dropEngine hslot =>
    exact ⟨fun _ ↦ ⟨fun _ ↦ rfl, rfl, (h.unused hslot).2.2⟩, h.served, fun _ ↦ ⟨fun _ ↦ rfl, rfl⟩,
      fun devIdx hdev ↦ absurd rfl hdev⟩
  | bringUp => exact ⟨h.unused, h.served, nofun, h.indexed⟩
  | boot hl2cpu hslot => exact h.booted hslot _ _ _ _

/-! ### Agreement -/

/-- The devices registered for an L2CPU are those that its slot has workers for. -/
structure Attachments.Agrees (held : Attachments) : Prop where
  tidy : held.Tidy
  table : ∀ slot ∈ held.slot, slot.DiskTable
  registered : ∀ devIdx, held.registry devIdx ≠ none ↔ ∃ slot ∈ held.slot, devIdx ∈ slot.workers

theorem L2CpuSlot.mem_workers {slot : L2CpuSlot} :
    devIdx ∈ slot.workers ↔ (∃ disk ∈ slot.disks, disk.devIdx = devIdx) ∨
      (slot.net = true ∧ devIdx = devNet) ∨ (slot.virtioConsole = true ∧ devIdx = devConsole) ∨
      (slot.virtioRng = true ∧ devIdx = devRng) := by
  unfold workers
  by_cases hnet : slot.net = true <;> by_cases hconsole : slot.virtioConsole = true <;>
    by_cases hrng : slot.virtioRng = true <;> simp [hnet, hconsole, hrng]

section Agrees

variable {slot slot' : L2CpuSlot}

theorem Attachments.Agrees.attach (h : held.Agrees) (hslot : held.slot = some slot)
    (hdisp : held.dispatcher = true) (hindex : devIdx < devsPerL2Cpu) (device : Device)
    (htable : slot'.DiskTable)
    (hworkers : ∀ other, other ∈ slot'.workers ↔ other = devIdx ∨ other ∈ slot.workers) :
    (held.attach slot' devIdx device).Agrees where
  tidy := h.tidy.attach (by simp [hslot]) hdisp slot' hindex device
  table := by simpa [Attachments.attach] using htable
  registered other := by
    have hbefore := h.registered other
    by_cases hself : other = devIdx
    · simp [Attachments.attach, hself, hworkers]
    · simp_all [Attachments.attach]

/-- Workers are taken out of the slot and their devices are unregistered. -/
theorem Attachments.Agrees.detach (h : held.Agrees) (hslot : held.slot = some slot) {devs : List ℕ}
    (htable : slot'.DiskTable)
    (hworkers : ∀ other, other ∈ slot'.workers ↔ other ∈ slot.workers ∧ other ∉ devs) :
    ((held.withSlot (some slot')).without devs).Agrees where
  tidy := by
    have hmap := h.tidy.map fun _ ↦ slot'
    rw [hslot] at hmap
    exact hmap.without devs
  table := by simpa [without, withSlot] using htable
  registered other := by
    have hbefore : held.registry other ≠ none ↔ other ∈ slot.workers := by
      simpa [hslot] using h.registered other
    by_cases hdisp : held.dispatcher = true
    · by_cases hmem : other ∈ devs <;> simp_all [without, withSlot]
    · have hnone := (h.tidy.unserved (Bool.eq_false_iff.mpr hdisp)).1 other
      simp_all [without, withSlot]

theorem Attachments.Tidy.agrees (h : held.Tidy) (hslot : held.slot = none) : held.Agrees where
  tidy := h
  table := by simp [hslot]
  registered devIdx := by simp [hslot, (h.unused hslot).1 devIdx]

theorem L2CpuSlot.DiskTable.mem_workers_filter (h : slot.DiskTable) (keep : DiskWorker → Bool)
    (devIdx : ℕ) :
    devIdx ∈ ({ slot with disks := slot.disks.filter keep } : L2CpuSlot).workers ↔
      devIdx ∈ slot.workers ∧
        devIdx ∉ (slot.disks.filter fun disk ↦ !keep disk).map DiskWorker.devIdx := by
  have hinj {disk disk' : DiskWorker} (hdisk : disk ∈ slot.disks) (hdisk' : disk' ∈ slot.disks)
      (heq : disk.devIdx = disk'.devIdx) : disk = disk' :=
    inj_on_of_nodup_map h.nodup hdisk hdisk' heq
  have hother {other : ℕ} (hne : other ∉ blockDevs) :
      other ∉ (slot.disks.filter fun disk ↦ !keep disk).map DiskWorker.devIdx := by
    intro hmem
    obtain ⟨disk, hdisk, rfl⟩ := mem_map.mp hmem
    exact hne (h.block disk (mem_filter.mp hdisk).1)
  simp only [mem_workers]
  constructor
  · rintro (⟨disk, hdisk, rfl⟩ | ⟨hnet, rfl⟩ | ⟨hconsole, rfl⟩ | ⟨hrng, rfl⟩)
    · obtain ⟨hmem, hkeep⟩ := mem_filter.mp hdisk
      refine ⟨.inl ⟨disk, hmem, rfl⟩, fun htaken ↦ ?_⟩
      obtain ⟨disk', hdisk', heq⟩ := mem_map.mp htaken
      obtain ⟨hmem', hkeep'⟩ := mem_filter.mp hdisk'
      rw [hinj hmem' hmem heq, hkeep] at hkeep'
      exact absurd hkeep' (by decide)
    · exact ⟨.inr (.inl ⟨hnet, rfl⟩), hother (by decide)⟩
    · exact ⟨.inr (.inr (.inl ⟨hconsole, rfl⟩)), hother (by decide)⟩
    · exact ⟨.inr (.inr (.inr ⟨hrng, rfl⟩)), hother (by decide)⟩
  · rintro ⟨⟨disk, hdisk, rfl⟩ | hrest, hkept⟩
    · refine .inl ⟨disk, mem_filter.mpr ⟨hdisk, ?_⟩, rfl⟩
      by_contra hkeep
      exact hkept (mem_map_of_mem (mem_filter.mpr ⟨hdisk, by simpa using hkeep⟩))
    · exact .inr hrest

theorem L2CpuSlot.DiskTable.mem_workers_withoutDisks (h : slot.DiskTable) {name : Option Serial}
    (hmay : mayRemoveDisk slot name = true) (devIdx : ℕ) :
    devIdx ∈ (slot.withoutDisks name).workers ↔
      devIdx ∈ slot.workers ∧ devIdx ∉ (slot.takenDisks name).map DiskWorker.devIdx := by
  cases name with
  | none =>
    have hone : ¬ slot.disks.length > 1 := by
      intro hmany
      simp [mayRemoveDisk, hmany] at hmay
    simpa [L2CpuSlot.withoutDisks, L2CpuSlot.takenDisks, hone] using
      h.mem_workers_filter (fun _ ↦ false) devIdx
  | some want =>
    simpa [L2CpuSlot.withoutDisks, L2CpuSlot.takenDisks] using
      h.mem_workers_filter (fun disk ↦ disk.name ≠ some want) devIdx

theorem L2CpuSlot.DiskTable.not_mem_disks (h : slot.DiskTable) (hdev : devIdx ∉ blockDevs) :
    ¬ ∃ disk ∈ slot.disks, disk.devIdx = devIdx := by
  rintro ⟨disk, hdisk, rfl⟩
  exact hdev (h.block disk hdisk)

theorem Attachments.Agrees.detachOne (h : held.Agrees) (devIdx : ℕ) (take : L2CpuSlot → L2CpuSlot)
    (htable : ∀ slot : L2CpuSlot, slot.DiskTable → (take slot).DiskTable)
    (hworkers : ∀ slot : L2CpuSlot, slot.DiskTable → ∀ other,
      other ∈ (take slot).workers ↔ other ∈ slot.workers ∧ other ∉ [devIdx]) :
    ((held.without [devIdx]).withSlot (held.slot.map take)).Agrees := by
  cases hslot : held.slot with
  | none =>
    have htidy := (h.tidy.without [devIdx]).map take
    rw [show (held.without [devIdx]).slot = none from hslot] at htidy
    exact htidy.agrees rfl
  | some slot =>
    have hbefore := h.table slot hslot
    exact h.detach hslot (htable slot hbefore) (hworkers slot hbefore)

theorem diskTable_bootSlot (args : BootArgs) (dtb : Image) (up : BootDevices) :
    (bootSlot args dtb up).DiskTable := by
  rcases up with ⟨disk, seed, net⟩
  cases disk <;> cases seed <;> exact ⟨by simp [bootSlot, maxDisksPerL2Cpu], by simp [bootSlot,
    devBlk, devBlk1], by simp [bootSlot, blockDevs], by simp [bootSlot]⟩

theorem mem_workers_bootSlot {dtb : Image} {up : BootDevices} :
    devIdx ∈ (bootSlot args dtb up).workers ↔ (devIdx = devBlk ∧ up.disk ≠ none) ∨
      (devIdx = devBlk1 ∧ up.seed ≠ none) ∨ (devIdx = devNet ∧ up.net = true) ∨
      (devIdx = devConsole ∧ args.devices.console = true) := by
  rw [mem_workers]
  rcases up with ⟨disk, seed, net⟩
  have hdisk {devIdx' : ℕ} : devIdx' = devIdx ↔ devIdx = devIdx' := eq_comm
  cases disk <;> cases seed <;>
    simp [bootSlot, freshSlot, hdisk, and_comm, or_assoc, and_or_left, exists_or]

theorem Attachments.Agrees.booted (h : held.Agrees) (hslot : held.slot = none)
    (hrng : held.dispatcher = true → args.devices.rng = false) (dtb : Image) (up : BootDevices) :
    (held.booted platform args dtb up).Agrees where
  tidy := h.tidy.booted hslot platform args dtb up
  table := by
    by_cases hdisp : held.dispatcher = true
    · simpa [Attachments.booted, hdisp] using diskTable_bootSlot args dtb up
    · have hfresh : (freshSlot args dtb).DiskTable :=
        (diskTable_bootSlot args dtb up).sublist (nil_sublist _)
      simpa [Attachments.booted, hdisp] using hfresh
  registered devIdx := by
    have hnone := (h.tidy.unused hslot).1 devIdx
    by_cases hdisp : held.dispatcher = true
    · simp only [Attachments.booted, hdisp, if_true, held.registerAll_ne_none, hnone,
        hrng hdisp, Option.mem_some_iff, exists_eq_left', mem_workers_bootSlot]
      tauto
    · simp [Attachments.booted, hdisp, hnone, mem_workers, freshSlot]

/-- Every effect keeps the agreement, when the entropy device is not registered for an L2CPU without
a slot. -/
theorem Effect.agrees
    (heffect : Effect platform l2cpu (fun slot devIdx _ ↦ devIdx = devRng → slot ≠ none) held held')
    (h : held.Agrees) : held'.Agrees := by
  have htidy : held'.Tidy := heffect.tidy h.tidy
  cases heffect with
  | @addDisk slot path name devIdx hdisp hslot hmay hpick =>
    refine h.attach hslot hdisp ?_ _ ((h.table slot hslot).append hmay hpick path) fun other ↦ ?_
    · exact lt_of_mem_blockDevs (mem_of_pickFreeBlkSlot hpick).1
    · by_cases hself : other = devIdx <;> simp [mem_workers, hself, Ne.symm]
  | @addNet slot forwards hdisp hslot =>
    refine h.attach hslot hdisp (by decide) _ ((h.table slot hslot).sublist (.refl _)) ?_
    intro other
    by_cases hself : other = devNet <;> simp [mem_workers, hself]
  | @addConsole slot hdisp hslot =>
    refine h.attach hslot hdisp (by decide) _ ((h.table slot hslot).sublist (.refl _)) ?_
    intro other
    by_cases hself : other = devConsole <;> simp [mem_workers, hself]
  | @addRng slot hdisp hslot =>
    refine h.attach hslot hdisp (by decide) _ ((h.table slot hslot).sublist (.refl _)) ?_
    intro other
    by_cases hself : other = devRng <;> simp [mem_workers, hself]
  | @removeDisk slot name hslot hmay =>
    have htable := h.table slot hslot
    exact h.detach hslot (htable.withoutDisks name) (htable.mem_workers_withoutDisks hmay)
  | removeNet =>
    refine h.detachOne devNet _ (fun _ htable ↦ htable.sublist (.refl _)) fun slot htable other ↦ ?_
    have hdisks := htable.not_mem_disks (by decide : devNet ∉ blockDevs)
    by_cases hself : other = devNet
    · simpa [mem_workers, hself, devNet, devConsole, devRng] using hdisks
    · simp [mem_workers, hself]
  | removeConsole =>
    refine h.detachOne devConsole _ (fun _ htable ↦ htable.sublist (.refl _))
      fun slot htable other ↦ ?_
    have hdisks := htable.not_mem_disks (by decide : devConsole ∉ blockDevs)
    by_cases hself : other = devConsole
    · simpa [mem_workers, hself, devNet, devConsole, devRng] using hdisks
    · simp [mem_workers, hself]
  | detach =>
    cases hslot : held.slot with
    | none =>
      rw [hslot] at htidy
      exact htidy.agrees rfl
    | some slot =>
      refine h.detach hslot ((h.table slot hslot).sublist (nil_sublist _)) fun other ↦ ?_
      have hnone : slot.detached.workers = [] := rfl
      simp [hnone]
  | tearDown hslot => exact htidy.agrees rfl
  | dropEngine hslot => exact htidy.agrees hslot
  | bringUp => exact ⟨htidy, h.table, h.registered⟩
  | boot hl2cpu hslot hup hrng hnet =>
    refine h.booted hslot (fun hdisp ↦ ?_) _ _
    by_contra hasked
    exact hrng hdisp (by simpa using hasked) rfl rfl

end Agrees

/-! ### Runs -/

/-- The device that a step registers. -/
def DaemonOp.registers : DaemonOp ι → Option (L2CpuIdx × ℕ)
  | .rpc (.register l2cpu devIdx _) => some (l2cpu, devIdx)
  | _ => none

/-- The turn does not register the entropy device of the L2CPU while its slot is empty. -/
def Recording (l2cpu : L2CpuIdx) (c : DaemonConfig ι) : Turn ι Incident → Prop
  | .core thread => ∀ op ∈ (c.rest thread).nextOp, op.registers = some (l2cpu, devRng) →
      c.scene.memory.slots l2cpu ≠ none
  | .act _ => True

instance (l2cpu : L2CpuIdx) (c : DaemonConfig ι) :
    (turn : Turn ι Incident) → Decidable (Recording l2cpu c turn)
  | .core thread => inferInstanceAs (Decidable (∀ op ∈ (c.rest thread).nextOp,
    op.registers = some (l2cpu, devRng) → c.scene.memory.slots l2cpu ≠ none))
  | .act _ => .isTrue trivial

variable [DecidableEq ι] {w : DaemonWorld ι} {workers : ι → Worker} {turns : List (Turn ι Incident)}

/-- What every effect keeps holds whenever no thread is engaged with the L2CPU.

Assumes: a steady run in which only the devices of the allowance are registered. -/
theorem kept_when_idle (hpatience : 0 < platform.patience) (allowance : Allowance)
    {keeps : Attachments → Prop}
    (hkeeps : ∀ held held', Effect platform l2cpu allowance held held' → keeps held → keeps held')
    (hw : keeps (w.attachments l2cpu))
    (hturns : (rpcThreads platform).Admits (fun c turn ↦ Steady workers l2cpu c turn ∧
      ∀ thread, turn = .core thread → ∀ devIdx device,
        (c.rest thread).nextOp = some (.rpc (.register l2cpu devIdx device)) →
          allowance (c.scene.memory.slots l2cpu) devIdx device) (rpcStart w workers) turns) :
    let c := (rpcThreads platform).follow (rpcStart w workers) turns
    (∀ thread, ¬ Engaged workers l2cpu c thread) → keeps (c.scene.memory.attachments l2cpu) := by
  intro c hidle
  let setting : Setting ι := .along ι platform l2cpu allowance
  have hsound : setting.Sound := ⟨fun _ h ↦ h rfl, fun _ h ↦ h trivial, fun _ h ↦ h trivial⟩
  have hsure (c : DaemonConfig ι) (turn : Turn ι Incident)
      (hallowed : Steady workers l2cpu c turn ∧ ∀ thread, turn = .core thread → ∀ devIdx device,
        (c.rest thread).nextOp = some (.rpc (.register l2cpu devIdx device)) →
          allowance (c.scene.memory.slots l2cpu) devIdx device) (thread : ι)
      (hturn : turn = .core thread) : setting.Turns workers c thread := by
    subst hturn
    obtain ⟨⟨horderly, hsteady⟩, hregs⟩ := hallowed
    refine ⟨horderly, fun hengaged op hop ↦
      ⟨⟨fun hfatal hslot hconsoles ↦ ?_, fun devIdx device heq ↦
      hregs thread rfl devIdx device (heq ▸ hop)⟩, fun mutex hmutex hconcerns ↦ ?_⟩⟩
    · exact not_failed_of_ready hfatal ((hsteady hengaged op hop).1 hfatal hslot hconsoles)
    · rw [(hsteady hengaged op hop).2 mutex hmutex hconcerns]
      rfl
  have hcompletes : setting.Completes := ⟨hpatience, fun _ _ _ hsure ↦ hsure.1⟩
  have heffects := Setting.effects_when_idle hcompletes (hturns.mono _ hsure) hidle
  exact heffects.keeping hkeeps hsound hw

/-- Whenever no thread is engaged with it, nothing is left of an L2CPU whose slot is empty: no
device and no UART of it is registered, and it has no console thread, as before its first boot.

Assumes: a tidy start and a steady run. -/
theorem nothing_left_without_slot (hpatience : 0 < platform.patience)
    (hw : (w.attachments l2cpu).Tidy)
    (hturns : (rpcThreads platform).Admits (Steady workers l2cpu) (rpcStart w workers) turns) :
    let c := (rpcThreads platform).follow (rpcStart w workers) turns
    (∀ thread, ¬ Engaged workers l2cpu c thread) → c.scene.memory.slots l2cpu = none →
      (∀ devIdx, c.scene.memory.registry l2cpu devIdx = none) ∧
        c.scene.memory.uarts l2cpu = false ∧ c.scene.memory.consoles l2cpu = 0 := by
  intro c hidle hslot
  have htidy := kept_when_idle hpatience (fun _ _ _ ↦ True)
    (fun _ _ heffect htidy ↦ heffect.tidy htidy) hw
    (hturns.mono _ fun c turn hsteady ↦ ⟨hsteady, fun _ _ _ _ _ ↦ trivial⟩) hidle
  exact htidy.unused hslot

/-! ### A boot that fails -/

/-- A boot of L2CPU 1 with a console. -/
def consoleArgs : BootArgs :=
  { plainBoot 1 with devices := { DeviceArgs.none with console := true } }

/-- A daemon with some guests, of whose fallible steps one fails. -/
def faultyWorld (ι : Type) (booted : List L2CpuIdx) (successes : ℕ) : DaemonWorld ι :=
  { startedWorld ι booted with
    faults := ⟨List.replicate successes true ++ [false], fun _ ↦ false⟩ }

/-- One client boots L2CPU 1, and another one attaches a console to L2CPU 2. -/
def bootAndAttach (thread : Bool) : Worker :=
  if thread then ⟨[.device 2 .addConsole], false⟩ else ⟨[.boot consoleArgs], false⟩

/-- A boot that cannot read its device tree ends with an error and leaves nothing behind, with
another thread at work on another L2CPU meanwhile. -/
theorem nothing_left_without_slot_unreadable :
    let turns := replicate 6 (.core false) ++ replicate 6 (.core true) ++
      replicate 8 (.core false)
    let c := (rpcThreads smallPlatform).follow
      (rpcStart (faultyWorld Bool [2] 3) bootAndAttach) turns
    (∀ thread, c.rest thread = .done ⟨[], false⟩) ∧ c.scene.memory.slots 1 = none ∧
      (∀ devIdx, c.scene.memory.registry 1 devIdx = none) ∧ c.scene.memory.uarts 1 = false ∧
      c.scene.memory.consoles 1 = 0 := by
  intro turns c
  have htidy : ((faultyWorld Bool [2] 3).attachments 1).Tidy := ⟨fun _ ↦ ⟨fun _ ↦ rfl, rfl, rfl⟩,
    fun hslot ↦ absurd rfl hslot, nofun, fun _ hdev ↦ absurd rfl hdev⟩
  have hsteady : (rpcThreads smallPlatform).Admits (Steady bootAndAttach 1)
      (rpcStart (faultyWorld Bool [2] 3) bootAndAttach) turns := by decide +kernel
  have hidle : ∀ thread, ¬ Engaged bootAndAttach 1 c thread := by decide +kernel
  refine ⟨fun thread ↦ ?_, rfl, nothing_left_without_slot (by decide) htidy hsteady hidle rfl⟩
  cases thread with
  | false => rfl
  | true => rfl

set_option maxRecDepth 4000 in
/-- A boot whose first store to a prefetcher fails replies with an error and leaves an empty slot,
with its console device and its UART registered and its console thread running. -/
theorem failed_boot_leaves_devices :
    let outcome := (dispatchBoot smallPlatform () consoleArgs).run.run (daemonExec smallPlatform)
      (fun _ w ↦ w) 0 (faultyWorld Unit [] 23)
    outcome.result = .error .error ∧ outcome.state.slots 1 = none ∧
      outcome.state.registry 1 devConsole = some .console ∧ outcome.state.uarts 1 = true ∧
      outcome.state.consoles 1 = 1 := by
  refine ⟨?_, ?_, ?_, ?_, ?_⟩ <;> rfl

/-- One client attaches a console to L2CPU 1 and detaches the network that it does not have, and
another one boots L2CPU 2. -/
def attachAndBoot (thread : Bool) : Worker :=
  if thread then ⟨[.boot (plainBoot 2)], false⟩
  else ⟨[.device 1 .addConsole, .device 1 .removeNet], false⟩

end Bhx.Daemon
