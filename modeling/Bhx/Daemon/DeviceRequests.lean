import Bhx.Daemon.Attachments

/-!
# Requests that fail

A request to attach or detach a device that replies with an error should have changed nothing. The
requests that attach a device check everything before the first change, under the mutex of the slot.
`dispatch_remove_net` and `dispatch_remove_console` unregister the device and look at the slot
afterwards. When the device is registered and the slot does not say so, the client gets an error and
the device is gone. That happens while a boot is between its registrations and the installation of
the slot (`detach_during_boot`), and also when the mutex of the slot is poisoned.
`dispatch_remove_disk` empties the slot and asks for the dispatcher afterwards, and gives up when
its mutex is poisoned.

`failed_request_changes_nothing_iff` says that there is no other case: a request that fails changes
nothing exactly if the device it detaches is in the slot or not registered, and the mutex it asks
for after its first change is not poisoned.

Scope. The request runs next to any steps that leave alone what is attached to the L2CPU and poison
no mutex.
-/

set_option autoImplicit false

namespace Bhx.Daemon

open SharedMemory Chip Machine.L1Layout Attachments

variable {ι : Type}

/-- A device that is registered and can be unregistered is in the slot, and the slot can be looked
at. -/
def SlotView.Backs (v : SlotView) (l2cpu : L2CpuIdx) (devIdx : ℕ) (has : L2CpuSlot → Bool) : Prop :=
  v.held.dispatcher = true → v.poisoned .dispatcher = false → v.held.registry devIdx ≠ none →
    v.poisoned (.slot l2cpu) = false ∧ ∃ slot ∈ v.held.slot, has slot = true

/-- The condition of a request. What is detached before the slot was looked at is in it, and the
dispatcher can be asked for after a disk was taken out. -/
def DeviceRequest.Backed (v : SlotView) (l2cpu : L2CpuIdx) : DeviceRequest → Prop
  | .removeNet => v.Backs l2cpu devNet L2CpuSlot.net
  | .removeConsole => v.Backs l2cpu devConsole L2CpuSlot.virtioConsole
  | .removeDisk name => v.poisoned (.slot l2cpu) = false → ∀ slot ∈ v.held.slot,
    mayRemoveDisk slot name = true → v.poisoned .dispatcher = false
  | _ => True

theorem withoutDisks_ne {slot : L2CpuSlot} {name : Option Serial}
    (hmay : mayRemoveDisk slot name = true) : slot.withoutDisks name ≠ slot := by
  intro heq
  have hdisks := congrArg L2CpuSlot.disks heq
  cases name with
  | none =>
    simp only [mayRemoveDisk, L2CpuSlot.takenDisks, L2CpuSlot.withoutDisks] at hmay hdisks
    simp only [Option.isNone_none, Bool.true_and, Bool.and_eq_true, Bool.not_eq_true',
      decide_eq_false_iff_not] at hmay
    rw [if_neg hmay.1.2] at hdisks
    simp [← hdisks] at hmay
  | some want =>
    simp [mayRemoveDisk, L2CpuSlot.takenDisks, L2CpuSlot.withoutDisks] at hmay hdisks
    obtain ⟨-, disk, hdisk, hname⟩ := hmay
    exact hdisks disk hdisk hname

section Requests

variable {l2cpu : L2CpuIdx} {environment : ℕ → DaemonWorld ι → DaemonWorld ι}
  {clock : ℕ} {w : DaemonWorld ι}

theorem Leaves.unchanged {part : RpcM Unit} {post : Unit → Attachments → Prop}
    (h : Leaves (.of w.faults.poisoned) l2cpu part post (fun held ↦ held = w.attachments l2cpu)
      (w.attachments l2cpu))
    (henvironment : SparesSlot l2cpu environment) (clock : ℕ) (failure : Failure)
    (hfailed : (part.run.run rpcExec environment clock w).result = .error failure) :
    (part.run.run rpcExec environment clock w).state.attachments l2cpu = w.attachments l2cpu := by
  have hsettled := h.settled henvironment clock
  rw [hfailed] at hsettled
  exact hsettled

/-- Removing a disk changes nothing when it fails, exactly if the dispatcher can be asked for. -/
theorem removeDisk_unchanged_iff (henvironment : SparesSlot l2cpu environment) (clock : ℕ)
    (name : Option Serial) :
    (∀ failure, ((dispatchRemoveDisk l2cpu name).run.run rpcExec environment clock w).result =
        .error failure →
      ((dispatchRemoveDisk l2cpu name).run.run rpcExec environment clock w).state.attachments
        l2cpu = w.attachments l2cpu) ↔
      (DeviceRequest.removeDisk name).Backed (w.slotView l2cpu) l2cpu := by
  have hsettled := (leaves_dispatchRemoveDisk l2cpu (w.attachments l2cpu) name).settled
    henvironment clock
  constructor
  · intro hunchanged hslotSound slot hslot hmay
    cases hresult : ((dispatchRemoveDisk l2cpu name).run.run rpcExec environment clock
        w).result with
    | ok value =>
      rw [hresult] at hsettled
      exact Locks.of_true hsettled.1
    | error failure =>
      rw [hresult] at hsettled
      rcases hsettled with ⟨-, hlock | hrefused⟩ | ⟨-, -, slot', hslot', hmay', hstate⟩
      · exact absurd ((Locks.of_false hlock).symm.trans hslotSound) (by decide)
      · exact absurd hmay (hrefused slot hslot)
      · have hsame := congrArg Attachments.slot (hstate.symm.trans (hunchanged failure hresult))
        rw [hslot'] at hsame
        exact absurd (Option.some.inj hsame) (withoutDisks_ne hmay')
  · intro hbacked failure hresult
    rw [hresult] at hsettled
    rcases hsettled with ⟨hstate, -⟩ | ⟨hslotGot, hlock, slot, hslot, hmay, -⟩
    · exact hstate
    · have hsound := hbacked (Locks.of_true hslotGot) slot hslot hmay
      exact absurd ((Locks.of_false hlock).symm.trans hsound) (by decide)

/-- Detaching a device changes nothing when it fails, exactly if the device is in the slot or not
registered. -/
theorem detachDevice_unchanged_iff (henvironment : SparesSlot l2cpu environment) (clock devIdx : ℕ)
    {has : L2CpuSlot → Bool} {take : L2CpuSlot → L2CpuSlot}
    (htake : ∀ slot, has slot = false → take slot = slot) :
    (∀ failure, ((detachDevice l2cpu devIdx has take).run.run rpcExec environment clock w).result =
        .error failure →
      ((detachDevice l2cpu devIdx has take).run.run rpcExec environment clock w).state.attachments
        l2cpu = w.attachments l2cpu) ↔ (w.slotView l2cpu).Backs l2cpu devIdx has := by
  have hsettled := (leaves_detachDevice l2cpu (w.attachments l2cpu) devIdx has take).settled
    henvironment clock
  -- unregistering the device changes something exactly if it is registered
  have hwithout (h : (w.attachments l2cpu).dispatcher = true →
      (w.attachments l2cpu).registry devIdx = none) :
      (w.attachments l2cpu).without [devIdx] = w.attachments l2cpu := by
    ext : 1
    · rfl
    · funext other
      by_cases hother : (w.attachments l2cpu).dispatcher = true ∧ other = devIdx
      · obtain ⟨hdisp, rfl⟩ := hother
        simp [without, h hdisp]
      · simp [without, hother]
    all_goals rfl
  constructor
  · intro hunchanged hdisp hsound hregistered
    cases hresult : ((detachDevice l2cpu devIdx has take).run.run rpcExec environment clock
        w).result with
    | ok value =>
      rw [hresult] at hsettled
      exact ⟨Locks.of_true hsettled.1, hsettled.2.1⟩
    | error failure =>
      rw [hresult] at hsettled
      rw [hunchanged failure hresult] at hsettled
      have hgone : ((w.attachments l2cpu).without [devIdx]).registry devIdx = none := by
        simp [without, show (w.attachments l2cpu).dispatcher = true from hdisp]
      rcases hsettled with ⟨hlock, -⟩ | ⟨-, ⟨-, hstate⟩ | ⟨-, hstate⟩⟩
      · exact absurd ((Locks.of_false hlock).symm.trans hsound) (by decide)
      · exact absurd ((congrArg (fun held ↦ held.registry devIdx) hstate).trans hgone) hregistered
      · exact absurd ((congrArg (fun held ↦ held.registry devIdx) hstate).trans hgone) hregistered
  · intro hbacks failure hresult
    rw [hresult] at hsettled
    rcases hsettled with ⟨-, hstate⟩ | ⟨hgot, hstate⟩
    · exact hstate
    · have hdispSound : (w.slotView l2cpu).poisoned .dispatcher = false :=
        Locks.of_true hgot
      by_cases hregistered : (w.attachments l2cpu).dispatcher = true →
          (w.attachments l2cpu).registry devIdx = none
      · rcases hstate with ⟨-, hstate⟩ | ⟨hmissing, hstate⟩
        · exact hstate.trans (hwithout hregistered)
        · rw [hstate, hwithout hregistered]
          cases hslot : (w.attachments l2cpu).slot with
          | none => rw [Option.map_none, ← hslot, withSlot_self]
          | some slot =>
            rw [Option.map_some, htake slot (hmissing slot hslot), ← hslot, withSlot_self]
      · push Not at hregistered
        obtain ⟨hsound, slot, hslot, hhas⟩ := hbacks hregistered.1 hdispSound hregistered.2
        rcases hstate with ⟨hlock, -⟩ | ⟨hmissing, -⟩
        · exact absurd ((Locks.of_false hlock).symm.trans hsound) (by decide)
        · exact absurd ((hmissing slot hslot).symm.trans hhas) (by decide)

/-- A request that fails changes nothing, exactly if what it detaches before it has looked is in the
slot or not registered, and the mutex that it asks for after its first change is not poisoned.
Assumes: any request to attach or detach a disk, the network or the console, with any failures of
steps and any poisoned mutexes, in any state of the daemon and next to anything that leaves alone
what is attached to the L2CPU and poisons no mutex. The slot, the registrations, the UART, the
console threads and the dispatcher are then the same before the request and after an error. -/
theorem failed_request_changes_nothing_iff (platform : Platform) (request : DeviceRequest)
    (henvironment : SparesSlot l2cpu environment) (clock : ℕ) :
    (∀ failure, ((request.dispatch platform l2cpu).run.run rpcExec environment clock w).result =
        .error failure →
      ((request.dispatch platform l2cpu).run.run rpcExec environment clock w).state.attachments
        l2cpu = w.attachments l2cpu) ↔ request.Backed (w.slotView l2cpu) l2cpu := by
  cases request with
  | addDisk path name =>
    exact iff_of_true ((leaves_dispatchAddDisk l2cpu _ path name).unchanged henvironment clock)
      trivial
  | removeDisk name => exact removeDisk_unchanged_iff henvironment clock name
  | addNet sshPort extraFwd =>
    exact iff_of_true ((leaves_dispatchAddNet l2cpu _ platform sshPort extraFwd).unchanged
      henvironment clock) trivial
  | addConsole =>
    exact iff_of_true ((leaves_dispatchAddConsole l2cpu _).unchanged henvironment clock) trivial
  | removeNet =>
    refine detachDevice_unchanged_iff henvironment clock devNet fun slot hslot ↦ ?_
    rw [← hslot]
  | removeConsole =>
    refine detachDevice_unchanged_iff henvironment clock devConsole fun slot hslot ↦ ?_
    rw [← hslot]

end Requests

theorem failed_request_changes_nothing_iff_removeNet :
    ((dispatchRemoveNet 1).run.run rpcExec (fun _ w ↦ w) 0 (startedWorld Unit [1])).result =
        .error .error ∧
      ((dispatchRemoveNet 1).run.run rpcExec (fun _ w ↦ w) 0
        (startedWorld Unit [1])).state.attachments 1 = (startedWorld Unit [1]).attachments 1 := by
  have hresult : ((dispatchRemoveNet 1).run.run rpcExec (fun _ w ↦ w) 0
      (startedWorld Unit [1])).result = .error .error := rfl
  have hbacked : DeviceRequest.removeNet.Backed ((startedWorld Unit [1]).slotView 1) 1 :=
    fun _ _ hregistered ↦ absurd rfl hregistered
  exact ⟨hresult, (failed_request_changes_nothing_iff smallPlatform .removeNet
    (fun _ _ ↦ rfl) 0).mpr hbacked .error hresult⟩

/-! ### Detaching during a boot -/

/-- A thread that boots L2CPU 1 with a network has registered its devices and has not put the slot
in place. -/
def netBoot (turns : ℕ) : DaemonConfig Unit :=
  (rpcThreads smallPlatform).follow
    (rpcStart (startedWorld Unit []) fun _ ↦
      ⟨[.boot { plainBoot 1 with devices := { DeviceArgs.none with network := true } }], false⟩)
    (List.replicate turns (.core ()))

/-- A request to detach the network in this state replies with an error, and the network that was
registered before it is not registered after it. -/
theorem detach_during_boot :
    let w := (netBoot 42).scene.memory
    let outcome := (dispatchRemoveNet 1).run.run rpcExec (fun _ w ↦ w) 0 w
    outcome.result = .error .error ∧
      w.registry 1 devNet = some (.net [(2223, 22)] none) ∧
      outcome.state.registry 1 devNet = none := by
  refine ⟨?_, ?_, ?_⟩ <;> rfl

end Bhx.Daemon
