import Mathlib.Logic.Relation
import Bhx.Firmware.PollFootprint

/-!
# The QUEUE_NOTIFY register

All queues of a device share one word. The guest stores the index of a queue there, and the firmware
reads the word, sets the dirty byte of the queue it found and stores the sentinel back, three
accesses with others in between. A store of the guest in the meantime is overwritten by the
sentinel, and a store of another index before the read overwrites the first one.

What happened to the word is a log (`notifyLog`) of guest writes, reads, dirty stores (`marked`) and
sentinel stores (`cleared`). From the log alone one can tell where the firmware is (`stage`) and
which indices have a write that no dirty store has followed yet (`owed`). `NotifySafe` is the state
in which a guest write cannot be lost: the firmware is not between its read and its sentinel store
and the word holds the sentinel or the same index, or it has read the same index and has not set the
dirty byte yet. When every guest write is made in such a state, one more poll serves every write
(`pollOneDevice_serves_notifies`); without that a single write may be erased for good
(`pollOneDevice_erases_notify`), contrary to what the comment in `poll_one_device` says of a second
write before the sentinel store.

Scope. Nobody resets the device meanwhile: STATUS does not become zero. Apart from that, from the
firmware's snapshot of STATUS and from the word itself, anything may change between two accesses of
the firmware.
-/

set_option autoImplicit false

namespace Bhx.Firmware

open SharedMemory Machine L1Layout List Program

variable {queue : ℕ}

/-! ### The log of the register -/

/-- What happens to the QUEUE_NOTIFY register of a slot. -/
inductive NotifyEvent
  /-- The guest stores the index of a queue. -/
  | wrote (queue : ℕ)
  /-- The firmware reads the register. -/
  | read (value : ℕ)
  /-- `handle_queue_notify` sets the dirty byte of a queue. -/
  | marked (queue : ℕ)
  /-- The firmware stores to the register. -/
  | cleared
deriving DecidableEq, Repr

/-- The part of an event that concerns the QUEUE_NOTIFY register of a slot. -/
def notifyEvent (slot : ℕ) : Event → Option NotifyEvent
  | .guest (.register other offset value) =>
    if other = slot ∧ offset = mmioQueueNotify then some (.wrote value) else none
  | .did (.l1Load addr _) answer =>
    if addr = regAddr slot mmioQueueNotify then some (.read answer) else none
  | .did (.l1Store addr size value) _ =>
    if addr = regAddr slot mmioQueueNotify then some .cleared
    else if dirtyByteAddr slot 0 ≤ addr ∧ addr < dirtyByteAddr slot maxQueuesPerSlot ∧ size = 1 ∧
      value = 1 then some (.marked (addr - dirtyByteAddr slot 0))
    else none
  | _ => none

/-- The log of the register, newest first. -/
def notifyLog (slot : ℕ) (w : World) : List NotifyEvent := w.history.filterMap (notifyEvent slot)

/-- Where the firmware is with respect to the register. -/
inductive NotifyStage
  /-- It holds no index. -/
  | idle
  /-- It has read an index and not yet set a dirty byte. -/
  | holding (value : ℕ)
  /-- It has set the dirty byte and not yet stored the sentinel. -/
  | done
deriving DecidableEq, Repr

/-- Where the firmware is after a log. -/
def stage : List NotifyEvent → NotifyStage
  | [] => .idle
  | .wrote _ :: log => stage log
  | .read value :: _ => if value = notifySentinel then .idle else .holding value
  | .marked _ :: _ => .done
  | .cleared :: _ => .idle

/-- Whether a write of the index has not been followed by its dirty store. -/
def owed (queue : ℕ) : List NotifyEvent → Bool
  | [] => false
  | .wrote other :: log => other = queue || owed queue log
  | .marked other :: log => other ≠ queue && owed queue log
  | .read _ :: log | .cleared :: log => owed queue log

/-- Every write of the log is followed by its dirty store or is owed. -/
theorem marked_mem_of_not_owed {log newer older : List NotifyEvent}
    (hlog : log = newer ++ .wrote queue :: older) (h : owed queue log = false) :
    .marked queue ∈ newer := by
  induction newer generalizing log with
  | nil => simp [hlog, owed] at h
  | cons event newer ih =>
    subst hlog
    cases event with
    | marked other =>
      by_cases hother : other = queue
      · exact hother ▸ mem_cons_self
      · simp only [cons_append, owed, ne_eq, hother, not_false_eq_true, decide_true,
          Bool.true_and] at h
        exact mem_cons_of_mem _ (ih rfl h)
    | wrote other =>
      simp only [cons_append, owed, Bool.or_eq_false_iff] at h
      exact mem_cons_of_mem _ (ih rfl h.2)
    | read value => exact mem_cons_of_mem _ (ih rfl h)
    | cleared => exact mem_cons_of_mem _ (ih rfl h)

/-! ### The guest -/

/-- The word in the QUEUE_NOTIFY register of a slot. -/
def notifyWord (slot : ℕ) (w : World) : ℕ := readLE w.l1 (regAddr slot mmioQueueNotify) 4

/-- The word in the STATUS register of a slot. -/
def statusWord (slot : ℕ) (w : World) : ℕ := readLE w.l1 (regAddr slot mmioStatus) 4

/-- The firmware's snapshot of STATUS. -/
def statusSnap (slot : ℕ) (w : World) : ℕ := readLE w.l1 (snapAddr slot snapOffStatus) 4

/-- The guest stores an index to QUEUE_NOTIFY. -/
def guestNotify (slot queue : ℕ) (w : World) : World :=
  { w with
    l1 := writeLE w.l1 (regAddr slot mmioQueueNotify) 4 queue
    history := .guest (.register slot mmioQueueNotify queue) :: w.history }

/-- The states in which a write of the index cannot be lost, nor cost another one. -/
def NotifySafe (slot queue : ℕ) (w : World) : Prop :=
  match stage (notifyLog slot w) with
  | .idle => notifyWord slot w = notifySentinel ∨ notifyWord slot w = queue
  | .holding value => value = queue
  | .done => False

/-- Everything else: the register and the snapshot of STATUS stay, STATUS does not become zero, and
no event concerns the register. -/
structure Elsewhere (slot : ℕ) (w w' : World) : Prop where
  notify_eq : notifyWord slot w' = notifyWord slot w
  snap_eq : statusSnap slot w' = statusSnap slot w
  status : statusWord slot w' = statusWord slot w ∨ statusWord slot w' ≠ 0
  log_eq : notifyLog slot w' = notifyLog slot w

/-- A step between two accesses of the firmware. -/
inductive NotifyStep (slot : ℕ) : World → World → Prop
  | notify {w : World} (queue : ℕ) (hqueue : queue < maxQueuesPerSlot)
      (hsafe : NotifySafe slot queue w) : NotifyStep slot w (guestNotify slot queue w)
  | elsewhere {w w' : World} (h : Elsewhere slot w w') : NotifyStep slot w w'

/-- Any number of such steps. -/
def NotifySteps (slot : ℕ) : World → World → Prop := Relation.ReflTransGen (NotifyStep slot)

/-! ### What the other phases leave alone -/

theorem notifyLog_exec (slot : ℕ) (op : Op) (w : World) :
    notifyLog slot (exec op w).2 =
      (notifyEvent slot (.did op (op.answer w))).toList ++ notifyLog slot w := by
  rw [notifyLog, exec_snd, record_history, Op.apply_history, filterMap_cons]
  cases notifyEvent slot (.did op (op.answer w)) <;> rfl

/-- The two worlds agree on the register and its log. -/
structure SameNotify (slot : ℕ) (w w' : World) : Prop where
  word_eq : notifyWord slot w' = notifyWord slot w
  log_eq : notifyLog slot w' = notifyLog slot w

variable {slot : ℕ}

section Setup

variable {op : Op}

theorem SetupOp.notifyEvent_eq_none (h : SetupOp slot op) (hslot : slot < numSlots)
    (answer : ℕ) : notifyEvent slot (.did op answer) = none := by
  cases h with
  | load addr haddr => exact if_neg haddr
  | stat offset value hoffset =>
    have hne : statsBase + offset ≠ regAddr slot mmioQueueNotify := by
      simp only [statsBase, statsSize, regAddr, slotRegsBase, regsBase] at *
      omega
    simp [notifyEvent, hne]
  | register offset value hoffset =>
    have hne : regAddr slot offset ≠ regAddr slot mmioQueueNotify := by
      refine regAddr_ne_notify ?_
      rintro rfl
      exact absurd hoffset (by decide)
    simp [notifyEvent, hne]
  | shadow queue offset value hqueue hoffset =>
    have hne : shadowQueueAddr slot queue offset ≠ regAddr slot mmioQueueNotify := by
      simp only [shadowQueueAddr, shadowBase, regAddr, slotRegsBase, regsBase, regsPerDev,
        numSlots, mmioQueueNotify] at *
      omega
    simp [notifyEvent, hne]
  | snap offset value hoffset => simp [notifyEvent, snapAddr_ne_notify hslot]

theorem SetupOp.readLE_eq (h : SetupOp slot op) (hslot : slot < numSlots) (w : World) {base : ℕ}
    (hbase : base ∈ [regAddr slot mmioQueueNotify, regAddr slot mmioStatus,
      snapAddr slot snapOffStatus]) : readLE (exec op w).2.l1 base 4 = readLE w.l1 base 4 := by
  have hapart : ∀ addr value : ℕ, Apart addr 4 base 4 → readLE (writeLE w.l1 addr 4 value) base 4 =
    readLE w.l1 base 4 := fun _ _ happart ↦ readLE_writeLE_of_apart happart
  simp only [mem_cons, not_mem_nil, or_false, regAddr, slotRegsBase, regsBase, regsPerDev,
    mmioQueueNotify, mmioStatus, snapAddr, shadowBase, shadowPerDevice, snapBaseOff,
    snapOffStatus] at hbase
  simp only [numSlots] at hslot
  cases h with
  | load addr haddr => rfl
  | stat offset value hoffset =>
    refine hapart _ _ ?_
    simp only [Apart, statsBase, statsSize] at *
    omega
  | register offset value hoffset =>
    refine hapart _ _ ?_
    simp only [Apart, ownedRegisters, mem_cons, not_mem_nil, or_false, mmioSelGeneration,
      mmioQueueNumMax, mmioQueueNum, mmioQueueReady, regAddr, slotRegsBase, regsBase,
      regsPerDev] at *
    omega
  | shadow queue offset value hqueue hoffset =>
    refine hapart _ _ ?_
    simp only [Apart, shadowQueueAddr, shadowBase, shadowPerDevice, shadowPerQueue,
      maxQueuesPerSlot] at *
    omega
  | snap offset value hoffset =>
    refine hapart _ _ ?_
    simp only [Apart, setupSnaps, mem_cons, not_mem_nil, or_false, snapOffQueueSel,
      snapOffDrvFeatSel, snapOffDrvFeat, snapOffSelGenEcho, snapAddr, shadowBase, shadowPerDevice,
      snapBaseOff] at *
    omega

theorem SetupOp.sameNotify (h : SetupOp slot op) (hslot : slot < numSlots) (w : World) :
    SameNotify slot w (exec op w).2 := by
  constructor
  · exact h.readLE_eq hslot w (by simp)
  · rw [notifyLog_exec, h.notifyEvent_eq_none hslot]
    rfl

/-- A store to a register file does not change a snapshot, nor the other way round. -/
theorem apart_snapAddr (hslot : slot < numSlots) (offset : ℕ) {register : ℕ}
    (hregister : register + 4 ≤ regsPerDev) :
    Apart (snapAddr slot offset) 4 (regAddr slot register) 4 := by
  simp only [Apart, snapAddr, shadowBase, regAddr, slotRegsBase, regsBase, regsPerDev,
    numSlots] at *
  omega

theorem sameNotify_storeSnap (hslot : slot < numSlots) {offset value : ℕ} (w : World) :
    SameNotify slot w (exec (.l1Store (snapAddr slot offset) 4 value) w).2 := by
  constructor
  · exact readLE_writeLE_of_apart (apart_snapAddr hslot offset (by decide))
  · rw [notifyLog_exec]
    simp [notifyEvent, snapAddr_ne_notify hslot]

end Setup

/-! ### A poll around the QUEUE_NOTIFY phase -/

/-- No reset is pending. -/
def Live (slot : ℕ) (w : World) : Prop := statusWord slot w ≠ 0 ∨ statusSnap slot w = 0

instance (slot : ℕ) (w : World) : Decidable (Live slot w) :=
  inferInstanceAs (Decidable (_ ∨ _))

/-- Surroundings that reset nothing and keep a property of the register. -/
structure Surroundings (slot : ℕ) (rely : World → World → Prop) (keeps : World → Prop) :
    Prop where
  snap_eq : ∀ s s', rely s s' → statusSnap slot s' = statusSnap slot s
  status : ∀ s s', rely s s' → statusWord slot s' = statusWord slot s ∨ statusWord slot s' ≠ 0
  stable : ∀ s s', keeps s → rely s s' → keeps s'
  same : ∀ s s', SameNotify slot s s' → keeps s → keeps s'

variable {w w' : World}

section Phases

variable {rely : World → World → Prop} {keeps : World → Prop}

variable (h : Surroundings slot rely keeps)
include h

theorem Surroundings.live (hstep : rely w w') (hlive : Live slot w) : Live slot w' := by
  rcases hlive with hstatus | hsnap
  · rcases h.status w w' hstep with heq | hne
    · exact .inl (heq ▸ hstatus)
    · exact .inl hne
  · exact .inr ((h.snap_eq w w' hstep).trans hsnap)

theorem Surroundings.status_ne_zero (hstep : rely w w') (hstatus : statusWord slot w ≠ 0) :
    statusWord slot w' ≠ 0 := by
  rcases h.status w w' hstep with heq | hne
  · exact heq ▸ hstatus
  · exact hne

theorem Surroundings.setup {α : Type} {program : Prog α} (hslot : slot < numSlots)
    (hprog : program.Performs (SetupOp slot)) (hlive : Live slot w) (hkeeps : keeps w) :
    Ensures exec rely (fun _ _ ↦ True)
      (fun _ t ↦ (Live slot t ∧ keeps t) ∧ (statusWord slot w ≠ 0 → statusWord slot t ≠ 0))
      program w := by
  refine ((Ensures.ofAlways hprog w).withInvariant (fun t ↦ (Live slot t ∧ keeps t) ∧
    (statusWord slot w ≠ 0 → statusWord slot t ≠ 0)) ⟨⟨hlive, hkeeps⟩,
    id⟩ ?_ ?_).imp (fun _ _ _ ↦ trivial) fun _ _ hpost ↦ hpost.2
  · rintro s s' ⟨⟨hs, hs'⟩, hstatus⟩ hstep
    exact ⟨⟨h.live hstep hs, h.stable s s' hs' hstep⟩, fun hne ↦
      h.status_ne_zero hstep (hstatus hne)⟩
  · rintro op s ⟨⟨hs, hs'⟩, hstatus⟩ hop
    have hstatusWord : statusWord slot (exec op s).2 = statusWord slot s :=
      hop.readLE_eq hslot s (by simp)
    have hstatusSnap : statusSnap slot (exec op s).2 = statusSnap slot s :=
      hop.readLE_eq hslot s (by simp)
    refine ⟨⟨?_, h.same s _ (hop.sameNotify hslot s) hs'⟩, ?_⟩
    · rwa [Live, hstatusWord, hstatusSnap]
    · rwa [hstatusWord]

/-- The STATUS phase resets nothing: when STATUS reads zero, so does the snapshot. -/
theorem Surroundings.pollStatus (hslot : slot < numSlots) (hlive : Live slot w) (hkeeps : keeps w) :
    Ensures exec rely (fun _ _ ↦ True) (fun _ t ↦ Live slot t ∧ keeps t)
      (Firmware.pollStatus slot) w := by
  have hload : ∀ (addr : ℕ) (s : World), addr ≠ regAddr slot mmioQueueNotify → SameNotify slot s
    (exec (.l1Load addr 4) s).2 := fun addr s haddr ↦ (SetupOp.load addr haddr).sameNotify hslot s
  unfold Firmware.pollStatus
  rw [readU32_bind]
  intro w1 hstep1
  refine ⟨trivial, ?_⟩
  beta_reduce
  have hlive1 := h.live hstep1 hlive
  have hkeeps1 := h.same _ _ (hload (regAddr slot mmioStatus) w1 (regAddr_ne_notify (by decide)))
    (h.stable w w1 hkeeps hstep1)
  rw [readU32_bind]
  intro w2 hstep2
  refine ⟨trivial, ?_⟩
  beta_reduce
  have hsnap2 : statusSnap slot w2 = statusSnap slot w1 := (h.snap_eq _ w2 hstep2).trans rfl
  have hlive2 : Live slot (exec (.l1Load (snapAddr slot snapOffStatus) 4) w2).2 :=
    show Live slot w2 from h.live hstep2 hlive1
  have hkeeps2 := h.same _ _ (hload (snapAddr slot snapOffStatus) w2 (snapAddr_ne_notify hslot _))
    (h.stable _ w2 hkeeps1 hstep2)
  rw [show (exec (.l1Load (regAddr slot mmioStatus) 4) w1).1 = statusWord slot w1 from rfl,
    show (exec (.l1Load (snapAddr slot snapOffStatus) 4) w2).1 = statusSnap slot w2 from rfl]
  by_cases hchanged : statusWord slot w1 = statusSnap slot w2
  · rw [if_neg (not_not.mpr hchanged)]
    exact ⟨hlive2, hkeeps2⟩
  · have hstatus : statusWord slot w1 ≠ 0 := by
      rcases hlive1 with hne | hzero
      · exact hne
      · rwa [hsnap2, hzero] at hchanged
    rw [if_pos hchanged]
    unfold handleStatusChange onlyIf
    rw [if_neg hstatus]
    refine (h.setup hslot always_incStat hlive2 hkeeps2).bind ?_
    rintro - w3 ⟨⟨-, hkeeps3⟩, hstatus3⟩
    intro w4 hstep4
    have hstatus2 : statusWord slot w2 ≠ 0 := h.status_ne_zero hstep2 hstatus
    have hstatus4 := h.status_ne_zero hstep4 (hstatus3 hstatus2)
    refine ⟨trivial, ?_, ?_⟩
    · refine .inl ?_
      change readLE (writeLE w4.l1 (snapAddr slot snapOffStatus) 4 _) _ 4 ≠ 0
      rwa [readLE_writeLE_of_apart (apart_snapAddr hslot snapOffStatus (by decide))]
    · exact h.same w4 _ (sameNotify_storeSnap hslot w4) (h.stable w3 w4 hkeeps3 hstep4)

/-- A poll, given what its QUEUE_NOTIFY phase does. -/
theorem Surroundings.pollOneDevice {keeps' : World → Prop} (h' : Surroundings slot rely keeps')
    (hslot : slot < numSlots) (hnotify : ∀ s, Live slot s → keeps s →
      Ensures exec rely (fun _ _ ↦ True) (fun _ t ↦ Live slot t ∧ keeps' t)
        (pollQueueNotify slot) s) (hlive : Live slot w) (hkeeps : keeps w) :
    Ensures exec rely (fun _ _ ↦ True) (fun _ t ↦ Live slot t ∧ keeps' t)
      (Firmware.pollOneDevice slot) w := by
  refine (h.pollStatus hslot hlive hkeeps).bind fun _ w1 hw1 ↦ ?_
  refine (h.setup hslot (always_pollQueueSel hslot) hw1.1 hw1.2).bind fun sel w2 hw2 ↦ ?_
  refine (h.setup hslot (always_pollQueueReady hslot sel) hw2.1.1 hw2.1.2).bind fun _ w3 hw3 ↦ ?_
  refine (hnotify w3 hw3.1.1 hw3.1.2).bind fun _ w4 hw4 ↦ ?_
  exact (h'.setup hslot (always_pollRest hslot) hw4.1 hw4.2).weaken fun _ _ hpost ↦ hpost.1

end Phases

/-! ### The invariant -/

/-- How the firmware is going to learn of an index. -/
def Awaited (slot queue : ℕ) (w : World) : NotifyStage → Prop
  | .idle => notifyWord slot w = queue
  | .holding value => value = queue
  | .done => False

/-- Since the log was `base`, the firmware has come to a stage at which it is going to learn of
every owed index. -/
structure Watched (slot : ℕ) (base : List NotifyEvent) (at' : NotifyStage) (w : World) :
    Prop where
  grown : base <:+ notifyLog slot w
  stage_eq : stage (notifyLog slot w) = at'
  awaited : ∀ queue, owed queue (notifyLog slot w) = true →
    queue < maxQueuesPerSlot ∧ Awaited slot queue w at'

variable {base : List NotifyEvent}

section Watched

variable {at' : NotifyStage}

theorem Watched.same (h : Watched slot base at' w) (hsame : SameNotify slot w w') :
    Watched slot base at' w' := by
  obtain ⟨hword, hlog⟩ := hsame
  refine ⟨hlog ▸ h.grown, hlog ▸ h.stage_eq, fun queue howed ↦ ?_⟩
  obtain ⟨hqueue, hawaited⟩ := h.awaited queue (hlog ▸ howed)
  refine ⟨hqueue, ?_⟩
  cases at' with
  | idle => exact hword.trans hawaited
  | holding value => exact hawaited
  | done => exact hawaited

theorem notifyLog_guestNotify (slot queue : ℕ) (w : World) :
    notifyLog slot (guestNotify slot queue w) = .wrote queue :: notifyLog slot w := by
  simp [notifyLog, guestNotify, notifyEvent]

theorem notifyWord_guestNotify (slot : ℕ) (hqueue : queue < maxQueuesPerSlot) (w : World) :
    notifyWord slot (guestNotify slot queue w) = queue := by
  unfold notifyWord guestNotify
  rw [readLE_writeLE_self]
  simp only [maxQueuesPerSlot] at hqueue
  omega

section

variable (h : Watched slot base at' w)
include h

/-- A safe write is awaited from then on, and so is everything that was awaited before it. -/
theorem Watched.guestNotify (hqueue : queue < maxQueuesPerSlot) (hsafe : NotifySafe slot queue w) :
    Watched slot base at' (guestNotify slot queue w) := by
  have hlog := notifyLog_guestNotify slot queue w
  have hword := notifyWord_guestNotify slot hqueue w
  unfold NotifySafe at hsafe
  rw [h.stage_eq] at hsafe
  refine ⟨hlog ▸ h.grown.trans (suffix_cons _ _), by rw [hlog]; exact h.stage_eq, ?_⟩
  intro other howed
  rw [hlog, owed, Bool.or_eq_true, decide_eq_true_eq] at howed
  rcases howed with rfl | howed
  · refine ⟨hqueue, ?_⟩
    cases at' with
    | idle => exact hword
    | holding value => exact hsafe
    | done => exact hsafe
  · obtain ⟨hother, hawaited⟩ := h.awaited other howed
    refine ⟨hother, ?_⟩
    cases at' with
    | idle =>
      -- the register held the other index, so the write was of the same one
      rcases hsafe with hsentinel | hsame
      · rw [Awaited, hsentinel] at hawaited
        simp only [notifySentinel, maxQueuesPerSlot] at *
        omega
      · exact hword.trans (hsame.symm.trans hawaited)
    | holding value => exact hawaited
    | done => exact hawaited

theorem Watched.step (hstep : NotifyStep slot w w') : Watched slot base at' w' := by
  cases hstep with
  | notify queue hqueue hsafe => exact h.guestNotify hqueue hsafe
  | elsewhere h' => exact h.same ⟨h'.notify_eq, h'.log_eq⟩

theorem Watched.steps (hsteps : NotifySteps slot w w') : Watched slot base at' w' := by
  induction hsteps with
  | refl => exact h
  | tail _ hstep ih => exact ih.step hstep

end

theorem NotifyStep.snap_eq (hslot : slot < numSlots) (hstep : NotifyStep slot w w') :
    statusSnap slot w' = statusSnap slot w := by
  cases hstep with
  | notify queue hqueue hsafe =>
    have happart := apart_snapAddr hslot snapOffStatus
      (show mmioQueueNotify + 4 ≤ regsPerDev by decide)
    exact readLE_writeLE_of_apart happart.symm
  | elsewhere h => exact h.snap_eq

theorem NotifyStep.status (hstep : NotifyStep slot w w') :
    statusWord slot w' = statusWord slot w ∨ statusWord slot w' ≠ 0 := by
  cases hstep with
  | notify queue hqueue hsafe =>
    refine .inl (readLE_writeLE_of_apart ?_)
    simp only [Apart, regAddr, mmioQueueNotify, mmioStatus]
    omega
  | elsewhere h => exact h.status

theorem NotifySteps.snap_eq (hslot : slot < numSlots) (hsteps : NotifySteps slot w w') :
    statusSnap slot w' = statusSnap slot w := by
  induction hsteps with
  | refl => rfl
  | tail _ hstep ih => exact (hstep.snap_eq hslot).trans ih

theorem NotifySteps.status (hsteps : NotifySteps slot w w') :
    statusWord slot w' = statusWord slot w ∨ statusWord slot w' ≠ 0 := by
  induction hsteps with
  | refl => exact .inl rfl
  | tail _ hstep ih =>
    rcases hstep.status with heq | hne
    · rwa [heq]
    · exact .inr hne

theorem surroundings_of_watched (hslot : slot < numSlots) {keeps : World → Prop}
    (hstable : ∀ s s', keeps s → NotifySteps slot s s' → keeps s')
    (hsame : ∀ s s', SameNotify slot s s' → keeps s → keeps s') :
    Surroundings slot (NotifySteps slot) keeps :=
  ⟨fun _ _ hsteps ↦ hsteps.snap_eq hslot, fun _ _ hsteps ↦ hsteps.status, hstable, hsame⟩

theorem NotifySteps.live (hslot : slot < numSlots) (hsteps : NotifySteps slot w w')
    (hlive : Live slot w) : Live slot w' :=
  (surroundings_of_watched hslot (fun _ _ _ _ ↦ trivial) fun _ _ _ _ ↦ trivial).live hsteps hlive

theorem Live.store (hlive : Live slot w) {addr size value : ℕ}
    (hstatus : Apart addr size (regAddr slot mmioStatus) 4)
    (hsnap : Apart addr size (snapAddr slot snapOffStatus) 4) :
    Live slot (exec (.l1Store addr size value) w).2 := by
  change readLE (writeLE w.l1 addr size value) _ 4 ≠ 0 ∨
    readLE (writeLE w.l1 addr size value) _ 4 = 0
  rwa [readLE_writeLE_of_apart hstatus, readLE_writeLE_of_apart hsnap]

/-! ### The QUEUE_NOTIFY phase -/

/-- The log was without owed index at a moment since it was `base`, and the firmware is watching. -/
def Settled (slot : ℕ) (base : List NotifyEvent) (w : World) : Prop :=
  ∃ between, base <:+ between ∧ (∀ queue, owed queue between = false) ∧
    Watched slot between .idle w

section

variable (h : Watched slot base at' w)
include h

/-- An access of the phase that puts an event on the log. -/
theorem Watched.access {next : NotifyStage} {op : Op} {event : NotifyEvent}
    (hevent : notifyEvent slot (.did op (op.answer w)) = some event)
    (hstage : stage (event :: notifyLog slot w) = next)
    (hawaited : ∀ queue, owed queue (event :: notifyLog slot w) = true →
      queue < maxQueuesPerSlot ∧ Awaited slot queue (exec op w).2 next) :
    Watched slot base next (exec op w).2 := by
  have hlog : notifyLog slot (exec op w).2 = event :: notifyLog slot w := by
    rw [notifyLog_exec, hevent]
    rfl
  refine ⟨hlog ▸ h.grown.trans (suffix_cons _ _), hlog ▸ hstage, fun queue howed ↦ ?_⟩
  exact hawaited queue (hlog ▸ howed)

theorem Watched.restart : Watched slot (notifyLog slot w) at' w :=
  ⟨suffix_refl _, h.stage_eq, h.awaited⟩

theorem Watched.not_owed (hnone : ∀ queue < maxQueuesPerSlot, ¬ Awaited slot queue w at')
    (queue : ℕ) : owed queue (notifyLog slot w) = false := by
  by_contra howed
  obtain ⟨hqueue, hawaited⟩ := h.awaited queue (by simpa using howed)
  exact hnone queue hqueue hawaited

end

theorem notifyEvent_load (answer : ℕ) :
    notifyEvent slot (.did (.l1Load (regAddr slot mmioQueueNotify) 4) answer) =
      some (.read answer) :=
  if_pos rfl

theorem notifyEvent_clear {value answer : ℕ} :
    notifyEvent slot (.did (.l1Store (regAddr slot mmioQueueNotify) 4 value) answer) =
      some .cleared :=
  if_pos rfl

theorem notifyEvent_mark (hslot : slot < numSlots) (hqueue : queue < maxQueuesPerSlot)
    {answer : ℕ} :
    notifyEvent slot (.did (.l1Store (dirtyByteAddr slot queue) 1 1) answer) =
      some (.marked queue) := by
  have hne : dirtyByteAddr slot queue ≠ regAddr slot mmioQueueNotify := by
    simp only [dirtyByteAddr, ctrlBase, ctrlOffDirty, regAddr, slotRegsBase, regsBase,
      maxQueuesPerSlot, numSlots] at *
    omega
  have hrange : dirtyByteAddr slot 0 ≤ dirtyByteAddr slot queue ∧
      dirtyByteAddr slot queue < dirtyByteAddr slot maxQueuesPerSlot := by
    unfold dirtyByteAddr
    omega
  have hindex : dirtyByteAddr slot queue - dirtyByteAddr slot 0 = queue := by
    unfold dirtyByteAddr
    omega
  simp [notifyEvent, hne, hrange, hindex]

/-- The firmware stays where it is while it makes setup accesses. -/
theorem Watched.setup {α : Type} {program : Prog α} (h : Watched slot base at' w)
    (hslot : slot < numSlots) (hlive : Live slot w) (hprog : program.Performs (SetupOp slot)) :
    Ensures exec (NotifySteps slot) (fun _ _ ↦ True)
      (fun _ t ↦ Live slot t ∧ Watched slot base at' t) program w := by
  have hsurroundings := surroundings_of_watched hslot (fun s s'
    (hs : Watched slot base at' s) hsteps ↦ hs.steps hsteps) fun s s' hsame hs ↦ hs.same hsame
  exact (hsurroundings.setup hslot hprog hlive h).weaken fun _ _ hpost ↦ hpost.1

/-- `handle_queue_notify` for the index that was read leaves nothing owed. -/
theorem Watched.handleQueueNotify {value : ℕ} (h : Watched slot base (.holding value) w)
    (hslot : slot < numSlots) (hlive : Live slot w) :
    Ensures exec (NotifySteps slot) (fun _ _ ↦ True)
      (fun _ t ↦ Live slot t ∧ ∃ between at', base <:+ between ∧
        (∀ queue, owed queue between = false) ∧ Watched slot between at' t ∧
        ∀ s, ∀ queue < maxQueuesPerSlot, ¬ Awaited slot queue s at')
      (Firmware.handleQueueNotify slot value) w := by
  refine (h.setup hslot hlive (always_storeU32 (.stat _ _ (by decide)))).bind ?_
  rintro - w1 ⟨hlive1, hw1⟩
  by_cases hvalue : value < maxQueuesPerSlot
  · unfold onlyIf
    rw [if_pos hvalue]
    intro w2 hsteps2
    refine ⟨trivial, ?_⟩
    have hw2 := hw1.steps hsteps2
    have hmarked : Watched slot base .done
        (exec (.l1Store (dirtyByteAddr slot value) 1 1) w2).2 := by
      refine hw2.access (notifyEvent_mark hslot hvalue) rfl fun queue howed ↦ ?_
      rw [owed, Bool.and_eq_true, decide_eq_true_eq] at howed
      exact absurd (hw2.awaited queue howed.2).2 howed.1
    have hlive2 : Live slot (exec (.l1Store (dirtyByteAddr slot value) 1 1) w2).2 := by
      refine (hsteps2.live hslot hlive1).store ?_ ?_
      all_goals
        simp only [Apart, dirtyByteAddr, ctrlBase, ctrlOffDirty, maxQueuesPerSlot, regAddr,
          slotRegsBase, regsBase, snapAddr, shadowBase, numSlots] at *
        omega
    have hnone : ∀ t, ∀ queue < maxQueuesPerSlot, ¬ Awaited slot queue t .done :=
      fun _ _ _ ↦ not_false
    refine (hmarked.restart.setup hslot hlive2 always_incStat).weaken ?_
    rintro - t ⟨hlive', ht⟩
    exact ⟨hlive', _, _, hmarked.grown, hmarked.not_owed (hnone _), ht, hnone⟩
  · -- an index without dirty byte: nothing can be owed
    have hnone : ∀ s, ∀ queue < maxQueuesPerSlot, ¬ Awaited slot queue s (.holding value) := by
      rintro s queue hqueue rfl
      exact hvalue hqueue
    unfold onlyIf
    rw [if_neg hvalue]
    refine (hw1.restart.setup hslot hlive1 always_incStat).weaken ?_
    rintro - t ⟨hlive', ht⟩
    exact ⟨hlive', _, _, hw1.grown, hw1.not_owed (hnone w1), ht, hnone⟩

/-- The phase serves everything that was owed when it began. -/
theorem Watched.pollQueueNotify (h : Watched slot base .idle w) (hslot : slot < numSlots)
    (hlive : Live slot w) :
    Ensures exec (NotifySteps slot) (fun _ _ ↦ True)
      (fun _ t ↦ Live slot t ∧ Settled slot base t) (Firmware.pollQueueNotify slot) w := by
  unfold Firmware.pollQueueNotify
  rw [readU32_bind]
  intro w1 hsteps1
  refine ⟨trivial, ?_⟩
  beta_reduce
  rw [show (exec (.l1Load (regAddr slot mmioQueueNotify) 4) w1).1 = notifyWord slot w1 from rfl]
  have hw1 := h.steps hsteps1
  have hlive1 : Live slot (exec (.l1Load (regAddr slot mmioQueueNotify) 4) w1).2 :=
    show Live slot w1 from hsteps1.live hslot hlive
  by_cases hsentinel : notifyWord slot w1 = notifySentinel
  · -- nothing is owed, since an owed index would be in the register
    have hnone : ∀ queue < maxQueuesPerSlot, ¬ Awaited slot queue w1 .idle := by
      intro queue hqueue hawaited
      rw [Awaited, hsentinel] at hawaited
      simp only [notifySentinel, maxQueuesPerSlot] at *
      omega
    have hread : Watched slot base .idle (exec (.l1Load (regAddr slot mmioQueueNotify) 4) w1).2 :=
      hw1.access (notifyEvent_load _) (if_pos hsentinel) fun queue howed ↦ hw1.awaited queue howed
    rw [if_neg (not_not.mpr hsentinel)]
    exact ⟨hlive1, _, hread.grown, hread.not_owed hnone, hread.restart⟩
  · have hread : Watched slot base (.holding (notifyWord slot w1))
        (exec (.l1Load (regAddr slot mmioQueueNotify) 4) w1).2 :=
      hw1.access (notifyEvent_load _) (if_neg hsentinel) fun queue howed ↦ hw1.awaited queue howed
    rw [if_pos hsentinel]
    refine (hread.handleQueueNotify hslot hlive1).bind ?_
    rintro - w2 ⟨hlive2, between, at', hbetween, hsettled, hw2, hnone⟩
    intro w3 hsteps3
    have hw3 := hw2.steps hsteps3
    refine ⟨trivial, ?_, between, hbetween, hsettled, ?_⟩
    · refine (hsteps3.live hslot hlive2).store ?_ ?_
      all_goals
        simp only [Apart, regAddr, slotRegsBase, regsBase, regsPerDev, snapAddr, shadowBase,
          numSlots, mmioQueueNotify, mmioStatus] at *
        omega
    · refine hw3.access notifyEvent_clear rfl fun queue howed ↦ ?_
      obtain ⟨hqueue, hawaited⟩ := hw3.awaited queue howed
      exact absurd hawaited (hnone w3 queue hqueue)

theorem Settled.watched (h : Settled slot base w) : Watched slot base .idle w := by
  obtain ⟨between, hbetween, -, hw⟩ := h
  exact ⟨hbetween.trans hw.grown, hw.stage_eq, hw.awaited⟩

theorem Watched.pollOneDevice (h : Watched slot base .idle w) (hslot : slot < numSlots)
    (hlive : Live slot w) :
    Ensures exec (NotifySteps slot) (fun _ _ ↦ True)
      (fun _ t ↦ Live slot t ∧ Settled slot base t) (Firmware.pollOneDevice slot) w := by
  have hidle := surroundings_of_watched hslot (fun s s' (hs : Watched slot base .idle s) hsteps ↦
    hs.steps hsteps) fun s s' hsame hs ↦ hs.same hsame
  have hsettled : Surroundings slot (NotifySteps slot) (Settled slot base) := by
    refine surroundings_of_watched hslot ?_ ?_
    · rintro s s' ⟨between, hbetween, hnone, hs⟩ hsteps
      exact ⟨between, hbetween, hnone, hs.steps hsteps⟩
    · rintro s s' hsame ⟨between, hbetween, hnone, hs⟩
      exact ⟨between, hbetween, hnone, hs.same hsame⟩
  exact hidle.pollOneDevice hsettled hslot (fun s hs hwatched ↦ hwatched.pollQueueNotify hslot hs)
    hlive h

theorem Watched.pollRepeatedly (h : Watched slot base .idle w) (hslot : slot < numSlots)
    (hlive : Live slot w) (count : ℕ) :
    Ensures exec (NotifySteps slot) (fun _ _ ↦ True)
      (fun _ t ↦ Live slot t ∧ Watched slot base .idle t) (Firmware.pollRepeatedly slot count)
      w := by
  induction count generalizing w with
  | zero => exact ⟨hlive, h⟩
  | succ count ih =>
    refine (h.pollOneDevice hslot hlive).bind fun _ w1 hw1 ↦ ?_
    exact ih hw1.2.watched hw1.1

end Watched

/-! ### The result -/

/-- No notify is lost when every guest write is a safe one. Assumes: a slot of the engine, a start
between two polls with nothing owed that the register does not hold and no reset pending, and
between any two accesses of the firmware any number of safe writes of QUEUE_NOTIFY and of other
changes short of a reset. Every write made before a poll is followed by the dirty store of its queue
by the time the poll ends. -/
theorem pollOneDevice_serves_notifies {slot : ℕ} (hslot : slot < numSlots) {w : World}
    (hlive : Live slot w) (hstart : Watched slot [] .idle w) {guest : ℕ → World → World}
    (hguest : ∀ clock s, NotifySteps slot s (guest clock s)) (count clock : ℕ) :
    let before := (pollRepeatedly slot count).run exec guest clock w
    let after := (pollOneDevice slot).run exec guest before.clock before.state
    ∀ queue newer older, notifyLog slot after.state = newer ++ .wrote queue :: older →
      older.length < (notifyLog slot before.state).length → .marked queue ∈ newer := by
  intro before after queue newer older hlog hbefore
  have hpolled := (hstart.pollRepeatedly hslot hlive count).run hguest clock
  have hserved := (hpolled.2.restart.pollOneDevice hslot hpolled.1).run hguest before.clock
  obtain ⟨between, hbetween, hnone, hafter⟩ := hserved.2
  -- the write is on the part of the log at whose end nothing was owed
  have hsuffix : .wrote queue :: older <:+ between := by
    refine suffix_of_suffix_length_le ⟨newer, hlog.symm⟩ hafter.grown ?_
    exact (Nat.succ_le_of_lt hbefore).trans hbetween.length_le
  obtain ⟨middle, hmiddle⟩ := hsuffix
  obtain ⟨latest, hlatest⟩ := hafter.grown
  have hmarked := marked_mem_of_not_owed hmiddle.symm (hnone queue)
  have hnewer : newer = latest ++ middle := by
    have heq : newer ++ .wrote queue :: older = (latest ++ middle) ++ .wrote queue :: older := by
      rw [← hlog, append_assoc, hmiddle, hlatest]
    exact append_cancel_right heq
  rw [hnewer]
  exact mem_append_right latest hmarked

/-- An idle slot: every register and snapshot is zero, and QUEUE_NOTIFY holds the sentinel. -/
def idleWorld : World where
  l1 := memoryWith [(regAddr 0 mmioQueueNotify, 4, notifySentinel)]
  dram := fun _ _ ↦ 0
  host := fun _ _ ↦ 0
  processed := fun _ _ ↦ 0
  outside := fun _ _ ↦ 0
  history := []

/-- A guest that writes queue `0` once the first poll has read the sentinel. -/
def patientGuest (clock : ℕ) (w : World) : World :=
  if clock = 6 ∧ stage (notifyLog 0 w) = .idle ∧ notifyWord 0 w = notifySentinel then
    guestNotify 0 0 w
  else w

theorem pollOneDevice_serves_notifies_patient :
    let before := (pollRepeatedly 0 1).run exec patientGuest 0 idleWorld
    let after := (pollOneDevice 0).run exec patientGuest before.clock before.state
    notifyLog 0 after.state =
        [.cleared, .marked 0, .read 0] ++ .wrote 0 :: [.read notifySentinel] ∧
      .marked 0 ∈ [NotifyEvent.cleared, .marked 0, .read 0] := by
  have hlog : notifyLog 0 ((pollOneDevice 0).run exec patientGuest
      ((pollRepeatedly 0 1).run exec patientGuest 0 idleWorld).clock
      ((pollRepeatedly 0 1).run exec patientGuest 0 idleWorld).state).state =
      [.cleared, .marked 0, .read 0] ++ .wrote 0 :: [.read notifySentinel] := by decide +kernel
  have hguest : ∀ clock s, NotifySteps 0 s (patientGuest clock s) := by
    intro clock s
    unfold patientGuest
    split_ifs with hsafe
    · refine .single (.notify 0 (by decide) ?_)
      rw [NotifySafe, hsafe.2.1]
      exact .inl hsafe.2.2
    · exact .refl
  have hstart : Watched 0 [] .idle idleWorld :=
    ⟨nil_suffix, rfl, fun _ howed ↦ absurd howed Bool.false_ne_true⟩
  refine ⟨hlog, ?_⟩
  exact pollOneDevice_serves_notifies (by decide) (.inr (by decide +kernel)) hstart hguest 1 0 0 _ _
    hlog (by decide +kernel)

/-! ### A write that is erased -/

/-- A guest that writes queue `0` before the first poll reads the register, and queue `1` before it
stores the sentinel. -/
def hastyGuest (clock : ℕ) (w : World) : World :=
  if clock = 5 then guestNotify 0 0 w
  else if clock = 10 then guestNotify 0 1 w
  else w

/-- The register is empty and its log has grown by `count` reads of the sentinel. -/
structure Overlooked (base : List NotifyEvent) (slot count : ℕ) (w : World) : Prop where
  word_eq : notifyWord slot w = notifySentinel
  log_eq : notifyLog slot w = replicate count (.read notifySentinel) ++ base

section Overlooked

variable {count : ℕ}

theorem surroundings_overlooked (base : List NotifyEvent) (slot count : ℕ) :
    Surroundings slot (fun s s' ↦ s' = s) (Overlooked base slot count) where
  snap_eq := by
    rintro s s' rfl
    rfl
  status := by
    rintro s s' rfl
    exact .inl rfl
  stable := by
    rintro s s' hs rfl
    exact hs
  same := fun s s' hsame hs ↦ ⟨hsame.word_eq.trans hs.word_eq, hsame.log_eq.trans hs.log_eq⟩

theorem Overlooked.pollQueueNotify (h : Overlooked base slot count w) (hlive : Live slot w) :
    Ensures exec (fun s s' ↦ s' = s) (fun _ _ ↦ True)
      (fun _ t ↦ Live slot t ∧ Overlooked base slot (count + 1) t)
      (Firmware.pollQueueNotify slot) w := by
  unfold Firmware.pollQueueNotify
  rw [readU32_bind]
  rintro w1 rfl
  refine ⟨trivial, ?_⟩
  beta_reduce
  rw [show (exec (.l1Load (regAddr slot mmioQueueNotify) 4) w1).1 = notifyWord slot w1 from rfl,
    if_neg (not_not.mpr h.word_eq)]
  refine ⟨hlive, h.word_eq, ?_⟩
  have hanswer : (Op.l1Load (regAddr slot mmioQueueNotify) 4).answer w1 = notifySentinel :=
    h.word_eq
  rw [notifyLog_exec, notifyEvent_load, h.log_eq, hanswer, replicate_succ]
  rfl

/-- Without another write nothing happens any more. -/
theorem Overlooked.pollRepeatedly (h : Overlooked base slot count w) (hslot : slot < numSlots)
    (hlive : Live slot w) (more : ℕ) :
    Ensures exec (fun s s' ↦ s' = s) (fun _ _ ↦ True)
      (fun _ t ↦ Live slot t ∧ Overlooked base slot (count + more) t)
      (Firmware.pollRepeatedly slot more) w := by
  induction more generalizing count w with
  | zero => exact ⟨hlive, h⟩
  | succ more ih =>
    refine ((surroundings_overlooked base slot count).pollOneDevice
      (surroundings_overlooked base slot (count + 1)) hslot
      (fun s hs hoverlooked ↦ hoverlooked.pollQueueNotify hs) hlive h).bind fun _ w1 hw1 ↦ ?_
    rw [Nat.add_succ, ← Nat.succ_add]
    exact ih hw1.2 hw1.1

end Overlooked

/-- A notify that comes while the firmware handles another queue's is erased: however long the
firmware polls on, it sets no dirty byte for it. The guest makes two writes in all. -/
theorem pollOneDevice_erases_notify :
    ∃ guest : ℕ → World → World, ∃ w : World, ∀ more,
      notifyLog 0 ((pollRepeatedly 0 (more + 1)).run exec guest 0 w).state =
        replicate more (.read notifySentinel) ++
          [.cleared, .wrote 1, .marked 0, .read 0, .wrote 0] := by
  refine ⟨hastyGuest, idleWorld, fun more ↦ ?_⟩
  set first := (pollOneDevice 0).run exec hastyGuest 0 idleWorld with hfirst
  have hclock : 10 < first.clock := by decide +kernel
  have hlive : Live 0 first.state := .inr (by decide +kernel)
  have hoverlooked : Overlooked [.cleared, .wrote 1, .marked 0, .read 0, .wrote 0] 0 0
      first.state := ⟨by decide +kernel, by decide +kernel⟩
  have hquiet : ∀ later, first.clock ≤ later → hastyGuest later = fun s ↦ s := by
    intro later hlater
    funext s
    rw [hastyGuest, if_neg (by omega), if_neg (by omega)]
  have hrun := (hoverlooked.pollRepeatedly (by decide) hlive more).run
    (show ∀ (_ : ℕ) (s : World), s = s from fun _ _ ↦ rfl) first.clock
  rw [pollRepeatedly, run_bind, ← hfirst]
  rw [run_congr exec _ hquiet]
  simpa using hrun.2.log_eq

end Bhx.Firmware
