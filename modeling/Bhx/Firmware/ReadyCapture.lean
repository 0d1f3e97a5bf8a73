import Bhx.Firmware.QueueSetup

/-!
# Capturing a queue

QUEUE_READY is a register that three parties store: the guest offers a configuration by storing one,
BRISC takes any other value than zero for an offer and stores zero back, and both BRISC and TRISC1
store zero when they notice a change of QUEUE_SEL. They notice it at any later time, so the zero may
land on an offer for the queue selected since (`ready_discarded`).

Once both have noticed the change and the guest fills the registers only then, nothing stands
between an offer and BRISC: after a poll begun since, the shadow of the queue holds what the guest
has written (`ready_captured`). The invariant (`Tracked`) ties the registers to the guest's stage:
while it is filling them QUEUE_READY is zero, and once it has offered a configuration, QUEUE_READY
is zero only if the shadow holds it.
-/

set_option autoImplicit false

namespace Bhx.Firmware

open SharedMemory Machine L1Layout List Cores

variable {config : List ℕ} {since : ℕ} {values : List ℕ} {program : Prog Unit}

/-! ### Stages and registers -/

/-- The shadow of the queue holds the configuration and says that the queue is ready. -/
structure Captured (slot queue : ℕ) (config : List ℕ) (w : World) : Prop where
  config_eq : shadowConfig slot queue w = config
  ready : shadowReady slot queue w ≠ 0

/-- What the registers and the shadow hold at a stage, when BRISC has begun `polls` polls. -/
def Holds (slot queue polls : ℕ) (w : World) : SetupStage → Prop
  | .fresh => False
  | .filling values => readyWord slot w = 0 ∧ (regConfig slot w).take values.length = values
  | .offered config since => regConfig slot w = config ∧
      (readyWord slot w = 0 → Captured slot queue config w) ∧
      (since + 1 < polls → readyWord slot w = 0)

/-- BRISC has noticed the queue selected, and the registers are as the guest's stage says. -/
structure Tracked (slot queue : ℕ) (start : SetupLog) (s : SlotScene) : Prop where
  sel : selWord slot s.memory = queue
  snap : selSnap slot s.memory = queue
  holds : Holds slot queue (passes .brisc s.trace) s.memory (setupStage slot start s)

/-- No offer from before this poll is open. -/
def Answered (slot : ℕ) (start : SetupLog) (s : SlotScene) : Prop :=
  ∀ config since, setupStage slot start s = .offered config since →
    since < passes .brisc s.trace → readyWord slot s.memory = 0

/-- What BRISC relies on while it polls. -/
structure SetupRely (slot queue : ℕ) (start : SetupLog) (s s' : SlotScene) : Prop where
  statusSnap_eq : statusSnap slot s'.memory = statusSnap slot s.memory
  status : statusWord slot s'.memory = statusWord slot s.memory ∨ statusWord slot s'.memory ≠ 0
  shadow : ∀ offset, (Cell.shadow queue offset).Valid →
    cell slot (.shadow queue offset) s'.memory = cell slot (.shadow queue offset) s.memory
  passes_eq : passes .brisc s'.trace = passes .brisc s.trace
  /-- An offer stays. -/
  offered : ∀ config since, setupStage slot start s = .offered config since →
    setupStage slot start s' = .offered config since ∧
      readyWord slot s'.memory = readyWord slot s.memory
  /-- An offer is new or was there. -/
  since : ∀ config since, setupStage slot start s' = .offered config since →
    setupStage slot start s = .offered config since ∨ since = passes .brisc s.trace

variable {slot queue : ℕ} {start : SetupLog} {stores : Cell → ℕ → Bool} {s s' : SlotScene}

section Stages

variable {s'' : SlotScene}

theorem SetupRely.refl (slot queue : ℕ) (start : SetupLog) (s : SlotScene) :
    SetupRely slot queue start s s :=
  ⟨rfl, .inl rfl, fun _ _ ↦ rfl, rfl, fun _ _ h ↦ ⟨h, rfl⟩, fun _ _ h ↦ .inl h⟩

theorem SetupRely.trans (h : SetupRely slot queue start s s')
    (h' : SetupRely slot queue start s' s'') : SetupRely slot queue start s s'' := by
  refine ⟨h'.statusSnap_eq.trans h.statusSnap_eq, ?_,
    fun offset hvalid ↦ (h'.shadow offset hvalid).trans (h.shadow offset hvalid),
    h'.passes_eq.trans h.passes_eq, fun config since hs ↦ ?_, fun config since hs ↦ ?_⟩
  · rcases h'.status with heq | hne
    · rw [heq]
      exact h.status
    · exact .inr hne
  · obtain ⟨hstage, hready⟩ := h.offered config since hs
    obtain ⟨hstage', hready'⟩ := h'.offered config since hstage
    exact ⟨hstage', hready'.trans hready⟩
  · rcases h'.since config since hs with hstage | hnew
    · exact h.since config since hstage
    · exact .inr (hnew.trans h.passes_eq)

theorem Captured.kept {w w' : World} (h : Captured slot queue config w)
    (hqueue : queue < maxQueuesPerSlot) (hshadow : ∀ offset, (Cell.shadow queue offset).Valid →
      cell slot (.shadow queue offset) w' = cell slot (.shadow queue offset) w) :
    Captured slot queue config w' := by
  refine ⟨(shadowConfig_eq hqueue hshadow).trans h.config_eq, ?_⟩
  have hready : shadowReady slot queue w' = shadowReady slot queue w :=
    hshadow _ (valid_shadowReady hqueue)
  rw [hready]
  exact h.ready

theorem Holds.kept {polls : ℕ} {w w' : World} {stage : SetupStage}
    (h : Holds slot queue polls w stage) (hqueue : queue < maxQueuesPerSlot)
    (hkept : CellsKept slot stores w w') (hspares : Spares stores) :
    Holds slot queue polls w' stage := by
  have hready := hkept.ready_eq hspares
  have hconfig := hkept.config_eq hspares
  cases stage with
  | fresh => exact h
  | filling values =>
    unfold Holds
    rw [hready, hconfig]
    exact h
  | offered config since =>
    unfold Holds
    rw [hready, hconfig]
    exact ⟨h.1, fun hzero ↦ (h.2.1 hzero).kept hqueue (hkept.shadow_eq hspares queue), h.2.2⟩

theorem Tracked.kept (h : Tracked slot queue start s) (hqueue : queue < maxQueuesPerSlot)
    (hkept : CellsKept slot stores s.memory s'.memory) (hspares : Spares stores)
    (hlog : setupLog slot start s'.trace = setupLog slot start s.trace)
    (hpasses : passes .brisc s'.trace = passes .brisc s.trace) :
    Tracked slot queue start s' := by
  refine ⟨(hkept.sel_eq hspares).trans h.sel, (hkept.selSnap_eq hspares).trans h.snap, ?_⟩
  unfold setupStage
  rw [hlog, hpasses]
  exact h.holds.kept hqueue hkept hspares

theorem SetupRely.of_kept (hkept : CellsKept slot stores s.memory s'.memory)
    (hspares : Spares stores)
    (hsnap : Spared stores (.snap snapOffStatus))
    (hstatus : statusWord slot s'.memory = statusWord slot s.memory ∨ statusWord slot s'.memory ≠ 0)
    (hlog : setupLog slot start s'.trace = setupLog slot start s.trace)
    (hpasses : passes .brisc s'.trace = passes .brisc s.trace) :
    SetupRely slot queue start s s' := by
  have hstage : setupStage slot start s' = setupStage slot start s := congrArg SetupLog.stage hlog
  refine ⟨hkept.snap_eq hsnap, hstatus, hkept.shadow_eq hspares queue, hpasses, fun config since hs
    ↦ ⟨hstage.trans hs, hkept.ready_eq hspares⟩, fun config since hs ↦ .inl (hstage.symm.trans hs)⟩

theorem Answered.stable (h : Answered slot start s) (hstep : SetupRely slot queue start s s') :
    Answered slot start s' := by
  intro config since hstage hsince
  rw [hstep.passes_eq] at hsince
  rcases hstep.since config since hstage with hbefore | hnew
  · rw [(hstep.offered config since hbefore).2]
    exact h config since hbefore hsince
  · exact absurd hnew hsince.ne

end Stages

/-! ### BRISC -/

/-- No reset is pending, and the registers are as the guest's stage says. -/
structure SetupInv (slot queue : ℕ) (start : SetupLog) (s : SlotScene) : Prop where
  live : Live slot s.memory
  tracked : Tracked slot queue start s

/-- A part of BRISC's poll that keeps the invariant, from one property of the scene to another. -/
def CapturePart (slot queue : ℕ) (start : SetupLog) {D α : Type} (drive : D → Prog D)
    (pre : SlotScene → Prop) (program : Prog α) (post : α → SlotScene → Prop) : Prop :=
  ∀ s, pre s → Ensures ((slotCores slot drive).access .brisc)
    (fun t t' ↦ SetupRely slot queue start t t' ∧ SetupInv slot queue start t')
    (fun op t ↦ SetupInv slot queue start ((slotCores slot drive).access .brisc op t).2) post
    program s

variable {D : Type} {drive : D → Prog D}

section Brisc

variable {t : SlotScene} {op : Op}

theorem Tracked.touches (h : Tracked slot queue start t) (hqueue : queue < maxQueuesPerSlot)
    (htouches : Touches slot stores op) (hspares : Spares stores) :
    Tracked slot queue start (accessed .brisc op t) :=
  h.kept hqueue (htouches.kept t.memory) hspares
    (setupLog_brisc slot start op t) rfl

theorem SetupInv.load (h : SetupInv slot queue start t) (hqueue : queue < maxQueuesPerSlot)
    (addr : ℕ) : SetupInv slot queue start (accessed .brisc (.l1Load addr 4) t) := by
  have htouches : Touches slot noStores (.l1Load addr 4) := .load addr
  exact ⟨h.live, h.tracked.touches hqueue htouches spares_noStores⟩

theorem Answered.touches (h : Answered slot start t) (htouches : Touches slot stores op)
    (hready : Spared stores (.reg mmioQueueReady)) :
    Answered slot start (accessed .brisc op t) := by
  intro config since hstage hsince
  have hlog := setupLog_brisc slot start op t
  refine (htouches.kept t.memory _ (by decide) hready).trans (h config since ?_ hsince)
  exact (congrArg SetupLog.stage hlog).symm.trans hstage

theorem resetless_setup :
    Resetless slot fun t t' ↦ SetupRely slot queue start t t' ∧ SetupInv slot queue start t' :=
  fun _ _ hstep ↦ ⟨hstep.1.statusSnap_eq, hstep.1.status⟩

section

variable (hqueue : queue < maxQueuesPerSlot)
include hqueue

theorem capturePart_phase {α : Type} {program : Prog α} (keeps : SlotScene → Prop)
    (hprog : program.Performs (Touches slot stores)) (hspares : Spares stores)
    (hstable : Stable (SetupRely slot queue start) keeps)
    (hop : ∀ op t, Touches slot stores op → keeps t → keeps (accessed .brisc op t))
    (hstatus : SparesStatus stores := by exact ⟨fun _ ↦ rfl, fun _ ↦ rfl⟩) :
    CapturePart slot queue start drive (fun t ↦ SetupInv slot queue start t ∧ keeps t) program
      (fun _ t ↦ SetupInv slot queue start t ∧ keeps t) := by
  intro s hs
  refine (resetless_setup.phase (fun t ↦ Tracked slot queue start t ∧ keeps t) hprog (fun t t' hstep
    ht ↦ ⟨hstep.2.tracked, hstable t t' hstep.1 ht.2⟩) (fun op t htouches ht ↦ ⟨ht.1.touches hqueue
    htouches hspares, hop op t htouches ht.2⟩) hs.1.live ⟨hs.1.tracked, hs.2⟩ hstatus).imp ?_ ?_
  · intro op t ht
    exact ⟨ht.2.1, ht.2.2.1.touches hqueue ht.1 hspares⟩
  · intro _ t ht
    exact ⟨⟨ht.1, ht.2.1⟩, ht.2.2⟩

theorem capturePart_pollStatus :
    CapturePart slot queue start drive (SetupInv slot queue start) (pollStatus slot)
      (fun _ t ↦ SetupInv slot queue start t) := by
  intro s hs
  have hspares : Spares statusStores := spares_statusStores
  refine (resetless_setup.pollStatus (Tracked slot queue start) (fun t t' hstep _ ↦ hstep.2.tracked)
    (fun op t htouches ht ↦ ht.touches hqueue htouches hspares) hs.live hs.tracked).imp ?_ ?_
  · intro op t ht
    exact ⟨ht.2.1, ht.2.2.touches hqueue ht.1 hspares⟩
  · intro _ t ht
    exact ⟨ht.1, ht.2⟩

/-- The QUEUE_SEL phase finds nothing to do: it only loads. -/
theorem ensures_pollQueueSel {access : Op → SlotScene → Prop}
    (hload : ∀ addr t, SetupInv slot queue start t → access (.l1Load addr 4) t)
    (hs : SetupInv slot queue start s) : Ensures ((slotCores slot drive).access .brisc)
      (fun t t' ↦ SetupRely slot queue start t t' ∧ SetupInv slot queue start t') access
      (fun sel t ↦ sel = queue ∧ SetupInv slot queue start t) (pollQueueSel slot) s := by
  refine ensures_read (.reg mmioQueueSel) (SetupInv slot queue start) (fun _ _ hstep _ ↦ hstep.2)
    hs fun s1 hs1 ↦ ⟨hload _ s1 hs1, ?_⟩
  refine ensures_read (.snap snapOffQueueSel) (SetupInv slot queue start) (fun _ _ hstep _ ↦
    hstep.2) (hs1.load hqueue _) fun s2 hs2 ↦ ⟨hload _ s2 hs2, ?_⟩
  have hsel : cell slot (.reg mmioQueueSel) s1.memory = queue := hs1.tracked.sel
  have hsnap : cell slot (.snap snapOffQueueSel) s2.memory = queue := hs2.tracked.snap
  rw [hsel, hsnap]
  unfold Program.onlyIf
  rw [if_neg (not_not.mpr rfl)]
  exact ⟨rfl, hs2.load hqueue _⟩

end

/-- BRISC has seen the offer and not yet answered it. -/
structure Pending (slot queue : ℕ) (start : SetupLog) (config : List ℕ) (since : ℕ)
    (t : SlotScene) : Prop where
  inv : SetupInv slot queue start t
  offered : setupStage slot start t = .offered config since
  ready : readyWord slot t.memory ≠ 0

theorem Pending.stable (h : Pending slot queue start config since s)
    (hstep : SetupRely slot queue start s s') (hinv : SetupInv slot queue start s') :
    Pending slot queue start config since s' := by
  obtain ⟨hstage, hready⟩ := hstep.offered config since h.offered
  exact ⟨hinv, hstage, hready.trans_ne h.ready⟩

section

variable (h : Pending slot queue start config since t)
include h

theorem Pending.config_eq : regConfig slot t.memory = config := by
  have hholds := h.inv.tracked.holds
  rw [h.offered] at hholds
  exact hholds.1

theorem Pending.access (htouches : Touches slot (shadowStores queue) op) :
    Pending slot queue start config since (accessed .brisc op t) := by
  have hkept := htouches.kept t.memory
  have hlog := setupLog_brisc slot start op t
  have hstage : setupStage slot start (accessed .brisc op t) =
      .offered config since := (congrArg SetupLog.stage hlog).trans h.offered
  have hready : readyWord slot (accessed .brisc op t).memory =
      readyWord slot t.memory := hkept.eq (.reg mmioQueueReady)
  have hholds := h.inv.tracked.holds
  rw [h.offered] at hholds
  refine ⟨⟨hkept.live h.inv.live, ?_, ?_, ?_⟩, hstage, hready.trans_ne h.ready⟩
  · exact (hkept.eq (.reg mmioQueueSel)).trans h.inv.tracked.sel
  · exact (hkept.eq (.snap snapOffQueueSel)).trans h.inv.tracked.snap
  · rw [hstage]
    refine ⟨(hkept.regConfig_eq fun _ _ _ ↦ rfl).trans hholds.1, fun hzero ↦ ?_, fun hlate ↦ ?_⟩
    · exact absurd (hready.symm.trans hzero) h.ready
    · exact absurd (hholds.2.2 hlate) h.ready

theorem Pending.answer (hqueue : queue < maxQueuesPerSlot)
    (hcapt : Captured slot queue config t.memory) :
    SetupInv slot queue start (accessed .brisc (.l1Store (regAddr slot mmioQueueReady) 4 0) t) ∧
      Answered slot start (accessed .brisc (.l1Store (regAddr slot mmioQueueReady) 4 0) t) := by
  have hkept := setupKept_clear (touches_clearReady slot) t.memory
  have hlive := ((touches_clearReady slot).kept t.memory).live h.inv.live
  have hready := cell_store_self slot (.reg mmioQueueReady) 0 t.memory
  have hlog := setupLog_brisc slot start (.l1Store (regAddr slot mmioQueueReady) 4 0) t
  have hstage : setupStage slot start (accessed .brisc (.l1Store (regAddr slot mmioQueueReady) 4 0)
    t) = .offered config since := (congrArg SetupLog.stage hlog).trans h.offered
  refine ⟨⟨hlive, ?_, ?_, ?_⟩, fun _ _ _ _ ↦ hready⟩
  · exact hkept.sel.trans h.inv.tracked.sel
  · exact hkept.snap.trans h.inv.tracked.snap
  · rw [hstage]
    exact ⟨hkept.config.trans h.config_eq, fun _ ↦ hcapt.kept hqueue (hkept.shadow queue),
      fun _ ↦ hready⟩

end

/-- What a capture does to the shadow is kept by what it counts. -/
theorem capturePart_count (hprog : program.Performs (Touches slot noStores))
    (extra : World → Prop) (hextra : ∀ w w', (∀ offset, (Cell.shadow queue offset).Valid →
      cell slot (.shadow queue offset) w' = cell slot (.shadow queue offset) w) →
      extra w → extra w') :
    CapturePart slot queue start drive
      (fun t ↦ Pending slot queue start config since t ∧ extra t.memory) program
      (fun _ t ↦ Pending slot queue start config since t ∧ extra t.memory) := by
  intro s hs
  have hop : ∀ op t, Touches slot noStores op → Pending slot queue start config since t ∧
      extra t.memory → Pending slot queue start config since (accessed .brisc op t) ∧ extra
      (accessed .brisc op t).memory := by
    intro op t htouches ht
    refine ⟨ht.1.access (htouches.mono fun _ _ hno ↦ absurd hno Bool.false_ne_true), ?_⟩
    exact hextra _ _ (fun offset hvalid ↦ htouches.kept t.memory _ hvalid fun _ ↦ rfl) ht.2
  refine (Ensures.keeping (fun t ↦ Pending slot queue start config since t ∧ extra t.memory)
    hprog ?_ hop hs).imp ?_ fun _ _ ht ↦ ht.2
  · intro t t' hstep ht
    exact ⟨ht.1.stable hstep.1 hstep.2, hextra _ _ hstep.1.shadow ht.2⟩
  · intro op t ht
    exact (hop op t ht.1 ht.2).1.inv

section

variable (hqueue : queue < maxQueuesPerSlot)
include hqueue

theorem capturePart_captureReady :
    CapturePart slot queue start drive (Pending slot queue start config since)
      (captureReady slot queue)
      (fun _ t ↦ Pending slot queue start config since t ∧
        shadowConfig slot queue t.memory = config) := by
  intro s hs
  have hstable : ∀ t t', SetupRely slot queue start t t' ∧ SetupInv slot queue start t' →
      Pending slot queue start config since t → Pending slot queue start config since t' :=
    fun t t' hstep ht ↦ ht.stable hstep.1 hstep.2
  have hload : ∀ addr t, Pending slot queue start config since t → SetupInv slot queue start
    (accessed .brisc (.l1Load addr 4) t) ∧ Pending slot queue start config since (accessed .brisc
    (.l1Load addr 4) t) := fun addr t ht ↦ ⟨(ht.access (.load addr)).inv, ht.access (.load addr)⟩
  refine (ensures_capture _ hstable hload (fun t ht ↦ ht.config_eq) hs).bind ?_
  rintro values s1 ⟨rfl, hs1⟩
  refine ensures_read (.reg mmioQueueSel) _ hstable hs1 fun s2 hs2 ↦ ⟨(hload _ s2 hs2).1, ?_⟩
  have hsel : cell slot (.reg mmioQueueSel) s2.memory = queue := hs2.inv.tracked.sel
  rw [hsel, if_pos rfl]
  have hcommit : Ensures ((slotCores slot drive).access .brisc) (fun t t' ↦
      SetupRely slot queue start t t' ∧ SetupInv slot queue start t') (fun op t ↦
      SetupInv slot queue start (accessed .brisc op t)) (fun _ t ↦
      Pending slot queue start values since t ∧ shadowConfig slot queue t.memory = values)
      (commit slot queue values) (accessed .brisc (.l1Load (regAddr slot mmioQueueSel) 4) s2) := by
    have hlen : values.length = queueFields.length := by
      rw [← hs2.config_eq]
      exact length_regConfig slot _
    have hword : ∀ value ∈ values, value < 2 ^ 32 := by
      rw [← hs2.config_eq]
      exact fun value ↦ regConfig_lt
    refine ensures_commit hqueue hlen hword _ hstable
      (fun t t' hstep ↦ hstep.1.shadow) ?_ (hload _ s2 hs2).2
    intro field hfield value _ t ht
    have hpend := ht.access (.store (.shadow queue field.2) value
      (valid_shadowField hqueue hfield) (decide_eq_true rfl))
    exact ⟨hpend.inv, hpend⟩
  refine hcommit.bind fun _ s3 hs3 ↦ ?_
  have hcount : (do
      let _ ← readU32 (shadowQueueAddr slot queue shadowQOffDeviceHi)
      incStat statsOffQueueSetups : Prog Unit).Performs (Touches slot noStores) :=
    touches_readU32.bind fun _ _ ↦ touches_incStat
  exact capturePart_count hcount (fun w ↦ shadowConfig slot queue w = values)
    (fun w w' hshadow hw ↦ (shadowConfig_eq hqueue hshadow).trans hw) s3 hs3

theorem capturePart_handleQueueReadyChange {ready : ℕ} (hready : ready ≠ 0)
    (hword : ready < 2 ^ 32) :
    CapturePart slot queue start drive (Pending slot queue start config since)
      (handleQueueReadyChange slot queue ready)
      (fun _ t ↦ Pending slot queue start config since t ∧
        Captured slot queue config t.memory) := by
  intro s hs
  unfold handleQueueReadyChange Program.onlyIf
  rw [if_pos hqueue, if_pos hready, if_neg hready]
  refine (capturePart_captureReady hqueue s hs).bind fun _ s1 hs1 ↦ ?_
  refine ensures_store (fun t ↦ Pending slot queue start config since t ∧
    shadowConfig slot queue t.memory = config) ?_ hs1 fun s2 hs2 ↦ ?_
  · intro t t' hstep ht
    exact ⟨ht.1.stable hstep.1 hstep.2, (shadowConfig_eq hqueue hstep.1.shadow).trans ht.2⟩
  have hpend := hs2.1.access (.store (.shadow queue shadowQOffReady) ready
    (valid_shadowReady hqueue) (decide_eq_true rfl))
  have hcapt : Captured slot queue config
      (exec (.l1Store (shadowQueueAddr slot queue shadowQOffReady) 4 ready) s2.memory).2 := by
    have hstored := cell_store_self slot (.shadow queue shadowQOffReady) ready s2.memory
    rw [Nat.mod_eq_of_lt hword] at hstored
    exact ⟨(shadowConfig_storeReady hqueue ready s2.memory).trans hs2.2, hstored.trans_ne hready⟩
  refine ⟨hpend.inv, ?_⟩
  refine capturePart_count touches_incStat (Captured slot queue config)
    (fun w w' hshadow hw ↦ hw.kept hqueue hshadow) _ ⟨hpend, hcapt⟩

/-- The QUEUE_READY phase answers every offer from before the poll. -/
theorem capturePart_pollQueueReady :
    CapturePart slot queue start drive (SetupInv slot queue start) (pollQueueReady slot queue)
      (fun _ t ↦ SetupInv slot queue start t ∧ Answered slot start t) := by
  intro s hs
  refine ensures_read (.reg mmioQueueReady) (SetupInv slot queue start)
    (fun _ _ hstep _ ↦ hstep.2) hs fun s1 hs1 ↦ ⟨hs1.load hqueue _, ?_⟩
  split_ifs with hready
  · -- the register is zero while the guest fills the others, so there is an offer
    obtain ⟨config, since, hoffered⟩ : ∃ config since,
        setupStage slot start s1 = .offered config since := by
      have hholds := hs1.tracked.holds
      cases hstage : setupStage slot start s1 with
      | fresh =>
        rw [hstage] at hholds
        exact absurd hholds not_false
      | filling values =>
        rw [hstage] at hholds
        exact absurd hholds.1 hready
      | offered config since => exact ⟨config, since, rfl⟩
    have hpend : Pending slot queue start config since s1 := ⟨hs1, hoffered, hready⟩
    refine (capturePart_handleQueueReadyChange hqueue hready (cell_lt _ _) _
      (hpend.access (.load _))).bind fun _ s2 hs2 ↦ ?_
    refine ensures_last_store (fun t ↦ Pending slot queue start config since t ∧
      Captured slot queue config t.memory) ?_ hs2 fun t ht ↦ ?_
    · intro t t' hstep ht
      exact ⟨ht.1.stable hstep.1 hstep.2, ht.2.kept hqueue hstep.1.shadow⟩
    have hanswer := ht.1.answer hqueue ht.2
    exact ⟨hanswer.1, hanswer⟩
  · refine ⟨hs1.load hqueue _, ?_⟩
    exact fun _ _ _ _ ↦ not_not.mp hready

theorem capturePart_answered (hprog : program.Performs (Touches slot stores))
    (hspares : Spares stores)
    (hstatus : SparesStatus stores := by exact ⟨fun _ ↦ rfl, fun _ ↦ rfl⟩) :
    CapturePart slot queue start drive
      (fun t ↦ SetupInv slot queue start t ∧ Answered slot start t) program
      (fun _ t ↦ SetupInv slot queue start t ∧ Answered slot start t) :=
  capturePart_phase hqueue (Answered slot start) hprog hspares
    (fun _ _ hstep ht ↦ ht.stable hstep)
    (fun _ _ htouches ht ↦ ht.touches htouches (hspares _ rfl)) hstatus

end

theorem capturePart_pollOneDevice (hslot : slot < numSlots) (hqueue : queue < maxQueuesPerSlot) :
    CapturePart slot queue start drive (SetupInv slot queue start) (pollOneDevice slot)
      (fun _ t ↦ SetupInv slot queue start t ∧ Answered slot start t) := by
  intro s hs
  refine (capturePart_pollStatus hqueue s hs).bind fun _ s1 hs1 ↦ ?_
  refine (ensures_pollQueueSel hqueue (fun addr t ht ↦ ht.load hqueue addr) hs1).bind ?_
  rintro sel s2 ⟨rfl, hs2⟩
  refine (capturePart_pollQueueReady hqueue s2 hs2).bind fun _ s3 hs3 ↦ ?_
  refine (capturePart_answered hqueue (touches_pollQueueNotify hslot)
    spares_register ⟨fun _ ↦ rfl, fun _ ↦ rfl⟩ s3 hs3).bind fun _ s4 hs4 ↦ ?_
  exact capturePart_answered hqueue touches_pollRest spares_restStores
    ⟨fun _ ↦ rfl, fun _ ↦ rfl⟩ s4 hs4

end Brisc

/-! ### The system -/

/-- A store to an address of L1. -/
def StoresTo (addr : ℕ) : Op → Prop
  | .l1Store other _ _ => other = addr
  | _ => False

instance (addr : ℕ) : (op : Op) → Decidable (StoresTo addr op)
  | .l1Store other _ _ => inferInstanceAs (Decidable (other = addr))
  | .l1Load _ _ | .ringLoad _ _ _ _ | .ringStore _ _ _ _ _ | .plicStore _ _ | .getProcessed _ _ |
    .setProcessed _ _ _ | .enter _ _ _ _ | .leave _ _ _ | .device _ _ _ => .isFalse id

/-- The turns around a guest that keeps to the order and stays with the queue it has selected. -/
def Staying (slot : ℕ) (start : SetupLog) {D : Type} (c : SlotConfig D) :
    Turn SlotCore ByteStore → Prop
  | .core .driver => ∀ op ∈ (c.rest .driver).nextOp,
      InOrder slot (setupLog slot start c.scene.trace) op ∧
        ¬ StoresTo (regAddr slot mmioQueueSel) op
  | .core _ => True
  | .act event => Outsider slot event

instance (slot : ℕ) (start : SetupLog) {D : Type} (c : SlotConfig D) :
    (turn : Turn SlotCore ByteStore) → Decidable (Staying slot start c turn)
  | .core .driver => inferInstanceAs (Decidable (∀ op ∈ (c.rest .driver).nextOp, _ ∧ _))
  | .core .brisc | .core .trisc1 | .core .trisc2 => .isTrue trivial
  | .act event => inferInstanceAs (Decidable (Outsider slot event))

/-- The parts of the cores while the guest sets up a queue that BRISC and TRISC1 have noticed. -/
def captureOutline (slot queue : ℕ) (start : SetupLog) {D : Type} (drive : D → Prog D) :
    Outline SlotCore Op ℕ ByteStore World (SlotCore.Private D) where
  inv := SetupInv slot queue start
  rely
    | .brisc => SetupRely slot queue start
    | _ => fun _ _ ↦ True
  guarantee
    | .brisc => fun op t ↦
      SetupInv slot queue start ((slotCores slot drive).access .brisc op t).2
    | .trisc1 => fun op _ ↦ Touches slot noStores op
    | .trisc2 => fun op _ ↦ Touches slot featureStores op
    | .driver => fun _ _ ↦ True
  between
    | .brisc => fun _ s ↦ Answered slot start s
    | .trisc1 => fun lastQsel _ ↦ lastQsel = queue
    | _ => fun _ _ ↦ True

section System

variable {c : SlotConfig D}

/-- A step that leaves the cells and the log alone suits everybody. -/
theorem SetupRely.admissible (h : SetupRely slot queue start c.scene s') (core : SlotCore) :
    (captureOutline slot queue start drive).Admissible c core s' := by
  refine .inl ?_
  cases core with
  | brisc => exact h
  | _ => trivial

section

variable (h : SetupInv slot queue start s)
include h

theorem SetupInv.storeOther (hqueue : queue < maxQueuesPerSlot) {offset value : ℕ}
    (hvalid : (Cell.reg offset).Valid) (hother : offset ∉ queueRegisters)
    (hstatus : offset = mmioStatus → value % 2 ^ 32 ≠ 0) :
    SetupInv slot queue start (guestStored slot offset value s) ∧
      SetupRely slot queue start s (guestStored slot offset value s) := by
  have hkept := driver_kept slot value hvalid s
  have hspares := spares_register hother
  have hlog := (setupLog_store slot start offset 4 value s).trans
    (SetupLog.store_of_notMem _ _ value hother)
  refine ⟨⟨driver_live slot hvalid hstatus h.live,
    h.tracked.kept hqueue hkept hspares hlog rfl⟩, ?_⟩
  exact .of_kept hkept hspares (fun _ ↦ decide_eq_false nofun)
    (driver_status slot hvalid hstatus s) hlog rfl

variable (hfilling : setupStage slot start s = .filling values)
include hfilling

/-- A guest store to a register of the setup while the guest fills them. -/
theorem SetupInv.storeSetup {offset value : ℕ}
    (hsetup : offset ∈ mmioQueueReady :: setupRegisters) (hvalid : (Cell.reg offset).Valid)
    (hsince : ∀ config since, setupStage slot start (guestStored slot offset value s) =
      .offered config since → since = passes .brisc s.trace)
    (hholds : Holds slot queue (passes .brisc s.trace)
      (guestStored slot offset value s).memory (setupStage slot start
        (guestStored slot offset value s))) :
    SetupInv slot queue start (guestStored slot offset value s) ∧
      SetupRely slot queue start s (guestStored slot offset value s) := by
  have hkept := driver_kept slot value hvalid s
  have hne : ∀ offset ∈ mmioQueueReady :: setupRegisters,
      offset ≠ mmioQueueSel ∧ offset ≠ mmioStatus := by decide
  have hsel : Spared (fun c _ ↦ c = .reg offset) (.reg mmioQueueSel) :=
    fun _ ↦ decide_eq_false fun heq ↦ (hne offset hsetup).1 (Cell.reg.inj heq).symm
  have hstatus : Spared (fun c _ ↦ c = .reg offset) (.reg mmioStatus) :=
    fun _ ↦ decide_eq_false fun heq ↦ (hne offset hsetup).2 (Cell.reg.inj heq).symm
  have hsnap : ∀ snap, Spared (fun c _ ↦ c = .reg offset) (.snap snap) :=
    fun _ _ ↦ decide_eq_false nofun
  refine ⟨⟨hkept.live h.live ⟨hstatus, hsnap _⟩, ?_, ?_, hholds⟩,
    hkept.snap_eq (hsnap _), .inl (hkept.status_eq hstatus), ?_, rfl, ?_, ?_⟩
  · exact (hkept _ (by decide) hsel).trans h.tracked.sel
  · exact (hkept _ (by decide) (hsnap _)).trans h.tracked.snap
  · exact fun other hother ↦ hkept _ hother fun _ ↦ decide_eq_false nofun
  · intro config since hoffered
    rw [hfilling] at hoffered
    exact nomatch hoffered
  · exact fun config since hoffered ↦ .inr (hsince config since hoffered)

theorem SetupInv.storeField {offset value : ℕ}
    (hfield : setupRegisters[values.length]? = some offset) :
    SetupInv slot queue start (guestStored slot offset value s) ∧
      SetupRely slot queue start s (guestStored slot offset value s) := by
  have hmem := mem_of_getElem? hfield
  have hvalid : ∀ offset ∈ setupRegisters, (Cell.reg offset).Valid ∧ offset ≠ mmioQueueReady := by
    decide
  have hstage : setupStage slot start (guestStored slot offset value s) =
        .filling (values ++ [value % 2 ^ 32]) := by
    unfold setupStage
    rw [setupLog_store, SetupLog.store_field _ value hfilling hfield]
  have hholds := h.tracked.holds
  rw [hfilling] at hholds
  refine h.storeSetup hfilling (mem_cons_of_mem _ hmem) (hvalid offset hmem).1 ?_ ?_
  · intro config since hoffered
    rw [hstage] at hoffered
    exact nomatch hoffered
  · rw [hstage]
    refine ⟨Eq.trans ?_ hholds.1, ?_⟩
    · refine cell_store_of_ne (c := .reg offset) (hvalid offset hmem).1 (by decide) ?_ value _
      exact fun heq ↦ (hvalid offset hmem).2 (Cell.reg.inj heq)
    · rw [length_append, length_singleton, take_regConfig_store hfield, hholds.2]

theorem SetupInv.storeReady (hlen : values.length = queueFields.length) :
    SetupInv slot queue start (guestStored slot mmioQueueReady 1 s) ∧
      SetupRely slot queue start s (guestStored slot mmioQueueReady 1 s) := by
  have hstage : setupStage slot start (guestStored slot mmioQueueReady 1 s) =
        .offered values (passes .brisc s.trace) := by
    unfold setupStage
    rw [setupLog_store, SetupLog.store_ready _ 1 hfilling hlen]
  have hholds := h.tracked.holds
  rw [hfilling] at hholds
  refine h.storeSetup hfilling mem_cons_self (by decide) ?_ ?_
  · intro config since hoffered
    rw [hstage] at hoffered
    exact (SetupStage.offered.inj hoffered).2.symm
  · rw [hstage]
    have hready := cell_store_self slot (.reg mmioQueueReady) 1 s.memory
    have hsetup : ∀ offset ∈ setupRegisters, Cell.reg offset ≠ .reg mmioQueueReady := by decide
    have hconfig := (driver_kept slot 1 (by decide) s).regConfig_eq fun offset hoffset _ ↦
      decide_eq_false (hsetup offset hoffset)
    refine ⟨hconfig.trans ?_, fun hzero ↦ ?_, fun hlate ↦ ?_⟩
    · rw [← hholds.2, take_of_length_le]
      rw [length_regConfig, hlen]
    · exact absurd (hready.symm.trans hzero) (by decide)
    · omega

end

theorem Staying.step (h : Staying slot start c (.core .driver)) {op : Op} {next : ℕ → Prog D}
    (hrest : c.rest .driver = .step op next) (hqueue : queue < maxQueuesPerSlot)
    (hinv : SetupInv slot queue start c.scene) :
    SetupInv slot queue start (accessed .driver op c.scene) ∧
      SetupRely slot queue start c.scene (accessed .driver op c.scene) := by
  obtain ⟨horder, hsel⟩ := h op (by rw [hrest]; rfl)
  cases op with
  | l1Load addr size =>
    have hkept : CellsKept slot noStores c.scene.memory
      (exec (.l1Load addr size) c.scene.memory).2 := fun _ _ _ ↦ rfl
    exact ⟨⟨hinv.live, hinv.tracked.kept hqueue hkept (fun _ _ _ ↦ rfl) rfl rfl⟩,
      .of_kept hkept (fun _ _ _ ↦ rfl) (fun _ ↦ rfl) (.inl rfl) rfl rfl⟩
  | l1Store addr size value =>
    obtain ⟨rfl, offset, hoffset, haligned, rfl, hstep⟩ := horder
    by_cases hmem : offset ∈ queueRegisters
    · rw [if_pos hmem] at hstep
      have hne : offset ≠ mmioQueueSel := fun heq ↦ hsel (congrArg (regAddr slot) heq)
      change (setupStage slot start c.scene).Expects offset value at hstep
      cases hstage : setupStage slot start c.scene with
      | fresh =>
        rw [hstage] at hstep
        exact absurd hstep hne
      | offered config since =>
        rw [hstage] at hstep
        exact absurd hstep hne
      | filling values =>
        rw [hstage] at hstep
        rcases hstep with hfield | ⟨rfl, hlen, rfl⟩
        · exact hinv.storeField hstage hfield
        · exact hinv.storeReady hstage hlen
    · rw [if_neg hmem] at hstep
      exact hinv.storeOther hqueue ⟨haligned, hoffset⟩ hmem hstep
  | _ => exact absurd horder not_false

theorem SetupInv.pass {core : SlotCore} (h : SetupInv slot queue start s)
    (hqueue : queue < maxQueuesPerSlot) (hcore : core ≠ .brisc) :
    SetupInv slot queue start (pass core s) := by
  have hkept : CellsKept slot noStores s.memory s.memory := fun _ _ _ ↦ rfl
  exact ⟨h.live, h.tracked.kept hqueue hkept (fun _ _ _ ↦ rfl) rfl (if_neg hcore)⟩

/-- BRISC begins a poll after one that answered every older offer. -/
theorem SetupInv.beginPoll (h : SetupInv slot queue start s) (hanswered : Answered slot start s) :
    SetupInv slot queue start (Cores.pass .brisc s) := by
  have hpasses : passes .brisc (Cores.pass .brisc s).trace =
      passes .brisc s.trace + 1 := if_pos rfl
  refine ⟨h.live, h.tracked.sel, h.tracked.snap, ?_⟩
  have hholds := h.tracked.holds
  change Holds slot queue _ s.memory (setupStage slot start s)
  cases hstage : setupStage slot start s with
  | fresh =>
    rw [hstage] at hholds
    exact hholds
  | filling values =>
    rw [hstage] at hholds
    exact hholds
  | offered config since =>
    rw [hstage] at hholds
    refine ⟨hholds.1, hholds.2.1, fun hlate ↦ hanswered config since hstage ?_⟩
    omega

theorem watchSel_at {s : SlotScene} (hinv : SetupInv slot queue start s) :
    (captureOutline slot queue start drive).At (slotCores slot drive) .trisc1
      (watchSel slot queue) s := by
  refine ensures_read (.reg mmioQueueSel) (SetupInv slot queue start) (fun _ _ hstep _ ↦ hstep.2)
    hinv fun t ht ↦ ⟨.load _, ?_⟩
  have hsel : cell slot (.reg mmioQueueSel) t.memory = queue := ht.tracked.sel
  rw [hsel, if_neg (not_not.mpr rfl)]
  rfl

theorem captureOutline_sound (hslot : slot < numSlots) (hqueue : queue < maxQueuesPerSlot) :
    (captureOutline slot queue start drive).Sound (slotCores slot drive) (Staying slot start) := by
  -- whatever spares the cells and is not the guest's suits everybody
  have hspared : ∀ {c : SlotConfig D} {stores : Cell → ℕ → Bool} (s' : SlotScene), SetupInv slot
      queue start c.scene → CellsKept slot stores c.scene.memory s'.memory → Spares stores →
      SparesStatus stores → setupLog slot start s'.trace = setupLog slot start c.scene.trace →
      passes .brisc s'.trace = passes .brisc c.scene.trace → SetupInv slot queue start
      s' ∧ ∀ other, (captureOutline slot queue start drive).Admissible c other s' := by
    intro c stores s' hinv hkept hspares hstatus hlog hpasses
    refine ⟨⟨hkept.live hinv.live hstatus,
      hinv.tracked.kept hqueue hkept hspares hlog hpasses⟩, fun other ↦ ?_⟩
    exact (SetupRely.of_kept hkept hspares hstatus.snap (.inl (hkept.status_eq hstatus.word)) hlog
      hpasses).admissible other
  apply Outline.Sound.ofRely
  case hrefl =>
    intro core s
    cases core with
    | brisc => exact .refl slot queue start s
    | _ => trivial
  case htrans =>
    intro core s s' s'' h h'
    cases core with
    | brisc => exact SetupRely.trans h h'
    | _ => trivial
  case hstable =>
    intro core result s s' hstep h
    cases core with
    | brisc => exact Answered.stable h hstep
    | trisc1 => exact h
    | _ => trivial
  case hloop =>
    intro core result s hinv h
    cases core with
    | brisc =>
      have hinv' := SetupInv.beginPoll hinv h
      refine ⟨hinv', ?_⟩
      exact (capturePart_pollOneDevice hslot hqueue _ hinv').weaken fun _ _ ht ↦ ht.2
    | trisc1 =>
      obtain rfl : result = queue := h
      have hinv' : SetupInv slot result start (pass .trisc1 s) :=
        SetupInv.pass hinv hqueue (by decide)
      exact ⟨hinv', watchSel_at hinv'⟩
    | trisc2 => exact ⟨SetupInv.pass hinv hqueue (by decide),
        Ensures.ofAlways (touches_watchFeatures slot result) _⟩
    | driver => exact ⟨SetupInv.pass hinv hqueue (by decide), ensures_true _ _⟩
  case hpass =>
    intro core other s hother
    cases other with
    | brisc =>
      have hpasses : passes .brisc (pass core s).trace = passes .brisc s.trace :=
        if_neg hother.symm
      have hkept : CellsKept slot noStores s.memory s.memory := fun _ _ _ ↦ rfl
      exact .of_kept hkept (fun _ _ _ ↦ rfl) (fun _ ↦ rfl) (.inl rfl) rfl hpasses
    | _ => trivial
  case haccess =>
    intro c core op next hallowed hrest hguar h
    cases core with
    | brisc =>
      refine ⟨hguar, fun other hother ↦ .inl ?_⟩
      cases other with
      | brisc => exact absurd rfl hother
      | _ => trivial
    | trisc1 =>
      obtain ⟨hinv, hothers⟩ := hspared (accessed .trisc1 op c.scene) h.inv
        (Touches.kept hguar c.scene.memory) (fun _ _ _ ↦ rfl) ⟨fun _ ↦ rfl, fun _ ↦ rfl⟩
        (setupLog_other slot start (by decide) op c.scene) rfl
      exact ⟨hinv, fun other _ ↦ hothers other⟩
    | trisc2 =>
      obtain ⟨hinv, hothers⟩ := hspared (accessed .trisc2 op c.scene) h.inv
        (Touches.kept hguar c.scene.memory) spares_register
        ⟨fun _ ↦ rfl, fun _ ↦ rfl⟩ (setupLog_other slot start (by decide) op c.scene) rfl
      exact ⟨hinv, fun other _ ↦ hothers other⟩
    | driver =>
      obtain ⟨hinv, hrely⟩ := hallowed.step hrest hqueue h.inv
      exact ⟨hinv, fun other _ ↦ hrely.admissible other⟩
  case hact =>
    intro c event hallowed h
    exact hspared _ h.inv (Outsider.kept drive hallowed c.scene) spares_register
      ⟨fun _ ↦ rfl, fun _ ↦ rfl⟩ rfl rfl

/-- The guest has selected the queue, and BRISC and TRISC1 have noticed. -/
structure Noticed (slot queue : ℕ) (start : SetupLog) (c : SlotConfig D) : Prop where
  filling : setupStage slot start c.scene = .filling []
  live : Live slot c.scene.memory
  sel : selWord slot c.scene.memory = queue
  snap : selSnap slot c.scene.memory = queue
  ready : readyWord slot c.scene.memory = 0
  brisc : Resting .brisc c
  trisc1 : (c.rest .trisc1).Always (Touches slot noStores) (· = queue)
  trisc2 : (c.rest .trisc2).Always (Touches slot featureStores) fun _ ↦ True

theorem Noticed.holds (h : Noticed slot queue start c) (drive : D → Prog D) :
    (captureOutline slot queue start drive).Holds (slotCores slot drive) c := by
  refine ⟨⟨h.live, h.sel, h.snap, ?_⟩, fun core ↦ ?_⟩
  · rw [h.filling]
    exact ⟨h.ready, rfl⟩
  cases core with
  | brisc =>
    obtain ⟨result, hdone⟩ := h.brisc.exists_done
    rw [hdone]
    intro config since hoffered
    rw [h.filling] at hoffered
    exact nomatch hoffered
  | trisc1 => exact Ensures.ofAlways h.trisc1 _
  | trisc2 => exact Ensures.ofAlways h.trisc2 _
  | driver => exact ensures_true _ _

/-- An offer is captured. Assumes: a slot of the engine and a queue below the bound; the guest has
selected the queue and written nothing since, and in that state BRISC is between two polls and its
snapshot shows the queue, TRISC1 has seen it too, QUEUE_READY is zero and no reset is pending; from
there on the guest is any program that writes the setup registers and QUEUE_READY in order and
leaves QUEUE_SEL alone. Once it has offered a configuration and BRISC has completed a poll begun
since, the shadow holds that configuration and says that the queue is ready. -/
theorem ready_captured (hslot : slot < numSlots) (hqueue : queue < maxQueuesPerSlot)
    (drive : D → Prog D) {c : SlotConfig D} (h : Noticed slot queue start c)
    {turns : List (Turn SlotCore ByteStore)}
    (hturns : (slotCores slot drive).Admits (Staying slot start) c turns) {config : List ℕ}
    {since : ℕ} (hoffered : setupStage slot start ((slotCores slot drive).follow c turns).scene =
      .offered config since)
    (hpoll : since < completed .brisc ((slotCores slot drive).follow c turns)) :
    Captured slot queue config ((slotCores slot drive).follow c turns).scene.memory := by
  have hfinal := (captureOutline_sound hslot hqueue).follow (h.holds drive) hturns
  have hholds := hfinal.inv.tracked.holds
  rw [hoffered] at hholds
  refine hholds.2.1 ?_
  unfold completed at hpoll
  cases hrest : ((slotCores slot drive).follow c turns).rest .brisc with
  | done result =>
    have hbrisc := hfinal.at_rest .brisc
    rw [hrest] at hpoll hbrisc
    exact hbrisc config since hoffered hpoll
  | step op next =>
    rw [hrest] at hpoll
    refine hholds.2.2 ?_
    simp only at hpoll
    omega

end System

/-- A guest that lets BRISC and TRISC1 notice the queue first. -/
theorem ready_captured_noticed :
    let start : SetupLog := ⟨1, .filling [], []⟩
    let final := (slotCores 1 (scripted 1)).follow
      (betweenPasses (l1World [(regAddr 1 mmioQueueSel, 4, 1), (snapAddr 1 snapOffQueueSel, 4, 1)])
        1 0 smallQueue)
      (replicate 16 (.core .driver) ++ replicate 60 (.core .brisc))
    setupStage 1 start final.scene = .offered [4, 0x1000, 0, 0x2000, 0, 0x3000, 0] 0 ∧
      0 < completed .brisc final ∧
      Captured 1 1 [4, 0x1000, 0, 0x2000, 0, 0x3000, 0] final.scene.memory := by
  intro start final
  have hstart : Noticed 1 1 start (betweenPasses (l1World [(regAddr 1 mmioQueueSel, 4, 1),
    (snapAddr 1 snapOffQueueSel, 4, 1)]) 1 0 smallQueue) := ⟨rfl, by decide +kernel,
    by decide +kernel, by decide +kernel, by decide +kernel, rfl, rfl, trivial⟩
  have hoffered : setupStage 1 start final.scene =
      .offered [4, 0x1000, 0, 0x2000, 0, 0x3000, 0] 0 := by decide +kernel
  have hpoll : 0 < completed .brisc final := by decide +kernel
  exact ⟨hoffered, hpoll, ready_captured (by decide) (by decide) (scripted 1) hstart
    (by decide +kernel) hoffered hpoll⟩

/-- A guest that selects queue `1` and sets it up before BRISC polls: BRISC notices the change of
QUEUE_SEL first and stores zero over the offer, and the next poll finds nothing. -/
theorem ready_discarded :
    let start : SetupLog := ⟨0, .fresh, []⟩
    let cores := slotCores 1 (scripted 1)
    let final := cores.follow
      (betweenPasses (l1World []) 0 0 ((mmioQueueSel, 1) :: smallQueue))
      (replicate 18 (.core .driver) ++ replicate 90 (.core .brisc))
    setupStage 1 start final.scene = .offered [4, 0x1000, 0, 0x2000, 0, 0x3000, 0] 0 ∧
      1 < completed .brisc final ∧ readyWord 1 final.scene.memory = 0 ∧
      shadowReady 1 1 final.scene.memory = 0 := by
  decide +kernel

end Bhx.Firmware
