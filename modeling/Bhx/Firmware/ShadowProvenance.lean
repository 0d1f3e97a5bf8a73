import Bhx.Firmware.QueueSetup

/-!
# Where a shadow comes from

The shadow of a queue says that the queue is ready. The guest offers a configuration for a queue by
storing to QUEUE_READY, and the shadow should then hold one that was offered for that queue
(`Provenance`). BRISC writes shadows in two places. The READY handler copies the registers and then
says ready even when it has given up the copy because QUEUE_SEL has moved, and the SEL handler
rescues the registers for the queue selected before. Both go wrong when the guest moves on while
BRISC polls, or fills the registers before BRISC has noticed the queue they are for
(`aborted_capture_ready`).

A guest that selects queues only between two polls, fills the registers only once BRISC has noticed
the queue, and offers nothing for a queue that is ready already, never sees this
(`shadow_provenance`). What BRISC can count on between two polls is `Orderly`, by the guest's stage
and by whether BRISC has noticed the queue; it holds when a poll begins and is broken and restored
only inside the two handlers.

Scope. The guest does not reset its device: the wipe clears the words of a shadow one by one, the
size before the word that says ready.
-/

set_option autoImplicit false

namespace Bhx.Firmware

open SharedMemory Machine L1Layout List Cell

variable {config : List ℕ} {queue sel old since : ℕ} {values : List ℕ}
  {keeps pre : SlotScene → Prop} {α : Type} {program : Prog α} {post : α → SlotScene → Prop}
  {field : ℕ × ℕ} {value offset : ℕ} {log : SetupLog}

/-! ### What holds between two polls -/

/-- Every shadow that says ready holds a configuration offered for its queue. -/
def Provenance (slot : ℕ) (log : SetupLog) (w : World) : Prop :=
  ∀ queue < maxQueuesPerSlot, shadowReady slot queue w ≠ 0 →
    (queue, shadowConfig slot queue w) ∈ log.offers

/-- What the rescue would copy for a queue was offered for it. -/
def Rescuable (slot queue : ℕ) (log : SetupLog) (w : World) : Prop :=
  queue < maxQueuesPerSlot → shadowReady slot queue w = 0 → (regConfig slot w).headD 0 ≠ 0 →
    (queue, regConfig slot w) ∈ log.offers

/-- The registers at each stage of the guest. Before BRISC has noticed the queue they are still
those of the queue selected before. -/
def Orderly (slot : ℕ) (log : SetupLog) (w : World) : Prop :=
  match log.stage with
  | .fresh => selSnap slot w = selWord slot w ∧ (regConfig slot w).headD 0 = 0 ∧
      readyWord slot w = 0
  | .filling values =>
      (selSnap slot w = selWord slot w →
        (selWord slot w < maxQueuesPerSlot → readyWord slot w = 0) ∧
        (regConfig slot w).take values.length = values) ∧
      (selSnap slot w ≠ selWord slot w → values = [] ∧ Rescuable slot (selSnap slot w) log w)
  | .offered config _ => selSnap slot w = selWord slot w ∧ regConfig slot w = config ∧
      (selWord slot w, config) ∈ log.offers ∧
      (readyWord slot w ≠ 0 → selWord slot w < maxQueuesPerSlot →
        shadowReady slot (selWord slot w) w = 0)

variable {slot : ℕ} {stores : Cell → ℕ → Bool}

section Between

variable {log' : SetupLog} {w w' : World}

theorem SetupKept.shadowReady_eq (h : SetupKept slot w w') (hqueue : queue < maxQueuesPerSlot) :
    shadowReady slot queue w' = shadowReady slot queue w :=
  h.shadow queue _ (valid_shadowReady hqueue)

theorem Orderly.kept (h : Orderly slot log w) (hkept : SetupKept slot w w') :
    Orderly slot log w' := by
  have hclear : readyWord slot w = 0 → readyWord slot w' = 0 := by
    intro hzero
    rcases hkept.ready with heq | hcleared
    · exact heq.trans hzero
    · exact hcleared
  unfold Orderly at *
  cases hstage : log.stage with
  | fresh =>
    simp only [hstage, hkept.sel, hkept.snap, hkept.config] at *
    exact ⟨h.1, h.2.1, hclear h.2.2⟩
  | filling values =>
    simp only [hstage, Rescuable, hkept.sel, hkept.snap, hkept.config] at *
    refine ⟨fun hnoticed ↦ ⟨fun hsel ↦ hclear ((h.1 hnoticed).1 hsel), (h.1 hnoticed).2⟩,
      fun hnew ↦ ⟨(h.2 hnew).1, fun hsnap hready ↦ (h.2 hnew).2 hsnap ?_⟩⟩
    rw [← hkept.shadowReady_eq hsnap]
    exact hready
  | offered config since =>
    simp only [hstage, hkept.sel, hkept.snap, hkept.config] at *
    refine ⟨h.1, h.2.1, h.2.2.1, fun hready hsel ↦ ?_⟩
    rw [hkept.shadowReady_eq hsel]
    exact h.2.2.2 (fun hzero ↦ hready (hclear hzero)) hsel

variable (h : Provenance slot log w)
include h

theorem Provenance.kept (hshadow : ∀ queue offset, (shadow queue offset).Valid →
      cell slot (.shadow queue offset) w' = cell slot (.shadow queue offset) w)
    (hoffers : ∀ offer ∈ log.offers, offer ∈ log'.offers) : Provenance slot log' w' := by
  intro queue hqueue hready
  have hready' : shadowReady slot queue w' = shadowReady slot queue w :=
    hshadow queue _ (valid_shadowReady hqueue)
  rw [shadowConfig_eq hqueue (hshadow queue)]
  exact hoffers _ (h queue hqueue (hready' ▸ hready))

/-- A store to the shadow of one queue leaves the other shadows alone. -/
theorem Provenance.store (hvalid : (shadow queue offset).Valid) (hthis : shadowReady slot queue
        (exec (.l1Store (shadowQueueAddr slot queue offset) 4 value) w).2 ≠ 0 →
      (queue, shadowConfig slot queue
        (exec (.l1Store (shadowQueueAddr slot queue offset) 4 value) w).2) ∈ log.offers) :
    Provenance slot log (exec (.l1Store (shadowQueueAddr slot queue offset) 4 value) w).2 := by
  intro other hother hsays
  by_cases heq : other = queue
  · subst heq
    exact hthis hsays
  · have hshadow : ∀ word, (shadow other word).Valid → cell slot (.shadow other word) (exec
        (.l1Store (shadowQueueAddr slot queue offset) 4 value) w).2 = cell slot
        (.shadow other word) w := by
      intro word hword
      refine cell_store_of_ne (c := .shadow queue offset) hvalid hword ?_ value w
      exact fun hcell ↦ heq (shadow.inj hcell).1.symm
    have hready : shadowReady slot other _ = shadowReady slot other w :=
      hshadow _ (valid_shadowReady hother)
    rw [shadowConfig_eq hother hshadow]
    rw [hready] at hsays
    exact h other hother hsays

theorem Provenance.storeField (value : ℕ) (hqueue : queue < maxQueuesPerSlot)
    (hready : shadowReady slot queue w = 0) (hfield : field ∈ queueFields) :
    Provenance slot log (exec (.l1Store (shadowQueueAddr slot queue field.2) 4 value) w).2 := by
  refine h.store (valid_shadowField hqueue hfield) fun hsays ↦ ?_
  rw [shadowReady_storeField hqueue hfield] at hsays
  exact absurd hready hsays

/-- The word that says ready, over a configuration that was offered. -/
theorem Provenance.storeReady (value : ℕ) (hqueue : queue < maxQueuesPerSlot)
    (hoffered : (queue, shadowConfig slot queue w) ∈ log.offers) : Provenance slot log
      (exec (.l1Store (shadowQueueAddr slot queue shadowQOffReady) 4 value) w).2 := by
  refine h.store (valid_shadowReady hqueue) fun _ ↦ ?_
  rw [shadowConfig_storeReady hqueue]
  exact hoffered

end Between

/-! ### What BRISC relies on -/

/-- No reset is pending, the log names the queue selected, and every shadow comes from an offer. -/
structure ProvInv (slot : ℕ) (start : SetupLog) (s : SlotScene) : Prop where
  live : Live slot s.memory
  queue_eq : (setupLog slot start s.trace).queue = selWord slot s.memory
  provenance : Provenance slot (setupLog slot start s.trace) s.memory

/-- The guest does not touch the registers now: BRISC has not noticed the queue, or they hold an
offer. -/
def Still (slot : ℕ) (start : SetupLog) (s : SlotScene) : Prop :=
  selSnap slot s.memory ≠ selWord slot s.memory ∨
    ∃ config since, setupStage slot start s = .offered config since

/-- What BRISC relies on while it polls. -/
structure ProvRely (slot : ℕ) (start : SetupLog) (s s' : SlotScene) : Prop where
  statusSnap_eq : statusSnap slot s'.memory = statusSnap slot s.memory
  status : statusWord slot s'.memory = statusWord slot s.memory ∨ statusWord slot s'.memory ≠ 0
  sel : selWord slot s'.memory = selWord slot s.memory
  snap : selSnap slot s'.memory = selSnap slot s.memory
  shadow : ∀ queue offset, (Cell.shadow queue offset).Valid →
    cell slot (.shadow queue offset) s'.memory = cell slot (.shadow queue offset) s.memory
  offers : ∀ offer ∈ (setupLog slot start s.trace).offers,
    offer ∈ (setupLog slot start s'.trace).offers
  still : Still slot start s → setupStage slot start s' = setupStage slot start s ∧
    SetupKept slot s.memory s'.memory
  orderly : Orderly slot (setupLog slot start s.trace) s.memory →
    Orderly slot (setupLog slot start s'.trace) s'.memory

variable {start : SetupLog} {s s' : SlotScene}

section Rely

variable {s'' : SlotScene}

/-- What leaves the log alone and the cells of a setup, but for a cleared QUEUE_READY. -/
theorem ProvRely.of_kept (hkept : SetupKept slot s.memory s'.memory)
    (hsnap : statusSnap slot s'.memory = statusSnap slot s.memory)
    (hstatus : statusWord slot s'.memory = statusWord slot s.memory ∨ statusWord slot s'.memory ≠ 0)
    (hlog : setupLog slot start s'.trace = setupLog slot start s.trace) :
    ProvRely slot start s s' := by
  refine ⟨hsnap, hstatus, hkept.sel, hkept.snap, hkept.shadow, ?_, ?_, ?_⟩
  · rw [hlog]
    exact fun offer hoffer ↦ hoffer
  · exact fun _ ↦ ⟨congrArg SetupLog.stage hlog, hkept⟩
  · rw [hlog]
    exact fun h ↦ h.kept hkept

theorem ProvRely.refl (slot : ℕ) (start : SetupLog) (s : SlotScene) : ProvRely slot start s s :=
  .of_kept ⟨rfl, rfl, rfl, .inl rfl, fun _ _ _ ↦ rfl⟩ rfl (.inl rfl) rfl

theorem Still.step (h : Still slot start s) (hstep : ProvRely slot start s s') :
    Still slot start s' := by
  rcases h with hnew | ⟨config, since, hoffered⟩
  · refine .inl ?_
    rw [hstep.snap, hstep.sel]
    exact hnew
  · exact .inr ⟨config, since, (hstep.still (.inr ⟨config, since, hoffered⟩)).1.trans hoffered⟩

theorem ProvRely.trans (h : ProvRely slot start s s') (h' : ProvRely slot start s' s'') :
    ProvRely slot start s s'' := by
  refine ⟨h'.statusSnap_eq.trans h.statusSnap_eq, ?_, h'.sel.trans h.sel, h'.snap.trans h.snap,
    fun queue offset hvalid ↦ (h'.shadow queue offset hvalid).trans (h.shadow queue offset hvalid),
    fun offer hoffer ↦ h'.offers offer (h.offers offer hoffer), fun hstill ↦ ?_,
    fun horderly ↦ h'.orderly (h.orderly horderly)⟩
  · rcases h'.status with heq | hne
    · rw [heq]
      exact h.status
    · exact .inr hne
  · obtain ⟨hstage, hkept⟩ := h.still hstill
    obtain ⟨hstage', hkept'⟩ := h'.still (hstill.step h)
    exact ⟨hstage'.trans hstage, hkept.trans hkept'⟩

end Rely

/-! ### The parts of a poll -/

/-- A part of BRISC's poll that keeps the invariant, from one property of the scene to another. -/
def ProvPart (slot : ℕ) (start : SetupLog) {D α : Type} (drive : D → Prog D)
    (pre : SlotScene → Prop) (program : Prog α) (post : α → SlotScene → Prop) : Prop :=
  ∀ s, ProvInv slot start s ∧ pre s → Ensures ((slotCores slot drive).access .brisc)
    (fun t t' ↦ ProvRely slot start t t' ∧ ProvInv slot start t')
    (fun op t ↦ ProvInv slot start ((slotCores slot drive).access .brisc op t).2)
    (fun result t ↦ ProvInv slot start t ∧ post result t) program s

variable {D : Type} {drive : D → Prog D}

section Brisc

variable {t : SlotScene} {op : Op}

/-- An access of BRISC that spares the cells of a setup and STATUS is one it could rely on. -/
theorem ProvRely.touches (htouches : Touches slot stores op) (hspares : Spares stores)
    (t : SlotScene) (hstatus : SparesStatus stores := by exact ⟨fun _ ↦ rfl, fun _ ↦ rfl⟩) :
    ProvRely slot start t (accessed .brisc op t) := by
  have hkept := htouches.kept t.memory
  exact .of_kept (hkept.setupKept hspares) (hkept.snap_eq hstatus.snap) (.inl
    (hkept.status_eq hstatus.word)) (setupLog_brisc slot start op t)

/-- The invariant through an access of BRISC that writes no shadow. -/
theorem ProvInv.access (h : ProvInv slot start t) (op : Op)
    (hlive : Live slot (exec op t.memory).2)
    (hsel : selWord slot (exec op t.memory).2 = selWord slot t.memory)
    (hprovenance : Provenance slot (setupLog slot start t.trace) (exec op t.memory).2) :
    ProvInv slot start (accessed .brisc op t) := by
  refine ⟨hlive, ?_, ?_⟩
  · exact h.queue_eq.trans hsel.symm
  · exact hprovenance

theorem ProvInv.touches (h : ProvInv slot start t) (htouches : Touches slot stores op)
    (hsel : Spared stores (.reg mmioQueueSel) := by exact fun _ ↦ rfl)
    (hshadow : ∀ queue offset, Spared stores (.shadow queue offset) := by exact fun _ _ _ ↦ rfl)
    (hstatus : SparesStatus stores := by exact ⟨fun _ ↦ rfl, fun _ ↦ rfl⟩) :
    ProvInv slot start (accessed .brisc op t) := by
  have hkept := htouches.kept t.memory
  exact h.access op (hkept.live h.live hstatus) (hkept _ (by decide) hsel) (h.provenance.kept
    (fun queue offset hvalid ↦ hkept _ hvalid (hshadow queue offset)) fun _ hoffer ↦ hoffer)

/-- A part that spares the cells of a setup keeps what BRISC may rely on. -/
theorem provPart_spared (keeps : SlotScene → Prop) (hstable : Stable (ProvRely slot start) keeps)
    (hprog : program.Performs (Touches slot stores)) (hspares : Spares stores)
    (hstatus : SparesStatus stores := by exact ⟨fun _ ↦ rfl, fun _ ↦ rfl⟩) :
    ProvPart slot start drive keeps program fun _ ↦ keeps := by
  intro s hs
  have hop : ∀ op t, Touches slot stores op → ProvInv slot start t ∧ keeps t → ProvInv slot start
      (accessed .brisc op t) ∧ keeps (accessed .brisc op t) := by
    intro op t htouches ht
    exact ⟨ht.1.touches htouches (hspares _ rfl) (fun _ _ ↦ hspares _ rfl) hstatus,
      hstable t _ (.touches htouches hspares t hstatus) ht.2⟩
  exact (Ensures.keeping (fun t ↦ ProvInv slot start t ∧ keeps t) hprog hstable.withInv hop
    hs).imp (fun op t ht ↦ (hop op t ht.1 ht.2).1) fun _ _ ht ↦ ht.2

theorem ProvPart.bind {β : Type} {mid : α → SlotScene → Prop} {post : β → SlotScene → Prop}
    {next : α → Prog β} (h : ProvPart slot start drive pre program mid)
    (hnext : ∀ result, ProvPart slot start drive (mid result) (next result) post) :
    ProvPart slot start drive pre (program >>= next) post :=
  fun s hs ↦ (h s hs).bind fun result t ht ↦ hnext result t ht

theorem provPart_read {next : ℕ → Prog α} (c : Cell) {pre : SlotScene → Prop}
    (hstable : Stable (ProvRely slot start) pre) (hnext : ∀ t, ProvInv slot start t → pre t →
      ProvPart slot start drive (fun t' ↦ pre t' ∧ ProvRely slot start t t')
        (next (cell slot c t.memory)) post) :
    ProvPart slot start drive pre (readU32 (c.addr slot) >>= next) post := by
  intro s hs
  refine ensures_read c (fun t ↦ ProvInv slot start t ∧ pre t) hstable.withInv hs fun t ht ↦ ?_
  have htouches : Touches slot noStores (.l1Load (c.addr slot) 4) := .load _
  have hrely : ProvRely slot start t (accessed .brisc (.l1Load (c.addr slot) 4) t) :=
    .touches htouches spares_noStores t
  have hinv := ht.1.touches htouches
  exact ⟨hinv, hnext t ht.1 ht.2 _ ⟨hinv, hstable t _ hrely ht.2, hrely⟩⟩

theorem ProvPart.of_imp {pre' : SlotScene → Prop} (h : ProvPart slot start drive pre program post)
    (himp : ∀ t, pre' t → pre t) : ProvPart slot start drive pre' program post :=
  fun s hs ↦ h s ⟨hs.1, himp s hs.2⟩

theorem provPart_store {post : SlotScene → Prop} {addr : ℕ}
    (hstable : Stable (ProvRely slot start) pre) (hstore : ∀ t, ProvInv slot start t → pre t →
      ProvInv slot start (accessed .brisc (.l1Store addr 4 value) t) ∧
        post (accessed .brisc (.l1Store addr 4 value) t)) :
    ProvPart slot start drive pre (storeU32 addr value) fun _ ↦ post := by
  intro s hs
  refine ensures_last_store (fun t ↦ ProvInv slot start t ∧ pre t) hstable.withInv hs fun t ht ↦ ?_
  exact ⟨(hstore t ht.1 ht.2).1, hstore t ht.1 ht.2⟩

/-! ### The SEL handler -/

/-- The registers between two polls, in a scene. -/
def OrderlyAt (slot : ℕ) (start : SetupLog) (t : SlotScene) : Prop :=
  Orderly slot (setupLog slot start t.trace) t.memory

/-- BRISC is about to notice that the guest has selected `sel` after `old`. -/
structure Unnoticed (slot : ℕ) (start : SetupLog) (old sel : ℕ) (t : SlotScene) : Prop where
  snap_eq : selSnap slot t.memory = old
  sel_eq : selWord slot t.memory = sel
  stage : setupStage slot start t = .filling []
  ready : sel < maxQueuesPerSlot → readyWord slot t.memory = 0

theorem Orderly.unnoticed {w : World} (h : Orderly slot log w)
    (hnew : selSnap slot w ≠ selWord slot w) :
    log.stage = .filling [] ∧ Rescuable slot (selSnap slot w) log w := by
  unfold Orderly at h
  cases hstage : log.stage with
  | fresh =>
    rw [hstage] at h
    exact absurd h.1 hnew
  | filling values =>
    rw [hstage] at h
    obtain ⟨rfl, hrescue⟩ := h.2 hnew
    exact ⟨rfl, hrescue⟩
  | offered config since =>
    rw [hstage] at h
    exact absurd h.1 hnew

theorem Unnoticed.stable (h : Unnoticed slot start old sel s) (hne : old ≠ sel)
    (hstep : ProvRely slot start s s') :
    Unnoticed slot start old sel s' ∧ SetupKept slot s.memory s'.memory := by
  have hstill : Still slot start s := by
    refine .inl ?_
    rw [h.snap_eq, h.sel_eq]
    exact hne
  obtain ⟨hstage, hkept⟩ := hstep.still hstill
  refine ⟨⟨hstep.snap.trans h.snap_eq, hstep.sel.trans h.sel_eq, hstage.trans h.stage,
    fun hsel ↦ ?_⟩, hkept⟩
  rcases hkept.ready with heq | hzero
  · exact heq.trans (h.ready hsel)
  · exact hzero

theorem stable_unnoticed (hne : old ≠ sel) :
    Stable (ProvRely slot start) (Unnoticed slot start old sel) :=
  fun _ _ hstep ht ↦ (ht.stable hne hstep).1

theorem stable_unready (hqueue : queue < maxQueuesPerSlot) :
    Stable (ProvRely slot start) fun t ↦ shadowReady slot queue t.memory = 0 :=
  fun _ _ hstep ht ↦ (hstep.shadow queue _ (valid_shadowReady hqueue)).trans ht

theorem stable_shadowConfig (config : List ℕ) (hqueue : queue < maxQueuesPerSlot) :
    Stable (ProvRely slot start) fun t ↦ shadowConfig slot queue t.memory = config :=
  fun _ _ hstep ht ↦ (shadowConfig_eq hqueue (hstep.shadow queue)).trans ht

theorem Rescuable.stable (h : Rescuable slot queue (setupLog slot start s.trace) s.memory)
    (hkept : SetupKept slot s.memory s'.memory) (hstep : ProvRely slot start s s') :
    Rescuable slot queue (setupLog slot start s'.trace) s'.memory := by
  intro hqueue hready hnum
  rw [hkept.config] at *
  exact hstep.offers _ (h hqueue ((hkept.shadowReady_eq hqueue).symm.trans hready) hnum)

theorem Unnoticed.access (h : Unnoticed slot start old sel t)
    (htouches : Touches slot (shadowStores queue) op) :
    Unnoticed slot start old sel (accessed .brisc op t) := by
  have hkept := htouches.kept t.memory
  have hlog := setupLog_brisc slot start op t
  refine ⟨(hkept.eq _).trans h.snap_eq, (hkept.eq _).trans h.sel_eq,
    (congrArg SetupLog.stage hlog).trans h.stage, fun hsel ↦ ?_⟩
  exact (hkept.eq (.reg mmioQueueReady)).trans (h.ready hsel)

theorem ProvInv.storeShadow (h : ProvInv slot start t) (hvalid : (shadow queue offset).Valid)
    (hprovenance : Provenance slot (setupLog slot start t.trace)
      (exec (.l1Store (shadowQueueAddr slot queue offset) 4 value) t.memory).2) :
    ProvInv slot start (accessed .brisc
      (.l1Store (shadowQueueAddr slot queue offset) 4 value) t) := by
  have hkept := (touches_shadow slot value hvalid).kept t.memory
  refine h.access _ (hkept.live h.live) ?_ hprovenance
  exact hkept.eq (.reg mmioQueueSel)

/-- The capture loop, while the registers hold a configuration. -/
theorem provPart_capture (hstable : Stable (ProvRely slot start) keeps)
    (hconfig : ∀ t, keeps t → regConfig slot t.memory = config) :
    ProvPart slot start drive keeps (capture slot queueFields)
      fun values t ↦ values = config ∧ keeps t := by
  intro s hs
  refine (ensures_capture (fun t ↦ ProvInv slot start t ∧ keeps t)
    hstable.withInv ?_ (fun t ht ↦ hconfig t ht.2) hs).weaken fun values t ht ↦
      ⟨ht.2.1, ht.1, ht.2.2⟩
  intro addr t ht
  have htouches : Touches slot noStores (.l1Load addr 4) := .load _
  have hinv := ht.1.touches htouches
  exact ⟨hinv, hinv, hstable t _ (.touches htouches spares_noStores t) ht.2⟩

/-- The commit loop, into a shadow that does not say ready. -/
theorem provPart_commit (hqueue : queue < maxQueuesPerSlot)
    (hstable : Stable (ProvRely slot start) keeps)
    (hunready : ∀ t, keeps t → shadowReady slot queue t.memory = 0)
    (hconfig : ∀ t, keeps t → regConfig slot t.memory = config)
    (hstore : ∀ field ∈ queueFields, ∀ value t, keeps t →
      keeps (accessed .brisc (.l1Store (shadowQueueAddr slot queue field.2) 4 value) t)) :
    ProvPart slot start drive keeps (commit slot queue config)
      fun _ t ↦ keeps t ∧ shadowConfig slot queue t.memory = config := by
  intro s hs
  have hlen : config.length = queueFields.length := by
    rw [← hconfig s hs.2]
    exact length_regConfig slot _
  have hword : ∀ value ∈ config, value < 2 ^ 32 := by
    rw [← hconfig s hs.2]
    exact fun value ↦ regConfig_lt
  refine (ensures_commit hqueue hlen hword (fun t ↦ ProvInv slot start t ∧ keeps t)
    hstable.withInv (fun t t' hstep ↦ hstep.1.shadow queue) ?_ hs).weaken fun _ t ht ↦
      ⟨ht.1.1, ht.1.2, ht.2⟩
  intro field hfield value _ t ht
  have hinv := ht.1.storeShadow (valid_shadowField hqueue hfield)
    (ht.1.provenance.storeField value hqueue (hunready t ht.2) hfield)
  exact ⟨hinv, hinv, hstore field hfield value t ht.2⟩

/-- What the rescue knows once it has found that the queue is not ready. -/
structure Rescuing (slot : ℕ) (start : SetupLog) (old sel : ℕ) (config : List ℕ)
    (t : SlotScene) : Prop where
  unnoticed : Unnoticed slot start old sel t
  unready : shadowReady slot old t.memory = 0
  config_eq : regConfig slot t.memory = config
  offered : config.headD 0 ≠ 0 → (old, config) ∈ (setupLog slot start t.trace).offers

theorem Rescuing.stable (h : Rescuing slot start old sel config s) (hne : old ≠ sel)
    (hold : old < maxQueuesPerSlot) (hstep : ProvRely slot start s s') :
    Rescuing slot start old sel config s' := by
  obtain ⟨hunnoticed, hkept⟩ := h.unnoticed.stable hne hstep
  exact ⟨hunnoticed, (hkept.shadowReady_eq hold).trans h.unready, hkept.config.trans h.config_eq,
    fun hnum ↦ hstep.offers _ (h.offered hnum)⟩

theorem Rescuing.storeField (h : Rescuing slot start old sel config t)
    (hold : old < maxQueuesPerSlot) (hfield : field ∈ queueFields) :
    Rescuing slot start old sel config (accessed .brisc
      (.l1Store (shadowQueueAddr slot old field.2) 4 value) t) := by
  have htouches := touches_shadow slot value (valid_shadowField hold hfield)
  refine ⟨h.unnoticed.access htouches,
    (shadowReady_storeField hold hfield value t.memory).trans h.unready,
    ((htouches.kept t.memory).regConfig_eq fun _ _ _ ↦ rfl).trans h.config_eq, fun hnum ↦ ?_⟩
  exact h.offered hnum

section

variable (hne : old ≠ sel)
include hne

/-- The second half of the rescue, which copies what was captured. -/
theorem provPart_rescueCopy (hold : old < maxQueuesPerSlot) :
    ProvPart slot start drive (Rescuing slot start old sel config)
      (do
        let selPost ← readU32 (regAddr slot mmioQueueSel)
        if selPost = sel ∧ config.headD 0 ≠ 0 then
          commit slot old config
          let _ ← readU32 (shadowQueueAddr slot old shadowQOffDeviceHi)
          storeU32 (shadowQueueAddr slot old shadowQOffReady) 1
          incStat statsOffBriscOldSelRescue)
      fun _ ↦ Unnoticed slot start old sel := by
  have hstable : Stable (ProvRely slot start) (Rescuing slot start old sel config) :=
    fun t t' hstep ht ↦ ht.stable hne hold hstep
  refine provPart_read (.reg mmioQueueSel) hstable fun s1 _ hs1 ↦ ?_
  have hsel : cell slot (.reg mmioQueueSel) s1.memory = sel := hs1.unnoticed.sel_eq
  rw [hsel]
  by_cases hnum : config.headD 0 ≠ 0
  · rw [if_pos ⟨rfl, hnum⟩]
    have hstable' := hstable.and (stable_shadowConfig config hold)
    refine ProvPart.of_imp ?_ fun t ht ↦ ht.1
    refine (provPart_commit hold hstable (fun t ht ↦ ht.unready) (fun t ht ↦ ht.config_eq)
      fun field hfield value t ht ↦ ht.storeField hold hfield).bind fun _ ↦ ?_
    refine provPart_read (.shadow old shadowQOffDeviceHi) hstable' fun s2 _ _ ↦ ?_
    refine ProvPart.of_imp (ProvPart.bind (provPart_store hstable' fun t hinv ht ↦ ?_) fun _ ↦
      provPart_spared (Unnoticed slot start old sel) (stable_unnoticed hne)
        touches_incStat spares_noStores) fun t ht ↦ ht.1
    have hoffered : (old, shadowConfig slot old t.memory) ∈
        (setupLog slot start t.trace).offers := by
      rw [ht.2]
      exact ht.1.offered hnum
    exact ⟨hinv.storeShadow (valid_shadowReady hold) (hinv.provenance.storeReady 1 hold hoffered),
      ht.1.unnoticed.access (touches_shadow slot 1 (valid_shadowReady hold))⟩
  · rw [if_neg fun hboth ↦ hnum hboth.2]
    exact fun s hs ↦ ⟨hs.1, hs.2.1.unnoticed⟩

theorem provPart_rescueOldSel : ProvPart slot start drive
      (fun t ↦ Unnoticed slot start old sel t ∧
        Rescuable slot old (setupLog slot start t.trace) t.memory)
      (rescueOldSel slot old sel) fun _ ↦ Unnoticed slot start old sel := by
  have hstable : Stable (ProvRely slot start) fun t ↦ Unnoticed slot start old sel t ∧
      Rescuable slot old (setupLog slot start t.trace) t.memory := by
    intro t t' hstep ht
    obtain ⟨hunnoticed, hkept⟩ := ht.1.stable hne hstep
    exact ⟨hunnoticed, ht.2.stable hkept hstep⟩
  unfold rescueOldSel
  split_ifs with hold
  · refine provPart_read (.shadow old shadowQOffReady) hstable fun s1 _ hs1 ↦ ?_
    split_ifs with hready
    · have hresc : ∀ t, (Unnoticed slot start old sel t ∧ Rescuable slot old
          (setupLog slot start t.trace) t.memory) ∧ ProvRely slot start s1 t →
          Rescuing slot start old sel (regConfig slot s1.memory) t := by
        intro t ht
        have hkept := (hs1.1.stable hne ht.2).2
        have hunready : shadowReady slot old t.memory = 0 :=
          (hkept.shadowReady_eq hold).trans hready
        refine ⟨ht.1.1, hunready, hkept.config, fun hnum ↦ ?_⟩
        have hrescue := ht.1.2 hold hunready
        rw [hkept.config] at hrescue
        exact hrescue hnum
      have hsteps : Stable (ProvRely slot start) (Rescuing slot start old sel
        (regConfig slot s1.memory)) := fun t t' hstep ht ↦ ht.stable hne hold hstep
      refine ProvPart.of_imp ((provPart_capture hsteps fun t ht ↦ ht.config_eq).bind ?_) hresc
      intro values s hs
      obtain ⟨hinv, rfl, hs⟩ := hs
      exact provPart_rescueCopy hne hold s ⟨hinv, hs⟩
    · exact fun s hs ↦ ⟨hs.1, hs.2.1.1⟩
  · exact fun s hs ↦ ⟨hs.1, hs.2.1⟩

/-- The handler plants the size of the queue selected. -/
theorem provPart_storeNum {value : ℕ} : ProvPart slot start drive (Unnoticed slot start old sel)
      (storeU32 (regAddr slot mmioQueueNum) value) fun _ ↦ Unnoticed slot start old sel := by
  refine provPart_store (stable_unnoticed hne) fun t hinv ht ↦ ?_
  have htouches := touches_cell slot (.reg mmioQueueNum) value
  have hkept := htouches.kept t.memory
  have hlog := setupLog_brisc slot start (.l1Store (regAddr slot mmioQueueNum) 4 value) t
  constructor
  · exact hinv.touches htouches
  · exact ⟨(hkept.eq (.snap snapOffQueueSel)).trans ht.snap_eq,
      (hkept.eq (.reg mmioQueueSel)).trans ht.sel_eq, (congrArg SetupLog.stage hlog).trans ht.stage,
      fun hsel ↦ (hkept.eq (.reg mmioQueueReady)).trans (ht.ready hsel)⟩

theorem provPart_handleQueueSelChange : ProvPart slot start drive
      (fun t ↦ (selSnap slot t.memory = old ∧ selWord slot t.memory = sel) ∧
        OrderlyAt slot start t)
      (handleQueueSelChange slot old sel) fun _ ↦ Unnoticed slot start old sel := by
  have hunnoticed : Stable (ProvRely slot start) (Unnoticed slot start old sel) :=
    stable_unnoticed hne
  have hcount : ∀ offset, offset + 4 ≤ statsSize → ProvPart slot start drive
    (Unnoticed slot start old sel) (incStat offset) fun _ ↦ Unnoticed slot start old sel :=
    fun offset hoffset ↦ provPart_spared _ hunnoticed (touches_incStat hoffset) spares_noStores
  unfold handleQueueSelChange
  by_cases hsel : sel < maxQueuesPerSlot
  · rw [if_pos hsel]
    have hselected : Stable (ProvRely slot start) fun t ↦ (selSnap slot t.memory = old ∧
      selWord slot t.memory = sel) ∧ OrderlyAt slot start t := fun t t' hstep ht ↦
      ⟨⟨hstep.snap.trans ht.1.1, hstep.sel.trans ht.1.2⟩, hstep.orderly ht.2⟩
    refine provPart_read (.reg mmioQueueReady) hselected fun s1 _ _ ↦ ?_
    refine ProvPart.of_imp ?_ fun t ht ↦ ht.1
    refine ProvPart.bind (provPart_store hselected fun t hinv ht ↦ ?_) fun _ ↦
      (provPart_rescueOldSel hne).bind fun _ ↦ ?_
    · -- the registers are still those of the queue selected before
      have htouches := touches_clearReady slot
      have hkept := setupKept_clear htouches t.memory
      have horderly := ht.2.kept hkept
      have hsnap := hkept.snap.trans ht.1.1
      have hword := hkept.sel.trans ht.1.2
      obtain ⟨hstage, hrescue⟩ := horderly.unnoticed (by rw [hsnap, hword]; exact hne)
      rw [hsnap] at hrescue
      have hlog := setupLog_brisc slot start (.l1Store (regAddr slot mmioQueueReady) 4 0) t
      refine ⟨hinv.touches htouches, ⟨hsnap, hword, (congrArg SetupLog.stage hlog).trans hstage,
        fun _ ↦ ?_⟩, ?_⟩
      · exact cell_store_self slot (.reg mmioQueueReady) 0 t.memory
      · exact hrescue
    refine provPart_read (.shadow sel shadowQOffNum) hunnoticed fun s2 _ _ ↦ ?_
    refine ProvPart.of_imp ?_ fun t ht ↦ ht.1
    refine (provPart_spared _ hunnoticed
      (always_storeU32 (touches_cell slot (.reg mmioQueueNumMax) _)) spares_register).bind
        fun _ ↦ ?_
    refine (provPart_storeNum hne).bind fun _ ↦ ?_
    refine ProvPart.bind ?_ fun _ ↦ hcount _ (by decide)
    unfold Program.onlyIf
    split_ifs
    · exact hcount _ (by decide)
    · exact fun s hs ↦ hs
  · rw [if_neg hsel]
    intro s hs
    have hstage := (Orderly.unnoticed hs.2.2 (by rw [hs.2.1.1, hs.2.1.2]; exact hne)).1
    exact ⟨hs.1, hs.2.1.1, hs.2.1.2, hstage, fun hlt ↦ absurd hlt hsel⟩

end

/-- BRISC has noticed the queue selected. -/
structure NoticedAt (slot : ℕ) (start : SetupLog) (sel : ℕ) (t : SlotScene) : Prop where
  sel_eq : selWord slot t.memory = sel
  snap_eq : selSnap slot t.memory = sel
  orderly : OrderlyAt slot start t

theorem NoticedAt.stable (h : NoticedAt slot start sel s) (hstep : ProvRely slot start s s') :
    NoticedAt slot start sel s' :=
  ⟨hstep.sel.trans h.sel_eq, hstep.snap.trans h.snap_eq, hstep.orderly h.orderly⟩

/-- The snapshot that ends the handling of a change of QUEUE_SEL. -/
theorem Unnoticed.storeSnap (h : Unnoticed slot start old sel t) :
    NoticedAt slot start sel (accessed .brisc
      (.l1Store (snapAddr slot snapOffQueueSel) 4 sel) t) := by
  have hword : sel < 2 ^ 32 := by
    rw [← h.sel_eq]
    exact cell_lt _ _
  have hstored := cell_store_self slot (.snap snapOffQueueSel) sel t.memory
  rw [Nat.mod_eq_of_lt hword] at hstored
  have hkept := (touches_cell slot (.snap snapOffQueueSel) sel).kept t.memory
  have hsel := (hkept.eq (.reg mmioQueueSel)).trans h.sel_eq
  have hlog := setupLog_brisc slot start (.l1Store (snapAddr slot snapOffQueueSel) 4 sel) t
  have hstage : (setupLog slot start t.trace).stage = .filling [] := h.stage
  refine ⟨hsel, hstored, ?_⟩
  unfold OrderlyAt Orderly
  rw [hlog, hstage]
  refine ⟨fun _ ↦ ⟨fun hlt ↦ ?_, rfl⟩, fun hnew ↦ absurd (hstored.trans hsel.symm) hnew⟩
  refine (hkept.eq (.reg mmioQueueReady)).trans (h.ready ?_)
  exact hsel ▸ hlt

theorem provPart_pollQueueSel :
    ProvPart slot start drive (OrderlyAt slot start) (pollQueueSel slot)
      (NoticedAt slot start) := by
  refine provPart_read (.reg mmioQueueSel) (fun t t' hstep ↦ hstep.orderly) fun s1 _ _ ↦ ?_
  refine provPart_read (.snap snapOffQueueSel)
    (fun t t' hstep ht ↦ ⟨hstep.orderly ht.1, ht.2.trans hstep⟩) fun s2 _ hs2 ↦ ?_
  have hsel : ∀ t, ProvRely slot start s2 t → selWord slot t.memory = cell slot
    (.reg mmioQueueSel) s1.memory := fun t hstep ↦ hstep.sel.trans hs2.2.sel
  unfold Program.onlyIf
  split_ifs with hchanged
  · refine ProvPart.of_imp (ProvPart.bind ((provPart_handleQueueSelChange hchanged.symm).bind
      fun _ ↦ provPart_store ?_ fun t hinv ht ↦ ?_) fun _ ↦ fun s hs ↦ hs) ?_
    · exact stable_unnoticed hchanged.symm
    · exact ⟨hinv.touches (touches_cell slot (.snap snapOffQueueSel) _), ht.storeSnap⟩
    · exact fun t ht ↦ ⟨⟨ht.2.snap, hsel t ht.2⟩, ht.1.1⟩
  · intro s hs
    refine ⟨hs.1, hsel s hs.2.2, ?_, hs.2.1.1⟩
    exact hs.2.2.snap.trans (not_not.mp hchanged).symm

/-! ### The READY handler -/

/-- The registers hold an offer for the queue selected. -/
structure Offering (slot : ℕ) (start : SetupLog) (sel : ℕ) (config : List ℕ) (since : ℕ)
    (t : SlotScene) : Prop where
  sel_eq : selWord slot t.memory = sel
  snap_eq : selSnap slot t.memory = sel
  stage : setupStage slot start t = .offered config since
  config_eq : regConfig slot t.memory = config
  offered : (sel, config) ∈ (setupLog slot start t.trace).offers

theorem Offering.stable (h : Offering slot start sel config since s)
    (hstep : ProvRely slot start s s') : Offering slot start sel config since s' := by
  obtain ⟨hstage, hkept⟩ := hstep.still (.inr ⟨config, since, h.stage⟩)
  exact ⟨hstep.sel.trans h.sel_eq, hstep.snap.trans h.snap_eq, hstage.trans h.stage,
    hkept.config.trans h.config_eq, hstep.offers _ h.offered⟩

theorem Offering.access (h : Offering slot start sel config since t)
    (htouches : Touches slot (shadowStores queue) op) :
    Offering slot start sel config since (accessed .brisc op t) := by
  have hkept := htouches.kept t.memory
  have hlog := setupLog_brisc slot start op t
  refine ⟨(hkept.eq _).trans h.sel_eq, (hkept.eq _).trans h.snap_eq, (congrArg SetupLog.stage
    hlog).trans h.stage, (hkept.regConfig_eq fun _ _ _ ↦ rfl).trans h.config_eq, ?_⟩
  exact h.offered

/-- A nonzero QUEUE_READY is an offer for a queue that is not ready. -/
theorem NoticedAt.offering (h : NoticedAt slot start sel t) (hsel : sel < maxQueuesPerSlot)
    (hready : readyWord slot t.memory ≠ 0) :
    ∃ config since, Offering slot start sel config since t ∧ shadowReady slot sel t.memory = 0 := by
  have horderly := h.orderly
  unfold OrderlyAt Orderly at horderly
  cases hstage : (setupLog slot start t.trace).stage with
  | fresh =>
    rw [hstage] at horderly
    exact absurd horderly.2.2 hready
  | filling values =>
    rw [hstage] at horderly
    obtain ⟨hzero, -⟩ := horderly.1 (h.snap_eq.trans h.sel_eq.symm)
    exact absurd (hzero (h.sel_eq.symm ▸ hsel)) hready
  | offered config since =>
    rw [hstage] at horderly
    obtain ⟨-, hconfig, hoffered, hunready⟩ := horderly
    rw [h.sel_eq] at hoffered hunready
    exact ⟨config, since, ⟨h.sel_eq, h.snap_eq, hstage, hconfig, hoffered⟩, hunready hready hsel⟩

theorem provPart_captureReady (hsel : sel < maxQueuesPerSlot) :
    ProvPart slot start drive
      (fun t ↦ Offering slot start sel config since t ∧ shadowReady slot sel t.memory = 0)
      (captureReady slot sel)
      fun _ t ↦ Offering slot start sel config since t ∧
        shadowConfig slot sel t.memory = config := by
  have hoffering : Stable (ProvRely slot start) (Offering slot start sel config since) :=
    fun t t' hstep ht ↦ ht.stable hstep
  have hunready := hoffering.and (stable_unready hsel)
  have hcopied := hoffering.and (stable_shadowConfig config hsel)
  refine (provPart_capture hunready fun t ht ↦ ht.1.config_eq).bind fun values s hs ↦ ?_
  obtain ⟨hinv, rfl, hs⟩ := hs
  refine provPart_read (.reg mmioQueueSel) hunready (fun s1 _ hs1 ↦ ?_) s ⟨hinv, hs⟩
  have hword : cell slot (.reg mmioQueueSel) s1.memory = sel := hs1.1.sel_eq
  rw [hword, if_pos rfl]
  refine ProvPart.of_imp ?_ fun t ht ↦ ht.1
  refine (provPart_commit hsel hunready (fun t ht ↦ ht.2) (fun t ht ↦ ht.1.config_eq)
    fun field hfield value t ht ↦ ?_).bind fun _ ↦ ?_
  · exact ⟨ht.1.access (touches_shadow slot value (valid_shadowField hsel hfield)),
      (shadowReady_storeField hsel hfield value t.memory).trans ht.2⟩
  refine ProvPart.of_imp ?_ fun t ht ↦ (⟨ht.1.1, ht.2⟩ : Offering slot start sel values since t ∧
    shadowConfig slot sel t.memory = values)
  have hcount : (do
      let _ ← readU32 (shadowQueueAddr slot sel shadowQOffDeviceHi)
      incStat statsOffQueueSetups : Prog Unit).Performs (Touches slot noStores) :=
    touches_readU32.bind fun _ _ ↦ touches_incStat
  exact provPart_spared _ hcopied hcount spares_noStores

theorem provPart_handleQueueReadyChange {ready : ℕ} (hsel : sel < maxQueuesPerSlot)
    (hready : ready ≠ 0) :
    ProvPart slot start drive
      (fun t ↦ Offering slot start sel config since t ∧ shadowReady slot sel t.memory = 0)
      (handleQueueReadyChange slot sel ready)
      fun _ ↦ Offering slot start sel config since := by
  unfold handleQueueReadyChange Program.onlyIf
  rw [if_pos hsel, if_pos hready, if_neg hready]
  refine (provPart_captureReady hsel).bind fun _ ↦ ?_
  have hoffering : Stable (ProvRely slot start) (Offering slot start sel config since) :=
    fun t t' hstep ht ↦ ht.stable hstep
  refine ProvPart.bind (provPart_store (hoffering.and (stable_shadowConfig _ hsel))
    fun t hinv ht ↦ ?_) fun _ ↦ provPart_spared (Offering slot start sel config since) hoffering
      touches_incStat spares_noStores
  · have hoffered : (sel, shadowConfig slot sel t.memory) ∈
        (setupLog slot start t.trace).offers := by
      rw [ht.2]
      exact ht.1.offered
    exact ⟨hinv.storeShadow (valid_shadowReady hsel) (hinv.provenance.storeReady ready hsel
      hoffered), ht.1.access (touches_shadow slot ready (valid_shadowReady hsel))⟩

theorem Offering.answer (h : Offering slot start sel config since t) :
    OrderlyAt slot start (accessed .brisc (.l1Store (regAddr slot mmioQueueReady) 4 0) t) := by
  have hkept := setupKept_clear (touches_clearReady slot) t.memory
  have hready := cell_store_self slot (.reg mmioQueueReady) 0 t.memory
  have hstage : (setupLog slot start t.trace).stage = .offered config since := h.stage
  have hsel := hkept.sel.trans h.sel_eq
  unfold OrderlyAt Orderly
  rw [setupLog_brisc, hstage]
  refine ⟨(hkept.snap.trans h.snap_eq).trans hsel.symm, hkept.config.trans h.config_eq, ?_,
    fun hne ↦ absurd hready hne⟩
  rw [hsel]
  exact h.offered

theorem provPart_pollQueueReady (sel : ℕ) :
    ProvPart slot start drive (NoticedAt slot start sel) (pollQueueReady slot sel)
      fun _ ↦ OrderlyAt slot start := by
  have htouches := touches_clearReady slot
  have hclear : ∀ t, ProvInv slot start t → ProvInv slot start (accessed .brisc (.l1Store
    (regAddr slot mmioQueueReady) 4 0) t) := fun t hinv ↦ hinv.touches htouches
  refine provPart_read (.reg mmioQueueReady) (fun t t' hstep ht ↦ ht.stable hstep)
    fun s1 _ hs1 ↦ ?_
  split_ifs with hready
  · by_cases hsel : sel < maxQueuesPerSlot
    · obtain ⟨config, since, hoffering, hunready⟩ := hs1.offering hsel hready
      refine ProvPart.of_imp ((provPart_handleQueueReadyChange hsel hready).bind fun _ ↦
        provPart_store (fun t t' hstep ht ↦ ht.stable hstep) fun t hinv ht ↦
          ⟨hclear t hinv, ht.answer⟩) fun t ht ↦ ⟨hoffering.stable ht.2, ?_⟩
      exact (ht.2.shadow sel _ (valid_shadowReady hsel)).trans hunready
    · -- a selector out of range is not captured
      unfold handleQueueReadyChange
      rw [if_neg hsel]
      refine ProvPart.of_imp (provPart_store (fun t t' hstep ht ↦ hstep.orderly ht)
        fun t hinv ht ↦ ⟨hclear t hinv, ?_⟩) fun t ht ↦ ht.1.orderly
      unfold OrderlyAt
      exact Orderly.kept ht (setupKept_clear htouches t.memory)
  · exact fun s hs ↦ ⟨hs.1, hs.2.1.orderly⟩

theorem resetless_provenance :
    Resetless slot fun t t' ↦ ProvRely slot start t t' ∧ ProvInv slot start t' :=
  fun _ _ hstep ↦ ⟨hstep.1.statusSnap_eq, hstep.1.status⟩

theorem provPart_pollStatus :
    ProvPart slot start drive (OrderlyAt slot start) (pollStatus slot)
      fun _ ↦ OrderlyAt slot start := by
  intro s hs
  have hop : ∀ op t, Touches slot statusStores op → ((setupLog slot start t.trace).queue = selWord
      slot t.memory ∧ Provenance slot (setupLog slot start t.trace) t.memory) ∧ OrderlyAt slot start
      t → ((setupLog slot start (accessed .brisc op t).trace).queue = selWord slot (accessed .brisc
      op t).memory ∧ Provenance slot (setupLog slot start (accessed .brisc op t).trace) (accessed
      .brisc op t).memory) ∧ OrderlyAt slot start (accessed .brisc op t) := by
    intro op t htouches ht
    have hkept := (htouches.kept t.memory).setupKept spares_statusStores
    exact ⟨⟨ht.1.1.trans hkept.sel.symm, ht.1.2.kept hkept.shadow fun _ hoffer ↦ hoffer⟩,
      Orderly.kept ht.2 hkept⟩
  refine (resetless_provenance.pollStatus (fun t ↦ ((setupLog slot start t.trace).queue =
    selWord slot t.memory ∧ Provenance slot (setupLog slot start t.trace) t.memory) ∧
    OrderlyAt slot start t) (fun t t' hstep ht ↦ ⟨⟨hstep.2.queue_eq, hstep.2.provenance⟩,
    hstep.1.orderly ht.2⟩) hop hs.1.live ⟨⟨hs.1.queue_eq, hs.1.provenance⟩, hs.2⟩).imp ?_ ?_
  · intro op t ht
    obtain ⟨⟨hqueue, hprovenance⟩, -⟩ := hop op t ht.1 ht.2.2
    exact ⟨ht.2.1, hqueue, hprovenance⟩
  · intro _ t ht
    exact ⟨⟨ht.1, ht.2.1.1, ht.2.1.2⟩, ht.2.2⟩

theorem provPart_pollOneDevice (hslot : slot < numSlots) :
    ProvPart slot start drive (OrderlyAt slot start) (pollOneDevice slot)
      fun _ ↦ OrderlyAt slot start := by
  have horderly : Stable (ProvRely slot start) (OrderlyAt slot start) :=
    fun t t' hstep ↦ hstep.orderly
  refine provPart_pollStatus.bind fun _ ↦ provPart_pollQueueSel.bind fun sel ↦
    (provPart_pollQueueReady sel).bind fun _ ↦ ?_
  refine (provPart_spared _ horderly (touches_pollQueueNotify hslot)
    spares_register).bind fun _ ↦ ?_
  exact provPart_spared _ horderly touches_pollRest spares_restStores

end Brisc

/-! ### The guest -/

/-- When a guest that keeps to the order may store: it selects a queue between two polls, and the
one selected already only when no offer is open; it fills the registers and offers once BRISC has
noticed the queue; and it offers nothing for a queue that is ready. -/
def Courteous (slot : ℕ) {D : Type} (c : SlotConfig D) : Op → Prop
  | .l1Store addr _ value =>
    (addr = regAddr slot mmioQueueSel → Cores.Resting .brisc c ∧
      (value % 2 ^ 32 = selWord slot c.scene.memory → readyWord slot c.scene.memory = 0)) ∧
    (addr ∈ (mmioQueueReady :: setupRegisters).map (regAddr slot) →
      selSnap slot c.scene.memory = selWord slot c.scene.memory) ∧
    (addr = regAddr slot mmioQueueReady → selWord slot c.scene.memory < maxQueuesPerSlot →
      shadowReady slot (selWord slot c.scene.memory) c.scene.memory = 0)
  | _ => True

instance (slot : ℕ) {D : Type} (c : SlotConfig D) : (op : Op) → Decidable (Courteous slot c op)
  | .l1Store _ _ _ => inferInstanceAs (Decidable (_ ∧ _))
  | .l1Load _ _ | .ringLoad _ _ _ _ | .ringStore _ _ _ _ _ | .plicStore _ _ | .getProcessed _ _ |
    .setProcessed _ _ _ | .enter _ _ _ _ | .leave _ _ _ | .device _ _ _ => .isTrue trivial

/-- The turns around a courteous guest that keeps to the order. -/
def Considerate (slot : ℕ) (start : SetupLog) {D : Type} (c : SlotConfig D) :
    Turn SlotCore ByteStore → Prop
  | .core .driver => ∀ op ∈ (c.rest .driver).nextOp,
      InOrder slot (setupLog slot start c.scene.trace) op ∧ Courteous slot c op
  | .core _ => True
  | .act event => Outsider slot event

instance (slot : ℕ) (start : SetupLog) {D : Type} (c : SlotConfig D) :
    (turn : Turn SlotCore ByteStore) → Decidable (Considerate slot start c turn)
  | .core .driver => inferInstanceAs (Decidable (∀ op ∈ (c.rest .driver).nextOp, _ ∧ _))
  | .core .brisc | .core .trisc1 | .core .trisc2 => .isTrue trivial
  | .act event => inferInstanceAs (Decidable (Outsider slot event))

section Guest

variable (h : ProvInv slot start s)
include h

theorem ProvInv.driver (hvalid : (Cell.reg offset).Valid)
    (hstatus : offset = mmioStatus → value % 2 ^ 32 ≠ 0)
    (hqueue : ((setupLog slot start s.trace).store (Cores.passes .brisc s.trace) offset
      value).queue = selWord slot (guestStored slot offset value s).memory)
    (hoffers : ∀ offer ∈ (setupLog slot start s.trace).offers, offer ∈
      ((setupLog slot start s.trace).store (Cores.passes .brisc s.trace) offset value).offers) :
    ProvInv slot start (guestStored slot offset value s) := by
  have hkept := driver_kept slot value hvalid s
  have hlog := setupLog_store slot start offset 4 value s
  constructor
  · exact driver_live slot hvalid hstatus h.live
  · rw [hlog]
    exact hqueue
  · rw [hlog]
    exact h.provenance.kept (fun queue word hword ↦ hkept _ hword fun _ ↦
      decide_eq_false nofun) hoffers

theorem ProvInv.storeOther (hvalid : (reg offset).Valid) (hother : offset ∉ queueRegisters)
    (hstatus : offset = mmioStatus → value % 2 ^ 32 ≠ 0) :
    ProvInv slot start (guestStored slot offset value s) ∧
      ProvRely slot start s (guestStored slot offset value s) := by
  have hkept := (driver_kept slot value hvalid s).setupKept (spares_register hother)
  have hstore := SetupLog.store_of_notMem (Cores.passes .brisc s.trace)
    (setupLog slot start s.trace) value hother
  constructor
  · refine h.driver hvalid hstatus ?_ ?_
    · rw [hstore]
      exact h.queue_eq.trans hkept.sel.symm
    · rw [hstore]
      exact fun _ hoffer ↦ hoffer
  · exact .of_kept hkept (driver_statusSnap slot value hvalid s) (driver_status slot hvalid hstatus
      s) ((setupLog_store slot start offset 4 value s).trans hstore)

/-- A guest store to a setup register or QUEUE_READY, once BRISC has noticed the queue. -/
theorem ProvInv.storeSetup (hsetup : offset ∈ mmioQueueReady :: setupRegisters)
    (hnoticed : selSnap slot s.memory = selWord slot s.memory)
    (hfilling : (setupLog slot start s.trace).stage = .filling values)
    (hlog : (setupLog slot start s.trace).store (Cores.passes .brisc s.trace) offset value = log)
    (hqueue : log.queue = (setupLog slot start s.trace).queue)
    (hoffers : ∀ offer ∈ (setupLog slot start s.trace).offers, offer ∈ log.offers)
    (horderly : Orderly slot (setupLog slot start s.trace) s.memory →
      Orderly slot log (guestStored slot offset value s).memory) :
    ProvInv slot start (guestStored slot offset value s) ∧
      ProvRely slot start s (guestStored slot offset value s) := by
  have hregister : ∀ offset ∈ mmioQueueReady :: setupRegisters, (Cell.reg offset).Valid ∧
      offset ≠ mmioQueueSel ∧ offset ≠ mmioStatus := by decide
  obtain ⟨hvalid, hsel, hstatus⟩ := hregister offset hsetup
  have hkept := driver_kept slot value hvalid s
  have hsel' : selWord slot (guestStored slot offset value s).memory = selWord slot s.memory := by
    refine hkept (.reg mmioQueueSel) (by decide) fun _ ↦ decide_eq_false fun heq ↦ ?_
    exact hsel (Cell.reg.inj heq).symm
  have hlog' := (setupLog_store slot start offset 4 value s).trans hlog
  constructor
  · refine h.driver hvalid (fun heq ↦ absurd heq hstatus) ?_ ?_
    · rw [hlog, hqueue, hsel']
      exact h.queue_eq
    · rw [hlog]
      exact hoffers
  · refine ⟨driver_statusSnap slot value hvalid s,
      driver_status slot hvalid (fun heq ↦ absurd heq hstatus) s, hsel', ?_, ?_, ?_, ?_, ?_⟩
    · exact hkept (.snap snapOffQueueSel) (by decide) fun _ ↦ decide_eq_false nofun
    · exact fun queue word hword ↦ hkept _ hword fun _ ↦ decide_eq_false nofun
    · rw [hlog']
      exact hoffers
    · rintro (hnew | ⟨config, since, hoffered⟩)
      · exact absurd hnoticed hnew
      · exact nomatch (hfilling.symm.trans hoffered)
    · rw [hlog']
      exact horderly

theorem ProvInv.storeField (hnoticed : selSnap slot s.memory = selWord slot s.memory)
    (hfilling : (setupLog slot start s.trace).stage = .filling values)
    (hfield : setupRegisters[values.length]? = some offset) :
    ProvInv slot start (guestStored slot offset value s) ∧
      ProvRely slot start s (guestStored slot offset value s) := by
  have hmem := mem_of_getElem? hfield
  refine h.storeSetup (mem_cons_of_mem _ hmem) hnoticed hfilling
    (SetupLog.store_field _ value hfilling hfield) rfl (fun _ hoffer ↦ hoffer) fun horderly ↦ ?_
  have hregister : ∀ offset ∈ setupRegisters, (reg offset).Valid ∧
      .reg mmioQueueSel ≠ reg offset ∧ .reg mmioQueueReady ≠ reg offset := by decide
  obtain ⟨hvalid, hsel, hready⟩ := hregister offset hmem
  have hkept := driver_kept slot value hvalid s
  have hsel' : selWord slot (guestStored slot offset value s).memory =
      selWord slot s.memory := hkept _ (by decide) fun _ ↦ decide_eq_false hsel
  have hsnap' : selSnap slot (guestStored slot offset value s).memory =
      selSnap slot s.memory := hkept.eq _
  unfold Orderly at *
  rw [hfilling] at horderly
  simp only [hsel', hsnap']
  refine ⟨fun _ ↦ ⟨fun hlt ↦ ?_, ?_⟩, fun hnew ↦ absurd hnoticed hnew⟩
  · exact (hkept _ (by decide) fun _ ↦ decide_eq_false hready).trans ((horderly.1 hnoticed).1 hlt)
  · rw [length_append, length_singleton, take_regConfig_store hfield,
      (horderly.1 hnoticed).2]

theorem ProvInv.storeReady (hnoticed : selSnap slot s.memory = selWord slot s.memory)
    (hfilling : (setupLog slot start s.trace).stage = .filling values)
    (hlen : values.length = queueFields.length)
    (hunready : selWord slot s.memory < maxQueuesPerSlot →
      shadowReady slot (selWord slot s.memory) s.memory = 0) :
    ProvInv slot start (guestStored slot mmioQueueReady 1 s) ∧
      ProvRely slot start s (guestStored slot mmioQueueReady 1 s) := by
  refine h.storeSetup mem_cons_self hnoticed hfilling (SetupLog.store_ready _ 1 hfilling
    hlen) rfl (fun _ hoffer ↦ mem_cons_of_mem _ hoffer) fun horderly ↦ ?_
  have hkept := driver_kept slot 1 (by decide : (reg mmioQueueReady).Valid) s
  have hsel' : selWord slot (guestStored slot mmioQueueReady 1 s).memory =
      selWord slot s.memory := hkept.eq _
  have hsnap' : selSnap slot (guestStored slot mmioQueueReady 1 s).memory =
      selSnap slot s.memory := hkept.eq _
  have hsetup : ∀ offset ∈ setupRegisters, reg offset ≠ .reg mmioQueueReady := by decide
  have hconfig := hkept.regConfig_eq fun offset hoffset _ ↦ decide_eq_false (hsetup offset hoffset)
  unfold Orderly at *
  rw [hfilling] at horderly
  simp only [hsel', hsnap']
  refine ⟨hnoticed, hconfig.trans ?_, ?_, fun _ hlt ↦ ?_⟩
  · rw [← (horderly.1 hnoticed).2, take_of_length_le]
    rw [length_regConfig, hlen]
  · rw [← h.queue_eq]
    exact mem_cons_self
  · exact (hkept.eq _ (valid_shadowReady hlt)).trans (hunready hlt)

theorem ProvInv.storeSel (value : ℕ)
    (hstage : ∀ values, (setupLog slot start s.trace).stage ≠ .filling values)
    (hagain : value % 2 ^ 32 = selWord slot s.memory → readyWord slot s.memory = 0)
    (horderly : OrderlyAt slot start s) :
    ProvInv slot start (guestStored slot mmioQueueSel value s) ∧
      OrderlyAt slot start (guestStored slot mmioQueueSel value s) := by
  have hstored := cell_store_self slot (.reg mmioQueueSel) value s.memory
  have hlog := (setupLog_store slot start mmioQueueSel 4 value s).trans
    (SetupLog.store_sel _ _ value)
  constructor
  · refine h.driver (by decide) (fun heq ↦ absurd heq (by decide)) ?_ ?_
    · exact hstored.symm
    · exact fun _ hoffer ↦ hoffer
  · have hkept := driver_kept slot value (by decide : (reg mmioQueueSel).Valid) s
    have hsnap' : selSnap slot (guestStored slot mmioQueueSel value s).memory =
        selSnap slot s.memory := hkept.eq _
    have hready' : readyWord slot (guestStored slot mmioQueueSel value s).memory =
        readyWord slot s.memory := hkept.eq _
    have hsetup : ∀ offset ∈ setupRegisters, reg offset ≠ .reg mmioQueueSel := by decide
    have hconfig' : regConfig slot (guestStored slot mmioQueueSel value s).memory = regConfig slot
      s.memory := hkept.regConfig_eq fun offset hoffset _ ↦ decide_eq_false (hsetup offset hoffset)
    -- between two setups the registers are empty or hold an offer for the queue that was selected
    have hbefore : selSnap slot s.memory = selWord slot s.memory ∧
        ((regConfig slot s.memory).headD 0 ≠ 0 → (selWord slot s.memory, regConfig slot s.memory) ∈
          (setupLog slot start s.trace).offers) := by
      unfold OrderlyAt Orderly at horderly
      cases hs : (setupLog slot start s.trace).stage with
      | fresh =>
        rw [hs] at horderly
        exact ⟨horderly.1, fun hnum ↦ absurd horderly.2.1 hnum⟩
      | filling values => exact absurd hs (hstage values)
      | offered config since =>
        rw [hs] at horderly
        refine ⟨horderly.1, fun _ ↦ ?_⟩
        rw [horderly.2.1]
        exact horderly.2.2.1
    unfold OrderlyAt Orderly
    rw [hlog]
    refine ⟨fun hnoticed ↦ ⟨fun _ ↦ hready'.trans (hagain ?_), rfl⟩,
      fun _ ↦ ⟨rfl, fun _ _ hnum ↦ ?_⟩⟩
    · exact (hstored.symm.trans hnoticed.symm).trans (hsnap'.trans hbefore.1)
    · rw [hconfig'] at hnum
      rw [hsnap', hconfig', hbefore.1]
      exact hbefore.2 hnum

end Guest

/-! ### The system -/

/-- The parts of the cores next to a courteous guest. -/
def provOutline (slot : ℕ) (start : SetupLog) {D : Type} (drive : D → Prog D) :
    Outline SlotCore Op ℕ ByteStore World (SlotCore.Private D) where
  inv := ProvInv slot start
  rely
    | .brisc => ProvRely slot start
    | _ => fun _ _ ↦ True
  guarantee
    | .brisc => fun op t ↦ ProvInv slot start ((slotCores slot drive).access .brisc op t).2
    | .trisc1 => fun op _ ↦ Touches slot watchSelStores op
    | .trisc2 => fun op _ ↦ Touches slot featureStores op
    | .driver => fun _ _ ↦ True
  between
    | .brisc => fun _ s ↦ OrderlyAt slot start s
    | _ => fun _ _ ↦ True

section System

variable {c : SlotConfig D}

theorem ProvRely.admissible (h : ProvRely slot start c.scene s') (core : SlotCore) :
    (provOutline slot start drive).Admissible c core s' := by
  refine .inl ?_
  cases core with
  | brisc => exact h
  | _ => trivial

theorem Considerate.step (h : Considerate slot start c (.core .driver)) {op : Op}
    {next : ℕ → Prog D} (hrest : c.rest .driver = .step op next)
    (hholds : (provOutline slot start drive).Holds (slotCores slot drive) c) :
    ProvInv slot start (accessed .driver op c.scene) ∧
      ∀ core, (provOutline slot start drive).Admissible c core (accessed .driver op c.scene) := by
  obtain ⟨horder, hcourteous⟩ := h op (by rw [hrest]; rfl)
  have hinv : ProvInv slot start c.scene := hholds.inv
  have hrely : ∀ {s' : SlotScene}, ProvInv slot start s' ∧ ProvRely slot start c.scene s' →
      ProvInv slot start s' ∧ ∀ core, (provOutline slot start drive).Admissible c core s' :=
    fun hstep ↦ ⟨hstep.1, hstep.2.admissible⟩
  cases op with
  | l1Load addr size =>
    refine hrely ⟨⟨hinv.live, hinv.queue_eq, hinv.provenance⟩, ?_⟩
    exact .of_kept ⟨rfl, rfl, rfl, .inl rfl, fun _ _ _ ↦ rfl⟩ rfl (.inl rfl) rfl
  | l1Store addr size value =>
    obtain ⟨rfl, offset, hoffset, haligned, rfl, hstep⟩ := horder
    by_cases hmem : offset ∈ queueRegisters
    · rw [if_pos hmem] at hstep
      obtain ⟨hselect, hnoticed, hunready⟩ := hcourteous
      have hnoticed' : offset ∈ mmioQueueReady :: setupRegisters → selSnap slot c.scene.memory =
        selWord slot c.scene.memory := fun hsetup ↦ hnoticed (mem_map_of_mem hsetup)
      -- selecting a queue ends a setup, so the guest is at no other store
      have hsel : offset = mmioQueueSel →
          (∀ values, (setupLog slot start c.scene.trace).stage ≠ .filling values) →
          ProvInv slot start (guestStored slot offset value c.scene) ∧
          ∀ core, (provOutline slot start drive).Admissible c core
            (guestStored slot offset value c.scene) := by
        rintro rfl hstage
        obtain ⟨hresting, hagain⟩ := hselect rfl
        obtain ⟨result, hdone⟩ := hresting.exists_done
        have horderly := hholds.at_rest .brisc
        rw [hdone] at horderly
        obtain ⟨hinv', hord'⟩ := hinv.storeSel value hstage hagain horderly
        refine ⟨hinv', fun core ↦ ?_⟩
        cases core with
        | brisc => exact .inr ⟨result, hdone, hord'⟩
        | _ => exact .inl trivial
      cases hstage : (setupLog slot start c.scene.trace).stage with
      | fresh =>
        rw [hstage] at hstep hsel
        exact hsel hstep fun _ ↦ SetupStage.noConfusion
      | offered config since =>
        rw [hstage] at hstep hsel
        exact hsel hstep fun _ ↦ SetupStage.noConfusion
      | filling values =>
        rw [hstage] at hstep
        rcases hstep with hfield | ⟨rfl, hlen, rfl⟩
        · exact hrely (hinv.storeField
            (hnoticed' (mem_cons_of_mem _ (mem_of_getElem? hfield))) hstage hfield)
        · exact hrely (hinv.storeReady (hnoticed' mem_cons_self) hstage hlen (hunready rfl))
    · rw [if_neg hmem] at hstep
      exact hrely (hinv.storeOther ⟨haligned, hoffset⟩ hmem hstep)
  | _ => exact absurd horder not_false

/-- What leaves the log alone and the cells of a setup, but for a cleared QUEUE_READY, suits
everybody. -/
theorem ProvInv.step (h : ProvInv slot start c.scene)
    (hkept : SetupKept slot c.scene.memory s'.memory)
    (hstatus : statusWord slot s'.memory = statusWord slot c.scene.memory)
    (hsnap : statusSnap slot s'.memory = statusSnap slot c.scene.memory)
    (hlog : setupLog slot start s'.trace = setupLog slot start c.scene.trace) :
    ProvInv slot start s' ∧ ∀ core, (provOutline slot start drive).Admissible c core s' := by
  refine ⟨⟨?_, ?_, ?_⟩, (ProvRely.of_kept hkept hsnap (.inl hstatus) hlog).admissible⟩
  · unfold Live
    rw [hstatus, hsnap]
    exact h.live
  · rw [hlog, hkept.sel]
    exact h.queue_eq
  · rw [hlog]
    exact h.provenance.kept hkept.shadow fun _ hoffer ↦ hoffer

theorem provOutline_sound (hslot : slot < numSlots) :
    (provOutline slot start drive).Sound (slotCores slot drive) (Considerate slot start) := by
  apply Outline.Sound.ofRely
  case hrefl =>
    intro core s
    cases core with
    | brisc => exact .refl slot start s
    | _ => trivial
  case htrans =>
    intro core s s' s'' h h'
    cases core with
    | brisc => exact ProvRely.trans h h'
    | _ => trivial
  case hstable =>
    intro core result s s' hstep h
    cases core with
    | brisc => exact hstep.orderly h
    | _ => trivial
  case hloop =>
    intro core result s hinv h
    have hinv' : ProvInv slot start (Cores.pass core s) :=
      ⟨hinv.live, hinv.queue_eq, hinv.provenance⟩
    refine ⟨hinv', ?_⟩
    cases core with
    | brisc => exact (provPart_pollOneDevice hslot _ ⟨hinv', h⟩).weaken fun _ _ ht ↦ ht.2
    | trisc1 => exact Ensures.ofAlways (touches_watchSel slot result) _
    | trisc2 => exact Ensures.ofAlways (touches_watchFeatures slot result) _
    | driver => exact ensures_true _ _
  case hpass =>
    intro core other s hother
    cases other with
    | brisc => exact .of_kept ⟨rfl, rfl, rfl, .inl rfl, fun _ _ _ ↦ rfl⟩ rfl (.inl rfl) rfl
    | _ => trivial
  case haccess =>
    intro c core op next hallowed hrest hguar h
    cases core with
    | brisc =>
      refine ⟨hguar, fun other hother ↦ .inl ?_⟩
      cases other with
      | brisc => exact absurd rfl hother
      | _ => trivial
    | trisc1 =>
      have hkept := Touches.kept hguar c.scene.memory
      have hlog := setupLog_other slot start (by decide : SlotCore.trisc1 ≠ .driver) op c.scene
      obtain ⟨hinv, hothers⟩ := ProvInv.step h.inv (setupKept_clear hguar c.scene.memory)
        hkept.status_eq hkept.snap_eq hlog
      exact ⟨hinv, fun other _ ↦ hothers other⟩
    | trisc2 =>
      have hkept := Touches.kept hguar c.scene.memory
      have hlog := setupLog_other slot start (by decide : SlotCore.trisc2 ≠ .driver) op c.scene
      obtain ⟨hinv, hothers⟩ := ProvInv.step h.inv (hkept.setupKept spares_register)
        hkept.status_eq hkept.snap_eq hlog
      exact ⟨hinv, fun other _ ↦ hothers other⟩
    | driver =>
      obtain ⟨hinv, hothers⟩ := hallowed.step hrest h
      exact ⟨hinv, fun other _ ↦ hothers other⟩
  case hact =>
    intro c event hallowed h
    have hkept := Outsider.kept drive hallowed c.scene
    exact ProvInv.step h.inv (hkept.setupKept spares_register) hkept.status_eq hkept.snap_eq rfl

/-- Where a run begins: BRISC is between two polls, no reset is pending, every shadow that says
ready holds an offer, and the registers are as they are between two setups. A slot that
`init_device` has just left is of this kind. -/
structure Prepared (slot : ℕ) (start : SetupLog) (c : SlotConfig D) : Prop where
  live : Live slot c.scene.memory
  queue_eq : (setupLog slot start c.scene.trace).queue = selWord slot c.scene.memory
  provenance : Provenance slot (setupLog slot start c.scene.trace) c.scene.memory
  orderly : Orderly slot (setupLog slot start c.scene.trace) c.scene.memory
  brisc : Cores.Resting .brisc c
  trisc1 : (c.rest .trisc1).Always (Touches slot watchSelStores) fun _ ↦ True
  trisc2 : (c.rest .trisc2).Always (Touches slot featureStores) fun _ ↦ True

/-- Every shadow that says ready holds a configuration that the guest wrote for its queue before it
stored to QUEUE_READY. Assumes: a slot of the engine; BRISC begins between two polls with the
registers as they are between two setups; the guest is any program that sets up queues in order, for
as many queues as it likes, does not reset the device, and is courteous in every state in which it
stores. -/
theorem shadow_provenance (hslot : slot < numSlots) (drive : D → Prog D) {c : SlotConfig D}
    (h : Prepared slot start c) {turns : List (Turn SlotCore ByteStore)}
    (hturns : (slotCores slot drive).Admits (Considerate slot start) c turns) {queue : ℕ}
    (hqueue : queue < maxQueuesPerSlot)
    (hready : shadowReady slot queue ((slotCores slot drive).follow c turns).scene.memory ≠ 0) :
    (queue, shadowConfig slot queue ((slotCores slot drive).follow c turns).scene.memory) ∈
      (setupLog slot start ((slotCores slot drive).follow c turns).scene.trace).offers := by
  have hstart : (provOutline slot start drive).Holds (slotCores slot drive) c := by
    refine ⟨⟨h.live, h.queue_eq, h.provenance⟩, fun core ↦ ?_⟩
    cases core with
    | brisc =>
      obtain ⟨result, hdone⟩ := h.brisc.exists_done
      rw [hdone]
      exact h.orderly
    | trisc1 => exact Ensures.ofAlways h.trisc1 _
    | trisc2 => exact Ensures.ofAlways h.trisc2 _
    | driver => exact ensures_true _ _
  exact ((provOutline_sound hslot).follow hstart hturns).inv.provenance queue hqueue hready

end System

/-- A guest that sets up both queues of its network device. -/
def bothQueues : SlotConfig (List (ℕ × ℕ)) :=
  betweenPasses (l1World []) 0 0
    ((mmioQueueSel, 0) :: smallQueue ++ (mmioQueueSel, 1) :: smallQueue)

/-- It lets BRISC capture the first queue, selects the second one between two polls and lets BRISC
notice that too. -/
def courteousTurns : List (Turn SlotCore ByteStore) :=
  replicate 18 (.core .driver) ++ replicate 40 (.core .brisc) ++
    replicate 2 (.core .driver) ++ replicate 22 (.core .brisc) ++
    replicate 16 (.core .driver) ++ replicate 35 (.core .brisc)

theorem shadow_provenance_courteous :
    (1, shadowConfig 1 1
        ((slotCores 1 (scripted 1)).follow bothQueues courteousTurns).scene.memory) ∈
      (setupLog 1 ⟨0, .fresh, []⟩
        ((slotCores 1 (scripted 1)).follow bothQueues courteousTurns).scene.trace).offers := by
  have hprovenance : Provenance 1 ⟨0, .fresh, []⟩ bothQueues.scene.memory := by
    unfold Provenance
    decide +kernel
  have horderly : selSnap 1 bothQueues.scene.memory = selWord 1 bothQueues.scene.memory ∧
      (regConfig 1 bothQueues.scene.memory).headD 0 = 0 ∧
      readyWord 1 bothQueues.scene.memory = 0 := by decide +kernel
  have hstart : Prepared 1 ⟨0, .fresh, []⟩ bothQueues :=
    ⟨by decide +kernel, by decide +kernel, hprovenance, horderly, rfl, trivial, trivial⟩
  have hturns : (slotCores 1 (scripted 1)).Admits (Considerate 1 ⟨0, .fresh, []⟩) bothQueues
      courteousTurns := by decide +kernel
  have hready : shadowReady 1 1
      ((slotCores 1 (scripted 1)).follow bothQueues courteousTurns).scene.memory ≠ 0 := by
    decide +kernel
  exact shadow_provenance (by decide) (scripted 1) hstart hturns (by decide) hready

/-- It selects the second queue while BRISC captures the first: BRISC gives up the copy and says
ready over an empty shadow. -/
theorem aborted_capture_ready :
    let start : SetupLog := ⟨0, .fresh, []⟩
    let final := (slotCores 1 (scripted 1)).follow bothQueues
      (replicate 18 (.core .driver) ++ replicate 8 (.core .brisc) ++
        replicate 2 (.core .driver) ++ replicate 60 (.core .brisc))
    shadowReady 1 0 final.scene.memory ≠ 0 ∧
      shadowConfig 1 0 final.scene.memory = [0, 0, 0, 0, 0, 0, 0] ∧
      (0, shadowConfig 1 0 final.scene.memory) ∉ (setupLog 1 start final.scene.trace).offers := by
  decide +kernel

end Bhx.Firmware
