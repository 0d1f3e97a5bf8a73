import Bhx.Firmware.SlotCores

/-!
# Setting up a queue

A guest sets up a queue by storing its index to QUEUE_SEL, the size and the three ring addresses to
seven more registers, and one to QUEUE_READY. How far it is, and which configurations it has offered
for which queues, can be told from the trace (`setupLog`). `InOrder` is a guest that keeps to this
order, for as many queues as it likes. In between it may load anything and store to any register
that has no part in a setup, but it does not reset the device.

BRISC copies a configuration in two loops. `ensures_capture` says what the first one returns when
the registers stay as they are, and `ensures_commit` what the second one leaves in the shadow.
-/

set_option autoImplicit false

namespace Bhx.Firmware

open SharedMemory Machine L1Layout List Cell

variable {offset : ℕ} {values : List ℕ} (polls : ℕ) {value : ℕ}
variable {field : ℕ × ℕ}

/-! ### Configurations -/

/-- The registers of a configuration, in the order in which the guest writes them. -/
def setupRegisters : List ℕ := queueFields.map Prod.fst

/-- The registers that have a part in a setup. -/
def queueRegisters : List ℕ := mmioQueueSel :: mmioQueueReady :: setupRegisters

theorem mem_queueRegisters (h : offset ∈ setupRegisters) : offset ∈ queueRegisters :=
  mem_cons_of_mem _ (mem_cons_of_mem _ h)

/-- The configuration in the registers. -/
def regConfig (slot : ℕ) (w : World) : List ℕ :=
  queueFields.map fun field ↦ cell slot (.reg field.1) w

/-- The configuration in the shadow of a queue. -/
def shadowConfig (slot queue : ℕ) (w : World) : List ℕ :=
  queueFields.map fun field ↦ cell slot (.shadow queue field.2) w

/-- The word of a queue's shadow that says whether the queue is ready. -/
def shadowReady (slot queue : ℕ) (w : World) : ℕ := cell slot (.shadow queue shadowQOffReady) w

/-! ### The cells of a setup -/

/-- The cells that a setup is about. -/
def tracks : Cell → Bool
  | .reg offset => offset ∈ queueRegisters
  | .shadow _ _ => true
  | .snap offset => offset = snapOffQueueSel

/-- Stores that spare them. -/
def Spares (stores : Cell → ℕ → Bool) : Prop := ∀ c, tracks c = true → Spared stores c

theorem spares_noStores : Spares noStores := fun _ _ _ ↦ rfl

theorem spares_statusStores : Spares statusStores := by
  intro c hc _
  refine decide_eq_false ?_
  rintro rfl
  exact absurd hc (by decide)

theorem spares_register {register : ℕ} (h : register ∉ queueRegisters := by decide) :
    Spares fun c _ ↦ c = .reg register := by
  intro c hc _
  refine decide_eq_false ?_
  rintro rfl
  have hmem : decide (register ∈ queueRegisters) = true := hc
  exact h (of_decide_eq_true hmem)

theorem spares_restStores : Spares restStores := by
  intro c hc value
  cases c with
  | reg offset =>
    refine decide_eq_false ?_
    rintro rfl
    exact absurd hc (by decide)
  | shadow other offset => rfl
  | snap offset =>
    obtain rfl : offset = snapOffQueueSel := of_decide_eq_true hc
    rfl

variable {slot queue : ℕ} {stores : Cell → ℕ → Bool} {w w' : World}

section Config

section

variable (h : CellsKept slot stores w w')
include h

section

variable (hspares : Spares stores)
include hspares

theorem CellsKept.sel_eq : selWord slot w' = selWord slot w :=
  h (.reg mmioQueueSel) (by decide) (hspares _ rfl)

theorem CellsKept.selSnap_eq : selSnap slot w' = selSnap slot w :=
  h (.snap snapOffQueueSel) (by decide) (hspares _ rfl)

theorem CellsKept.ready_eq : readyWord slot w' = readyWord slot w :=
  h (.reg mmioQueueReady) (by decide) (hspares _ rfl)

theorem CellsKept.shadow_eq (queue offset : ℕ) (hvalid : (shadow queue offset).Valid) :
    cell slot (.shadow queue offset) w' = cell slot (.shadow queue offset) w :=
  h _ hvalid (hspares _ rfl)

end

theorem CellsKept.regConfig_eq (hspared : ∀ offset ∈ setupRegisters, Spared stores (.reg offset)) :
    regConfig slot w' = regConfig slot w := by
  have hfields : ∀ field ∈ queueFields, (reg field.1).Valid ∧ field.1 ∈ setupRegisters := by
    decide
  refine map_congr_left fun field hfield ↦ ?_
  exact h _ (hfields field hfield).1 (hspared _ (hfields field hfield).2)

end

/-- A store to the setup register with number `k` leaves those before it alone. -/
theorem take_regConfig_store {k : ℕ} (hfield : setupRegisters[k]? = some offset) (value : ℕ)
    (w : World) :
    (regConfig slot (exec (.l1Store (regAddr slot offset) 4 value) w).2).take (k + 1) =
      (regConfig slot w).take k ++ [value % 2 ^ 32] := by
  have hvalid : ∀ offset ∈ setupRegisters, (reg offset).Valid := by decide
  have hbefore : ∀ k < setupRegisters.length, ∀ field ∈ queueFields.take k,
      some field.1 ≠ setupRegisters[k]? ∧ (reg field.1).Valid := by decide
  have hk : k < setupRegisters.length := (List.getElem?_eq_some_iff.mp hfield).1
  have hoffset := hvalid offset (List.mem_of_getElem? hfield)
  obtain ⟨field, hat, rfl⟩ : ∃ field, queueFields[k]? = some field ∧ field.1 = offset := by
    unfold setupRegisters at hfield
    rw [List.getElem?_map] at hfield
    exact Option.map_eq_some_iff.mp hfield
  rw [List.take_add_one]
  congr 1
  · unfold regConfig
    rw [← List.map_take, ← List.map_take]
    refine List.map_congr_left fun other hother ↦ ?_
    refine cell_store_of_ne (c := .reg field.1) hoffset (hbefore k hk other hother).2 ?_ value w
    intro heq
    exact (hbefore k hk other hother).1 (hfield ▸ congrArg some (reg.inj heq).symm)
  · unfold regConfig
    rw [List.getElem?_map, hat]
    exact congrArg (fun word ↦ [word]) (cell_store_self slot (.reg field.1) value w)

theorem CellsKept.config_eq (h : CellsKept slot stores w w') (hspares : Spares stores) :
    regConfig slot w' = regConfig slot w :=
  h.regConfig_eq fun _ hoffset ↦ hspares _ (decide_eq_true (mem_queueRegisters hoffset))

section

variable (hqueue : queue < maxQueuesPerSlot)
include hqueue

theorem valid_shadowField (hfield : field ∈ queueFields) : (shadow queue field.2).Valid := by
  have hfields : ∀ field ∈ queueFields, 4 ∣ field.2 ∧ field.2 < shadowPerQueue := by decide
  exact valid_shadow hqueue (hfields field hfield).1 (hfields field hfield).2

theorem valid_shadowReady : (shadow queue shadowQOffReady).Valid :=
  valid_shadow hqueue (by decide) (by decide)

theorem shadowConfig_eq (h : ∀ offset, (shadow queue offset).Valid →
      cell slot (.shadow queue offset) w' = cell slot (.shadow queue offset) w) :
    shadowConfig slot queue w' = shadowConfig slot queue w :=
  map_congr_left fun _ hfield ↦ h _ (valid_shadowField hqueue hfield)

/-- The word that says ready is no part of the configuration. -/
theorem shadowConfig_storeReady (value : ℕ) (w : World) : shadowConfig slot queue
        (exec (.l1Store (shadowQueueAddr slot queue shadowQOffReady) 4 value) w).2 =
      shadowConfig slot queue w := by
  have hfields : ∀ field ∈ queueFields, field.2 ≠ shadowQOffReady := by decide
  refine map_congr_left fun field hfield ↦ ?_
  refine cell_store_of_ne (c := .shadow queue shadowQOffReady) (valid_shadowReady hqueue)
    (valid_shadowField hqueue hfield) ?_ value w
  exact fun hcell ↦ hfields field hfield (shadow.inj hcell).2.symm

theorem shadowReady_storeField (hfield : field ∈ queueFields) (value : ℕ) (w : World) :
    shadowReady slot queue (exec (.l1Store (shadowQueueAddr slot queue field.2) 4 value) w).2 =
      shadowReady slot queue w := by
  have hfields : ∀ field ∈ queueFields, field.2 ≠ shadowQOffReady := by decide
  refine cell_store_of_ne (c := .shadow queue field.2) (valid_shadowField hqueue hfield)
    (valid_shadowReady hqueue) ?_ value w
  exact fun hcell ↦ hfields field hfield (shadow.inj hcell).2

end

theorem length_regConfig (slot : ℕ) (w : World) :
    (regConfig slot w).length = queueFields.length := length_map _

theorem regConfig_lt (h : value ∈ regConfig slot w) : value < 2 ^ 32 := by
  obtain ⟨field, -, rfl⟩ := mem_map.mp h
  exact cell_lt _ _

end Config

/-! ### The log of a guest -/

/-- How far the guest is with the queue it has selected. -/
inductive SetupStage
  /-- It has selected no queue yet. -/
  | fresh
  /-- It has selected a queue and written these values to the first setup registers. -/
  | filling (values : List ℕ)
  /-- It has written QUEUE_READY over this configuration, when BRISC had begun so many polls. -/
  | offered (config : List ℕ) (polls : ℕ)
deriving DecidableEq, Repr

/-- What a trace says about the guest's setups. -/
structure SetupLog where
  /-- The queue selected last. -/
  queue : ℕ
  stage : SetupStage
  /-- The configurations offered, with their queues. -/
  offers : List (ℕ × List ℕ)
deriving DecidableEq, Repr

/-- The log after a store of the guest to a register. -/
def SetupLog.store (polls : ℕ) (log : SetupLog) (offset value : ℕ) : SetupLog :=
  if offset = mmioQueueSel then { log with queue := value % 2 ^ 32, stage := .filling [] }
  else
    match log.stage with
    | .filling values =>
      if setupRegisters[values.length]? = some offset then
        { log with stage := .filling (values ++ [value % 2 ^ 32]) }
      else if offset = mmioQueueReady ∧ values.length = queueFields.length then
        { log with stage := .offered values polls, offers := (log.queue, values) :: log.offers }
      else log
    | .fresh | .offered _ _ => log

/-- The log after one more mark. -/
def SetupLog.next (slot polls : ℕ) (log : SetupLog) : Mark SlotCore Op ℕ ByteStore → SetupLog
  | .access .driver (.l1Store addr _ value) _ => log.store polls (addr - regAddr slot 0) value
  | _ => log

/-- The log of a trace. -/
def setupLog (slot : ℕ) (start : SetupLog) : List (Mark SlotCore Op ℕ ByteStore) → SetupLog
  | [] => start
  | mark :: trace => (setupLog slot start trace).next slot (Cores.passes .brisc trace) mark

/-- The stage of the guest. -/
def setupStage (slot : ℕ) (start : SetupLog) (s : SlotScene) : SetupStage :=
  (setupLog slot start s.trace).stage

/-! ### A guest that keeps to the order -/

/-- The stores that continue a setup. -/
def SetupStage.Expects (offset value : ℕ) : SetupStage → Prop
  | .fresh | .offered _ _ => offset = mmioQueueSel
  | .filling values => setupRegisters[values.length]? = some offset ∨
      offset = mmioQueueReady ∧ values.length = queueFields.length ∧ value = 1

instance (offset value : ℕ) : (stage : SetupStage) → Decidable (stage.Expects offset value)
  | .fresh | .offered _ _ => inferInstanceAs (Decidable (_ = _))
  | .filling _ => inferInstanceAs (Decidable (_ ∨ _))

/-- The accesses of a guest that keeps to the order and does not reset the device. -/
def InOrder (slot : ℕ) (log : SetupLog) : Op → Prop
  | .l1Load _ _ => True
  | .l1Store addr size value => size = 4 ∧
      ∃ offset < mmioConfig, 4 ∣ offset ∧ addr = regAddr slot offset ∧
        if offset ∈ queueRegisters then log.stage.Expects offset value
        else offset = mmioStatus → value % 2 ^ 32 ≠ 0
  | _ => False

instance (slot : ℕ) (log : SetupLog) : (op : Op) → Decidable (InOrder slot log op)
  | .l1Load _ _ => .isTrue trivial
  | .l1Store _ _ _ => inferInstanceAs (Decidable (_ ∧ _))
  | .ringLoad _ _ _ _ | .ringStore _ _ _ _ _ | .plicStore _ _ | .getProcessed _ _ |
    .setProcessed _ _ _ | .enter _ _ _ _ | .leave _ _ _ | .device _ _ _ => .isFalse id

variable {D : Type} {drive : D → Prog D} {s : SlotScene}

section Log

variable {start : SetupLog}

theorem setupLog_store (slot : ℕ) (start : SetupLog) (offset size value : ℕ) (s : SlotScene) :
    setupLog slot start (accessed .driver (.l1Store (regAddr slot offset) size value) s).trace =
      (setupLog slot start s.trace).store (Cores.passes .brisc s.trace) offset value := by
  change SetupLog.store _ _ (regAddr slot offset - regAddr slot 0) value = _
  rw [regAddr, regAddr, Nat.add_sub_add_left, Nat.sub_zero]

theorem setupLog_other (slot : ℕ) (start : SetupLog) {core : SlotCore} (hcore : core ≠ .driver)
    (op : Op) (s : SlotScene) :
    setupLog slot start (accessed core op s).trace = setupLog slot start s.trace := by
  cases core with
  | driver => exact absurd rfl hcore
  | _ => cases op <;> rfl

theorem setupLog_brisc (slot : ℕ) (start : SetupLog) (op : Op) (s : SlotScene) :
    setupLog slot start (accessed .brisc op s).trace = setupLog slot start s.trace :=
  setupLog_other slot start (by decide) op s

theorem SetupLog.store_of_notMem (log : SetupLog) (value : ℕ) (h : offset ∉ queueRegisters) :
    log.store polls offset value = log := by
  have hsel : offset ≠ mmioQueueSel := fun heq ↦ h (heq ▸ mem_cons_self)
  have hready : offset ≠ mmioQueueReady :=
    fun heq ↦ h (heq ▸ mem_cons_of_mem _ mem_cons_self)
  have hfield : ∀ k, setupRegisters[k]? ≠ some offset := fun k hk ↦
    h (mem_cons_of_mem _ (mem_cons_of_mem _ (mem_of_getElem? hk)))
  unfold SetupLog.store
  rw [if_neg hsel]
  split
  · rw [if_neg (hfield _), if_neg fun hboth ↦ hready hboth.1]
  · rfl
  · rfl

theorem driver_kept (slot : ℕ) (value : ℕ) (hvalid : (reg offset).Valid) (s : SlotScene) :
    CellsKept slot (fun c _ ↦ c = .reg offset) s.memory (guestStored slot offset value s).memory :=
  (touches_cell slot (.reg offset) value hvalid).kept s.memory

/-- A guest that does not reset its device leaves STATUS alone or stores something else than
zero. -/
theorem driver_status (slot : ℕ) (hvalid : (reg offset).Valid)
    (hstatus : offset = mmioStatus → value % 2 ^ 32 ≠ 0) (s : SlotScene) :
    statusWord slot (guestStored slot offset value s).memory =
        statusWord slot s.memory ∨
      statusWord slot (guestStored slot offset value s).memory ≠ 0 := by
  by_cases heq : offset = mmioStatus
  · subst heq
    have hstored := cell_store_self slot (.reg mmioStatus) value s.memory
    exact .inr (hstored.trans_ne (hstatus rfl))
  · refine .inl ((driver_kept slot value hvalid s).status_eq fun _ ↦ decide_eq_false ?_)
    exact fun hreg ↦ heq (reg.inj hreg).symm

theorem driver_statusSnap (slot : ℕ) (value : ℕ) (hvalid : (Cell.reg offset).Valid)
    (s : SlotScene) :
    statusSnap slot (guestStored slot offset value s).memory = statusSnap slot s.memory :=
  (driver_kept slot value hvalid s).snap_eq fun _ ↦ decide_eq_false nofun

theorem driver_live (slot : ℕ) (hvalid : (reg offset).Valid)
    (hstatus : offset = mmioStatus → value % 2 ^ 32 ≠ 0) (h : Live slot s.memory) :
    Live slot (guestStored slot offset value s).memory := by
  rcases h with hne | hzero
  · rcases driver_status slot hvalid hstatus s with heq | hne'
    · exact .inl (heq.trans_ne hne)
    · exact .inl hne'
  · exact .inr ((driver_statusSnap slot value hvalid s).trans hzero)

theorem SetupLog.store_sel (log : SetupLog) (value : ℕ) :
    log.store polls mmioQueueSel value =
      { log with queue := value % 2 ^ 32, stage := .filling [] } :=
  if_pos rfl

theorem SetupLog.store_field {log : SetupLog} (value : ℕ) (hstage : log.stage = .filling values)
    (hfield : setupRegisters[values.length]? = some offset) :
    log.store polls offset value = { log with stage := .filling (values ++ [value % 2 ^ 32]) } := by
  have hsetup : ∀ offset ∈ setupRegisters, offset ≠ mmioQueueSel := by decide
  unfold SetupLog.store
  rw [if_neg (hsetup offset (mem_of_getElem? hfield)), hstage]
  simp only [hfield, if_true]

theorem SetupLog.store_ready {log : SetupLog} (value : ℕ) (hstage : log.stage = .filling values)
    (hlen : values.length = queueFields.length) :
    log.store polls mmioQueueReady value =
      { log with stage := .offered values polls, offers := (log.queue, values) :: log.offers } := by
  have hsetup : mmioQueueReady ∉ setupRegisters := by decide
  have hfield : setupRegisters[values.length]? ≠ some mmioQueueReady :=
    fun hmem ↦ hsetup (mem_of_getElem? hmem)
  unfold SetupLog.store
  rw [if_neg (by decide), hstage]
  simp only
  rw [if_neg hfield, if_pos ⟨trivial, hlen⟩]

end Log

/-! ### The copy loops -/

/-- The stores to the shadow of a queue. -/
def shadowStores (queue : ℕ) : Cell → ℕ → Bool
  | .shadow other _, _ => other = queue
  | .reg _, _ | .snap _, _ => false

theorem touches_shadow (slot : ℕ) (value : ℕ) (hvalid : (shadow queue offset).Valid) :
    Touches slot (shadowStores queue) (.l1Store (shadowQueueAddr slot queue offset) 4 value) :=
  .store (.shadow queue offset) value hvalid (decide_eq_true rfl)

section Copy

variable {rely : SlotScene → SlotScene → Prop} {guarantee : Op → SlotScene → Prop}

/-- What the capture loop returns while the registers stay as they are. -/
theorem ensures_capture (pre : SlotScene → Prop) (hstable : Stable rely pre)
    (hload : ∀ addr t, pre t → guarantee (.l1Load addr 4) t ∧
      pre (accessed .brisc (.l1Load addr 4) t)) {fields : List (ℕ × ℕ)}
    (hfields : ∀ t, pre t → (fields.map fun field ↦ cell slot (.reg field.1) t.memory) = values)
    (h : pre s) :
    Ensures ((slotCores slot drive).access .brisc) rely guarantee
      (fun result t ↦ result = values ∧ pre t) (capture slot fields) s := by
  induction fields generalizing s values with
  | nil => exact ⟨hfields s h, h⟩
  | cons field fields ih =>
    refine ensures_read (.reg field.1) pre hstable h fun t ht ↦ ⟨(hload _ t ht).1, ?_⟩
    have htail : ∀ t', pre t' →
        (fields.map fun field ↦ cell slot (.reg field.1) t'.memory) = values.tail := by
      intro t' ht'
      rw [← hfields t' ht']
      rfl
    refine (ih htail (hload _ t ht).2).bind fun result t' ht' ↦ ⟨?_, ht'.2⟩
    rw [← hfields t ht, ht'.1, ← htail t ht]
    rfl

theorem ensures_commitCells (cells : List ((ℕ × ℕ) × ℕ)) (pre : SlotScene → Prop)
    (hstable : Stable rely pre)
    (hshadow : ∀ s s', rely s s' → ∀ offset, (shadow queue offset).Valid →
      cell slot (.shadow queue offset) s'.memory = cell slot (.shadow queue offset) s.memory)
    (hvalid : ∀ c ∈ cells, (shadow queue c.1.2).Valid)
    (hnodup : (cells.map fun c ↦ c.1.2).Nodup) (hstore : ∀ c ∈ cells, ∀ t, pre t →
      guarantee (.l1Store (shadowQueueAddr slot queue c.1.2) 4 c.2) t ∧
        pre (accessed .brisc (.l1Store (shadowQueueAddr slot queue c.1.2) 4 c.2) t)) (h : pre s) :
    Ensures ((slotCores slot drive).access .brisc) rely guarantee
      (fun _ t ↦ pre t ∧ ∀ c ∈ cells, cell slot (.shadow queue c.1.2) t.memory = c.2 % 2 ^ 32)
      (cells.forM fun c ↦ storeU32 (shadowQueueAddr slot queue c.1.2) c.2) s := by
  induction cells generalizing s pre with
  | nil => exact ⟨h, fun c hc ↦ absurd hc not_mem_nil⟩
  | cons first cells ih =>
    obtain ⟨hfirst, hrest⟩ := nodup_cons.mp hnodup
    refine ensures_store pre hstable h fun t ht ↦ ⟨(hstore first mem_cons_self t ht).1, ?_⟩
    -- from here on the first word keeps the value it has just got
    have hkept : ∀ c ∈ cells, ∀ w : World, cell slot (.shadow queue first.1.2) (exec (.l1Store
        (shadowQueueAddr slot queue c.1.2) 4 c.2) w).2 = cell slot (.shadow queue first.1.2) w := by
      intro c hc w
      refine cell_store_of_ne (c := .shadow queue c.1.2) (hvalid c (mem_cons_of_mem _ hc))
        (hvalid first mem_cons_self) ?_ c.2 w
      intro heq
      exact hfirst (mem_map.mpr ⟨c, hc, (shadow.inj heq).2⟩)
    refine (ih (fun t ↦ pre t ∧ cell slot (.shadow queue first.1.2) t.memory = first.2 % 2 ^ 32)
      ?_ ?_ hrest ?_ ⟨(hstore first mem_cons_self t ht).2,
        cell_store_self slot (.shadow queue first.1.2) first.2 t.memory⟩).weaken ?_
    · intro t t' hstep ht
      exact ⟨hstable t t' hstep ht.1,
        (hshadow t t' hstep _ (hvalid first mem_cons_self)).trans ht.2⟩
    · exact fun c hc ↦ hvalid c (mem_cons_of_mem _ hc)
    · intro c hc t ht
      obtain ⟨hguar, hpre⟩ := hstore c (mem_cons_of_mem _ hc) t ht.1
      exact ⟨hguar, hpre, (hkept c hc t.memory).trans ht.2⟩
    · intro _ t ht
      refine ⟨ht.1.1, fun c hc ↦ ?_⟩
      rcases mem_cons.mp hc with rfl | hmem
      · exact ht.1.2
      · exact ht.2 c hmem

theorem ensures_commit (hqueue : queue < maxQueuesPerSlot)
    (hlen : values.length = queueFields.length) (hword : ∀ value ∈ values, value < 2 ^ 32)
    (pre : SlotScene → Prop) (hstable : Stable rely pre)
    (hshadow : ∀ s s', rely s s' → ∀ offset, (shadow queue offset).Valid →
      cell slot (.shadow queue offset) s'.memory = cell slot (.shadow queue offset) s.memory)
    (hstore : ∀ field ∈ queueFields, ∀ value ∈ values, ∀ t, pre t →
      guarantee (.l1Store (shadowQueueAddr slot queue field.2) 4 value) t ∧
        pre (accessed .brisc
          (.l1Store (shadowQueueAddr slot queue field.2) 4 value) t)) (h : pre s) :
    Ensures ((slotCores slot drive).access .brisc) rely guarantee
      (fun _ t ↦ pre t ∧ shadowConfig slot queue t.memory = values) (commit slot queue values)
      s := by
  have hzip : ∀ read : ℕ × ℕ → ℕ,
      ((queueFields.zip values).map fun c ↦ read c.1) = queueFields.map read := by
    intro read
    have hfirst := congrArg (map read) (map_fst_zip hlen.ge)
    rwa [map_map] at hfirst
  refine (ensures_commitCells (queueFields.zip values) pre hstable hshadow ?_ ?_ ?_ h).weaken ?_
  · exact fun c hc ↦ valid_shadowField hqueue (of_mem_zip hc).1
  · rw [hzip Prod.snd]
    decide
  · intro c hc t ht
    exact hstore c.1 (of_mem_zip hc).1 c.2 (of_mem_zip hc).2 t ht
  · intro _ t ht
    refine ⟨ht.1, ?_⟩
    calc shadowConfig slot queue t.memory
        = (queueFields.zip values).map fun c ↦ cell slot (.shadow queue c.1.2) t.memory :=
          (hzip fun field ↦ cell slot (.shadow queue field.2) t.memory).symm
      _ = (queueFields.zip values).map Prod.snd := by
          refine map_congr_left fun c hc ↦ ?_
          rw [ht.2 c hc, Nat.mod_eq_of_lt (hword c.2 (of_mem_zip hc).2)]
      _ = values := map_snd_zip hlen.le

end Copy

/-! ### What a step keeps of a setup -/

/-- The cells of a setup are as they were, but for QUEUE_READY, which may have been cleared. -/
structure SetupKept (slot : ℕ) (w w' : World) : Prop where
  sel : selWord slot w' = selWord slot w
  snap : selSnap slot w' = selSnap slot w
  config : regConfig slot w' = regConfig slot w
  ready : readyWord slot w' = readyWord slot w ∨ readyWord slot w' = 0
  shadow : ∀ queue offset, (Cell.shadow queue offset).Valid →
    cell slot (.shadow queue offset) w' = cell slot (.shadow queue offset) w

section Kept

variable {w'' : World}

theorem CellsKept.setupKept (h : CellsKept slot stores w w') (hspares : Spares stores) :
    SetupKept slot w w' :=
  ⟨h.sel_eq hspares, h.selSnap_eq hspares, h.config_eq hspares, .inl (h.ready_eq hspares),
    h.shadow_eq hspares⟩

theorem SetupKept.trans (h : SetupKept slot w w') (h' : SetupKept slot w' w'') :
    SetupKept slot w w'' := by
  refine ⟨h'.sel.trans h.sel, h'.snap.trans h.snap, h'.config.trans h.config, ?_,
    fun queue offset hvalid ↦ (h'.shadow queue offset hvalid).trans (h.shadow queue offset hvalid)⟩
  rcases h'.ready with heq | hzero
  · rw [heq]
    exact h.ready
  · exact .inr hzero

theorem setupKept_clear {op : Op} (h : Touches slot watchSelStores op) (w : World) :
    SetupKept slot w (exec op w).2 := by
  have hkept := h.kept w
  have hsetup : ∀ offset ∈ setupRegisters, Cell.reg offset ≠ .reg mmioQueueReady := by decide
  constructor
  · exact hkept (.reg mmioQueueSel) (by decide) (spared_watchSelStores (by decide))
  · exact hkept (.snap snapOffQueueSel) (by decide) (spared_watchSelStores (by decide))
  · exact hkept.regConfig_eq fun offset hoffset ↦ spared_watchSelStores (hsetup offset hoffset)
  · have hcases : readyWord slot (exec op w).2 = readyWord slot w ∨ ∃ value,
        watchSelStores (.reg mmioQueueReady) value = true ∧
          readyWord slot (exec op w).2 = value % 2 ^ 32 := h.cell_cases (by decide) w
    rcases hcases with heq | ⟨value, hvalue, hstored⟩
    · exact .inl heq
    · rw [eq_zero_of_watchSelStores hvalue] at hstored
      exact .inr hstored
  · exact fun queue offset hvalid ↦ hkept _ hvalid (spared_watchSelStores Cell.noConfusion)

end Kept

/-- What a guest writes for a queue of four entries after it has selected it. -/
def smallQueue : List (ℕ × ℕ) :=
  [(mmioQueueNum, 4), (mmioQueueDescLow, 0x1000), (mmioQueueDescHigh, 0),
    (mmioQueueDriverLow, 0x2000), (mmioQueueDriverHigh, 0), (mmioQueueDeviceLow, 0x3000),
    (mmioQueueDeviceHigh, 0), (mmioQueueReady, 1)]

end Bhx.Firmware
