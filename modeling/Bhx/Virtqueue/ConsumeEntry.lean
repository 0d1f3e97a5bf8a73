import Bhx.Virtqueue.DriverWalk

/-!
# Consuming an entry next to an obedient driver

What a call of `processOneChainForQueue` does with the entry at the cursor, stated of guest memory.
The walk's outcome is settled by the chain (`WalkLog.outcome_cases`, `reachesEnd_iff_wellFormed`):
it is valid exactly when the chain is well formed, and then it counts the lengths before the last
descriptor plus the value `process_queue_complete` returned. `consumeEntry_kept` adds the posting
and the move of the cursor, and `processOneChainForQueue_kept` the early returns: a call finds
nothing pending, or is turned away by the device model, or has consumed the entry (`Consumed`).
-/

set_option autoImplicit false

namespace Bhx.Virtqueue

open SharedMemory Machine List

variable {w s : World} {log : List (Op × ℕ)} {entry : AvailEntry} {outcome : Option ℕ}
  {posted : Bool} {w' : World}

section Kept

variable (view : QueueView)

/-! ### The outcome of the walk -/

/-- The values `process_queue_complete` returned. -/
def returned (log : List (Op × ℕ)) : List ℕ := log.filterMap fun entry ↦
  match entry with
  | (.leave _ .processQueueComplete value, _) => some value
  | _ => none

/-- The sum of the lengths of the descriptors before the last. -/
def frontBytes (chain : List VringDesc) : ℕ := (chain.dropLast.map VringDesc.len).sum

section Outcome

variable {view} {queueHeaderSize stepsLeft descIdx numBytesWritten : ℕ}

theorem reachesEnd_iff_wellFormed (entries : List (ℕ × VringDesc)) :
    ReachesEnd view entries ↔ wellFormed view (entries.map Prod.snd) = true := by
  unfold ReachesEnd wellFormed
  rw [Bool.and_eq_true, getLast?_map, Option.any_map]
  refine and_congr ?_ ?_
  · simp
  · cases entries.getLast? with
    | none => simp
    | some last => simp

/-- A valid walk ends with one return of `process_queue_complete` and counts the lengths before the
last descriptor plus that value; an invalid one ends with none. -/
theorem WalkLog.outcome_cases
    (h : WalkLog view queueHeaderSize stepsLeft descIdx numBytesWritten log outcome) :
    (outcome = none ∧ returned log = []) ∨
      ∃ value, returned log = [value] ∧ visited log ≠ [] ∧ outcome = some
        ((numBytesWritten + frontBytes ((visited log).map Prod.snd) + value) % 2 ^ 64) := by
  induction h with
  | outOfSteps _ numBytesWritten => exact .inl ⟨rfl, rfl⟩
  | outOfRange _ descIdx numBytesWritten raw _ => exact .inl ⟨rfl, rfl⟩
  | last _ descIdx numBytesWritten raw value _ _ =>
    exact .inr ⟨value, rfl, cons_ne_nil _ _, rfl⟩
  | next stepsLeft descIdx numBytesWritten raw log outcome hrange hnext hrest ih =>
    set d := VringDesc.ofRaw raw
    set callback := forwardCallback queueHeaderSize numBytesWritten
    have hvis : visited (descStep view descIdx raw :: enterStep view callback d ::
        (.leave view.id callback 0, 0) :: log) = (view.descAddr descIdx, d) :: visited log := rfl
    have hreturned : returned (descStep view descIdx raw :: enterStep view callback d ::
        (.leave view.id callback 0, 0) :: log) = returned log := by
      have hcallback : callback ≠ .processQueueComplete := by
        change forwardCallback queueHeaderSize numBytesWritten ≠ _
        unfold forwardCallback
        split_ifs <;> simp
      cases hc : callback with
      | processQueueComplete => exact absurd hc hcallback
      | processQueueStart | processQueueData => rfl
    rw [hvis, hreturned]
    rcases ih with ⟨hnone, hempty⟩ | ⟨value, hvalue, hne, hsome⟩
    · exact .inl ⟨hnone, hempty⟩
    · refine .inr ⟨value, hvalue, cons_ne_nil _ _, ?_⟩
      have hfront : frontBytes (((view.descAddr descIdx, d) :: visited log).map Prod.snd) =
          d.len + frontBytes ((visited log).map Prod.snd) := by
        have hne' : (visited log).map Prod.snd ≠ [] := by simpa using hne
        unfold frontBytes
        rw [map_cons, dropLast_cons_of_ne_nil hne', map_cons, sum_cons]
      rw [hsome, hfront]
      congr 1
      omega

end Outcome

/-! ### Posting and consuming -/

/-- The stores of the walk to guest memory. -/
def ringStores (log : List (Op × ℕ)) : List Op := log.filterMap fun entry ↦
  match entry with
  | (.ringStore id part addr size value, _) => some (.ringStore id part addr size value)
  | _ => none

theorem returned_append (first second : List (Op × ℕ)) :
    returned (first ++ second) = returned first ++ returned second :=
  filterMap_append ..

theorem ringStores_append (first second : List (Op × ℕ)) :
    ringStores (first ++ second) = ringStores first ++ ringStores second :=
  filterMap_append ..

theorem headsTaken_append (first second : List (Op × ℕ)) :
    headsTaken (first ++ second) = headsTaken first ++ headsTaken second :=
  filterMap_append ..

/-- The stores that append an element at `usedIdx`. -/
def postStores (usedIdx head len : ℕ) : List Op :=
  [.ringStore view.id .usedElemId (view.usedElemAddr usedIdx) 4 head,
    .ringStore view.id .usedElemLen (view.usedElemAddr usedIdx + 4) 4 len,
    .ringStore view.id .usedIdx view.usedIdxAddr 2 ((usedIdx + 1) % 2 ^ 16)]

/-- Memory after an element is appended to the used ring. -/
def postedBytes (used : Bytes) (head len : ℕ) : Bytes :=
  writeLE
    (writeLE (writeLE used (view.usedElemAddr (usedIdx view used)) 4 head)
      (view.usedElemAddr (usedIdx view used) + 4) 4 len)
    view.usedIdxAddr 2 ((usedIdx view used + 1) % 2 ^ 16)

theorem inside_usedElem (idx : ℕ) :
    Inside (view.usedElemAddr idx) 8 view.usedQ (4 + 8 * view.queueNum) := by
  have hslot : idx % view.queueNum < view.queueNum := Nat.mod_lt _ view.queueNum_pos
  unfold Inside QueueView.usedElemAddr
  omega

theorem inside_usedIdx : Inside view.usedIdxAddr 2 view.usedQ (4 + 8 * view.queueNum) := by
  unfold Inside QueueView.usedIdxAddr
  omega

/-- The last value `process_queue_complete` returned. -/
def lastReturned (w : World) : ℕ := (returned (walkLog w)).getLast?.getD 0

/-- The length posted for an entry: the lengths before the last descriptor and the value returned
for the last one. -/
def postedLen (entry : AvailEntry) (w : World) : ℕ :=
  (frontBytes entry.chain + lastReturned w) % 2 ^ 32

/-- From `w` on, the entry at the cursor was consumed, and posted when its chain is well formed. -/
structure Consumed (cursors : ℕ → ℕ → ℕ) (entry : AvailEntry) (used : Bytes) (w : World)
    (posted : Bool) (s : World) : Prop where
  processed_eq : s.processed = advanceCursor view cursors
  buffers : BuffersApart view s
  posted_eq : posted = wellFormed view entry.chain
  headsTaken_eq : headsTaken (walkLog s) = headsTaken (walkLog w) ++ [entry.head]
  ringStores_eq : ringStores (walkLog s) = ringStores (walkLog w) ++
    if posted then postStores view (usedIdx view used) entry.head (postedLen entry s) else []
  used_eq : ∀ a, view.usedQ ≤ a → a < view.usedQ + (4 + 8 * view.queueNum) →
    view.memory s a =
      (if posted then postedBytes view used entry.head (postedLen entry s) else used) a

variable {D : Type} {device : VirtioDevice D} {cursors : ℕ → ℕ → ℕ} {used : Bytes}

section Consume

variable {view}

theorem Kept.usedIdx_eq (h : Kept view cursors entry used w) :
    usedIdx view (view.memory w) = usedIdx view used := by
  have hinside := inside_usedIdx view
  unfold Inside at hinside
  exact readLE_congr fun a hlow hhigh ↦ h.used_eq a (by omega) (by omega)

theorem ensures_ringStore_kept (hlayout : view.UsedApart) (part : RingPart) {addr size : ℕ}
    (value : ℕ) (hinside : Inside addr size view.usedQ (4 + 8 * view.queueNum))
    (hkept : Kept view cursors entry used w) :
    Behaves view cursors (fun _ s ↦ Kept view cursors entry (writeLE used addr size value) s ∧
        Logged w [(.ringStore view.id part addr size value, 0)] s)
      (Program.perform (.ringStore view.id part addr size value)) w := by
  intro w' hrely
  have hkept' := hkept.rely hrely
  have hmemory : ((Op.ringStore view.id part addr size value).apply w').dram view.id.l2cpu =
      writeLE (view.memory w') addr size value := Function.update_self ..
  refine ⟨⟨?_, rfl, hkept'.processed_eq, .inl hkept'.processed_eq⟩,
    hkept'.storeUsed hlayout hinside hmemory rfl, logged_exec hrely.1 rfl rfl⟩
  intro l2cpu a hne
  by_cases hcpu : l2cpu = view.id.l2cpu
  · refine ⟨hcpu, .inl ?_⟩
    subst hcpu
    have hrange : addr ≤ a ∧ a < addr + size := by
      by_contra hout
      rw [hmemory, writeLE_apply_of_not_mem hout] at hne
      exact hne rfl
    unfold Inside at hinside
    exact ⟨by omega, by omega⟩
  · exact absurd (congrFun (Function.update_of_ne hcpu ..) a) hne

theorem postUsed_kept (hlayout : view.UsedApart) (head numBytesWritten : ℕ)
    (hkept : Kept view cursors entry used w) :
    Behaves view cursors
      (fun _ s ↦ Kept view cursors entry (postedBytes view used head (numBytesWritten % 2 ^ 32)) s ∧
        Logged w (postSteps view head numBytesWritten (usedIdx view used)) s)
      (postUsed view head numBytesWritten) w := by
  refine (ensures_ringLoad_kept .usedIdx hkept).bind fun answer s ⟨hkept, hread, hanswer⟩ ↦ ?_
  have husedIdx : answer = usedIdx view used := hanswer.trans hkept.usedIdx_eq
  subst husedIdx
  have helem := inside_usedElem view (usedIdx view used)
  unfold Inside at helem
  refine (ensures_ringStore_kept hlayout .usedElemId head ⟨by omega, by omega⟩ hkept).bind
    fun _ t ⟨hkept, hid⟩ ↦ ?_
  refine (ensures_ringStore_kept hlayout .usedElemLen _ ⟨by omega, by omega⟩ hkept).bind
    fun _ u ⟨hkept, hlen⟩ ↦ ?_
  refine (ensures_ringStore_kept hlayout .usedIdx _ (inside_usedIdx view) hkept).bind
    fun _ v ⟨hkept, hidx⟩ ↦ ?_
  exact ⟨hkept, ((hread.trans hid).trans hlen).trans hidx⟩

/-- The walk of an entry leaves a log of its chain. -/
theorem walkEntry_kept (hdev : WritesInside device) (queueHeaderSize : ℕ) (state : D)
    (hkept : Kept view cursors entry used w) :
    Behaves view cursors (fun walked s ↦ Kept view cursors entry used s ∧ ∃ log, Logged w log s ∧
        WalkLog view queueHeaderSize view.queueNum entry.head 0 log walked.2 ∧
        (visited log).map Prod.snd = entry.chain)
      (walkChain device view queueHeaderSize view.queueNum entry.head 0 state) w := by
  have hvisits := walkChain_kept hdev queueHeaderSize 0 state [] entry.chain rfl
    (fun d hd ↦ absurd hd not_mem_nil) (Nat.zero_add _) hkept
  have hlogs := walkChain_ensures device view queueHeaderSize view.queueNum entry.head 0 state w
  refine (hvisits.and (hlogs.restrict fun _ _ hrely ↦ hrely.1)).imp (fun _ _ hop ↦ hop.1) ?_
  rintro walked s ⟨⟨hs, log, hlogged, hvis⟩, log', hlogged', hwalk⟩
  have hsame : log = log' :=
    append_cancel_left (hlogged.walkLog_eq.symm.trans hlogged'.walkLog_eq)
  subst hsame
  exact ⟨hs, log, hlogged, hwalk, hvis⟩

/-- The cursor moves over the entry, and what is left of the pending entries stays. -/
theorem pending_advance (hpos : 0 < pending view w) (hmemory : view.memory s = view.memory w)
    (hproc : s.processed = advanceCursor view w.processed) :
    pending view s + 1 = pending view w ∧
      ∀ k, pendingEntry view s k = pendingEntry view w (k + 1) := by
  have hmoved : view.cursor s = (view.cursor w + 1) % 2 ^ 16 := by
    unfold QueueView.cursor
    rw [hproc]
    simp [advanceCursor]
  have havail : availIdx view (view.memory w) < 2 ^ 16 := readLE_lt _ _ 2
  unfold pending at hpos ⊢
  refine ⟨?_, fun k ↦ ?_⟩
  · rw [hmemory, hmoved]
    omega
  · unfold pendingEntry
    congr 1
    omega

theorem WalkLog.ringStores_eq {queueHeaderSize stepsLeft descIdx numBytesWritten : ℕ}
    (h : WalkLog view queueHeaderSize stepsLeft descIdx numBytesWritten log outcome) :
    ringStores log = [] := by
  induction h with
  | outOfSteps | outOfRange | last => rfl
  | next _ _ _ _ _ _ _ _ _ ih => exact ih

theorem consumeSteps_stores {queueHeaderSize head : ℕ} (processed usedIdx : ℕ)
    (hwalk : WalkLog view queueHeaderSize view.queueNum head 0 log outcome) :
    ringStores (consumeSteps view processed head usedIdx log outcome) =
        outcome.elim [] (fun written ↦ postStores view usedIdx head (written % 2 ^ 32)) ∧
      returned (consumeSteps view processed head usedIdx log outcome) = returned log := by
  have hstores := hwalk.ringStores_eq
  unfold ringStores at hstores
  refine ⟨?_, ?_⟩
  · cases outcome <;> simp [ringStores, consumeSteps, settleSteps, postSteps, postStores,
      filterMap_append, hstores]
  · cases outcome <;> simp [returned, consumeSteps, settleSteps, postSteps, filterMap_append]

theorem settle_kept (hlayout : view.UsedApart) (head : ℕ) (outcome : Option ℕ)
    (hkept : Kept view cursors entry used w) :
    Behaves view cursors (fun posted s ↦ posted = outcome.isSome ∧
        Kept view cursors entry
          (outcome.elim used fun written ↦ postedBytes view used head (written % 2 ^ 32)) s ∧
        Logged w (settleSteps view head (usedIdx view used) outcome) s)
      (settle view head outcome) w := by
  cases outcome with
  | none => exact ⟨rfl, hkept, by rw [settleSteps, append_nil], rfl⟩
  | some numBytesWritten =>
    refine (postUsed_kept hlayout head numBytesWritten hkept).bind fun _ s hposted ↦ ?_
    exact ⟨rfl, hposted⟩

theorem Kept.touches_setProcessed (h : Kept view cursors entry used w) :
    Touches view cursors (.setProcessed view.id.slot view.id.queue
      ((cursors view.id.slot view.id.queue + 1) % 2 ^ 16)) w where
  processed_eq := h.processed_eq
  dram := fun _ _ hne ↦ absurd rfl hne
  l1 := rfl
  processed := by
    refine .inr ⟨h.pending_pos, rfl, ?_⟩
    rw [← h.processed_eq]
    rfl

theorem buffersApart_advance (hpos : 0 < pending view w) (hmemory : view.memory s = view.memory w)
    (hproc : s.processed = advanceCursor view w.processed) (h : BuffersApart view w) :
    BuffersApart view s := by
  obtain ⟨hpend, hentry⟩ := pending_advance hpos hmemory hproc
  intro k hk d hmem hrange
  rw [hentry k] at hmem
  exact h (k + 1) (by omega) d hmem hrange

theorem consumeEntry_kept (hlayout : view.UsedApart) (hdev : WritesInside device)
    (queueHeaderSize : ℕ) (state : D) (hcur : cursors view.id.slot view.id.queue < 2 ^ 16)
    (hkept : Kept view cursors entry used w) :
    Behaves view cursors (fun reply s ↦ Consumed view cursors entry used w reply.2 s)
      (consumeEntry device view queueHeaderSize (cursors view.id.slot view.id.queue) state) w := by
  refine (ensures_ringLoad_kept .availRing hkept).bind fun answer s ⟨hs, hread, hanswer⟩ ↦ ?_
  have hhead : answer = entry.head := by
    rw [hanswer, ← hs.entry_eq]
    unfold pendingEntry QueueView.cursor
    rw [Nat.add_zero, hs.processed_eq, Nat.mod_eq_of_lt hcur]
    rfl
  subst hhead
  refine (walkEntry_kept hdev queueHeaderSize state hs).bind
    fun walked t ⟨ht, log, hlogged, hwalk, hvis⟩ ↦ ?_
  refine (settle_kept hlayout entry.head walked.2 ht).bind fun posted u ⟨hposted, hu, hsettled⟩ ↦ ?_
  intro u' hrely
  have hu' := hu.rely hrely
  have hall := ((hread.trans hlogged).trans hsettled).walkLog_eq
  have hwalkLog : walkLog (exec (.setProcessed view.id.slot view.id.queue
      ((cursors view.id.slot view.id.queue + 1) % 2 ^ 16)) u').2 = walkLog w ++ consumeSteps view
      (cursors view.id.slot view.id.queue) entry.head (usedIdx view used) log walked.2 := by
    rw [walkLog_exec, walkLog_of_interferes hrely.1, hall]
    simp [consumeSteps, walkStep, Op.answer]
  obtain ⟨-, -, hheads, -⟩ :=
    consumeSteps_views view (cursors view.id.slot view.id.queue) (usedIdx view used) hwalk
  obtain ⟨hstores, hreturned⟩ :=
    consumeSteps_stores (cursors view.id.slot view.id.queue) (usedIdx view used) hwalk
  refine ⟨hu'.touches_setProcessed, ?_⟩
  set f := (exec (.setProcessed view.id.slot view.id.queue
    ((cursors view.id.slot view.id.queue + 1) % 2 ^ 16)) u').2
  have hproc : f.processed = advanceCursor view u'.processed := by
    change Function.update u'.processed _ _ = _
    rw [hu'.processed_eq]
    rfl
  have hposted_iff : posted = wellFormed view entry.chain := by
    rw [hposted, Bool.eq_iff_iff, hwalk.isSome_iff, reachesEnd_iff_wellFormed, hvis]
  have hlen : ∀ written, walked.2 = some written → written % 2 ^ 32 = postedLen entry f := by
    intro written hwritten
    rcases hwalk.outcome_cases with ⟨hnone, -⟩ | ⟨value, hvalue, -, hsome⟩
    · rw [hnone] at hwritten
      exact absurd hwritten (by simp)
    · have hlast : lastReturned f = value := by
        unfold lastReturned
        rw [hwalkLog, returned_append, hreturned, hvalue, getLast?_append]
        rfl
      rw [hwritten, hvis, Nat.zero_add, Option.some.injEq] at hsome
      unfold postedLen
      omega
  refine ⟨by rw [hproc, hu'.processed_eq], ?_, hposted_iff, ?_, ?_, ?_⟩
  · exact buffersApart_advance hu'.pending_pos rfl hproc hu'.buffers
  · rw [hwalkLog, headsTaken_append, hheads]
  · rw [hwalkLog, ringStores_append, hstores, hposted]
    cases hwalked : walked.2 with
    | none => rfl
    | some written =>
      rw [Option.elim_some, hlen written hwalked]
      rfl
  · intro a hlow hhigh
    have hused := hu'.used_eq a hlow hhigh
    rw [hposted]
    cases hwalked : walked.2 with
    | none =>
      rw [hwalked] at hused
      exact hused
    | some written =>
      rw [hwalked, Option.elim_some, hlen written hwalked] at hused
      exact hused

end Consume

/-! ### A whole call -/

/-- What holds between calls: the cursors, the contents of the used ring and no overlap. -/
structure Resting (cursors : ℕ → ℕ → ℕ) (used : Bytes) (w : World) : Prop where
  processed_eq : w.processed = cursors
  used_eq : ∀ a, view.usedQ ≤ a → a < view.usedQ + (4 + 8 * view.queueNum) →
    view.memory w a = used a
  buffers : BuffersApart view w

/-- The answers of `queue_has_data` satisfy a property, next to any interference. -/
def Answers {D : Type} (device : VirtioDevice D) (answers : Bool → Prop) : Prop :=
  ∀ state queueIdx slot l2cpu w, Ensures exec (fun _ _ ↦ True) anyOp (fun ready _ ↦ answers ready)
    ((device.queueHasData state queueIdx).embed (Op.device slot l2cpu)) w

theorem answers_sinkDevice : Answers sinkDevice (· = true) := fun _ _ _ _ _ ↦ rfl

/-- A call that read `avail.idx` in `s` either left things as they were, because nothing was pending
or the device model had no data, or consumed the entry at the cursor. -/
def CallOutcome (cursors : ℕ → ℕ → ℕ) (used : Bytes) (answers : Bool → Prop) (s : World)
    (posted : Bool) (t : World) : Prop :=
  ((pending view s = 0 ∨ answers false) ∧ posted = false ∧ Resting view cursors used t ∧
      headsTaken (walkLog t) = headsTaken (walkLog s) ∧
      ringStores (walkLog t) = ringStores (walkLog s)) ∨
    (0 < pending view s ∧ Consumed view cursors (pendingEntry view s 0) used s posted t)

section Call

variable {view} {answers : Bool → Prop}

theorem Resting.rely (h : Resting view cursors used w) (hrely : DriverRely view w w') :
    Resting view cursors used w' := by
  obtain ⟨hinterferes, hdriver⟩ := hrely
  have hstep := hdriver h.buffers
  refine ⟨hinterferes.processed_eq.trans h.processed_eq, ?_, hstep.buffers⟩
  intro a hlow hhigh
  rw [hstep.used_eq a hlow hhigh, h.used_eq a hlow hhigh]

theorem Kept.resting (h : Kept view cursors entry used w) : Resting view cursors used w :=
  ⟨h.processed_eq, h.used_eq, h.buffers⟩

theorem Resting.kept (h : Resting view cursors used w) (hpos : 0 < pending view w) :
    Kept view cursors (pendingEntry view w 0) used w :=
  ⟨h.processed_eq, hpos, rfl, h.used_eq, h.buffers⟩

theorem Resting.of_eq (h : Resting view cursors used w) (hmemory : view.memory w' = view.memory w)
    (hproc : w'.processed = w.processed) : Resting view cursors used w' := by
  refine ⟨hproc.trans h.processed_eq, ?_, ?_⟩
  · rw [hmemory]
    exact h.used_eq
  · refine buffersApart_of_agree ?_ (cursor_eq_of_processed_eq hproc) h.buffers
    rw [hmemory]
    exact ⟨fun _ _ _ ↦ rfl, fun _ _ _ ↦ rfl⟩

theorem pending_eq_zero_iff (hcur : view.cursor w < 2 ^ 16) :
    pending view w = 0 ↔ view.cursor w = availIdx view (view.memory w) := by
  have havail : availIdx view (view.memory w) < 2 ^ 16 := readLE_lt _ _ 2
  unfold pending
  omega

theorem ensures_getProcessed_kept (h : Resting view cursors used s) :
    Behaves view cursors
      (fun answer t ↦ answer = cursors view.id.slot view.id.queue ∧ Resting view cursors used t ∧
        (∀ entry, Kept view cursors entry used s → Kept view cursors entry used t) ∧
        Logged s [(.getProcessed view.id.slot view.id.queue, answer)] t)
      (Program.perform (.getProcessed view.id.slot view.id.queue)) s := by
  intro s' hrely
  have hs' := h.rely hrely
  refine ⟨touches_of_apply_eq view rfl hs'.processed_eq, congrFun₂ hs'.processed_eq _ _,
    hs'.of_eq rfl rfl, ?_,
    logged_exec hrely.1 rfl rfl⟩
  exact fun entry hkept ↦ (hkept.rely hrely).of_memory_eq rfl rfl

theorem Consumed.cursor_eq (h : Consumed view cursors entry used w posted s) :
    view.cursor s = (cursors view.id.slot view.id.queue + 1) % 2 ^ 16 := by
  unfold QueueView.cursor
  rw [h.processed_eq]
  simp [advanceCursor]

/-- A log that takes no head and stores nothing may come before. -/
theorem Consumed.after {t u : World} (h : Consumed view cursors entry used t posted u)
    (hlogged : Logged s log t) (hheads : headsTaken log = []) (hstores : ringStores log = []) :
    Consumed view cursors entry used s posted u where
  processed_eq := h.processed_eq
  buffers := h.buffers
  posted_eq := h.posted_eq
  headsTaken_eq := by
    rw [h.headsTaken_eq, hlogged.walkLog_eq, headsTaken_append, hheads, append_nil]
  ringStores_eq := by
    rw [h.ringStores_eq, hlogged.walkLog_eq, ringStores_append, hstores, append_nil]
  used_eq := h.used_eq

/-- A call from the moment it has read `avail.idx`. -/
theorem takeEntry_kept (hlayout : view.UsedApart) (hdev : WritesInside device)
    (hanswers : Answers device answers) (queueHeaderSize : ℕ) (state : D)
    (hcur : cursors view.id.slot view.id.queue < 2 ^ 16) (h : Resting view cursors used s) :
    Behaves view cursors (fun reply t ↦ CallOutcome view cursors used answers s reply.2 t)
      (takeEntry device view queueHeaderSize state (availIdx view (view.memory s))) s := by
  have hcur' : view.cursor s = cursors view.id.slot view.id.queue := congrFun₂ h.processed_eq _ _
  have hzero : pending view s = 0 ↔ view.cursor s = availIdx view (view.memory s) :=
    pending_eq_zero_iff (hcur'.trans_lt hcur)
  refine (ensures_getProcessed_kept h).bind fun processed t ⟨hasked, ht, hkeeps, hread⟩ ↦ ?_
  subst hasked
  have hheads : headsTaken (walkLog t) = headsTaken (walkLog s) := by
    rw [hread.walkLog_eq, headsTaken_append]
    exact append_nil _
  have hstores : ringStores (walkLog t) = ringStores (walkLog s) := by
    rw [hread.walkLog_eq, ringStores_append]
    exact append_nil _
  split_ifs with hempty
  · exact .inl ⟨.inl (hzero.mpr (hcur'.trans hempty)), rfl, ht, hheads, hstores⟩
  have hpos : 0 < pending view s := by
    rw [Nat.pos_iff_ne_zero, Ne, hzero, hcur']
    exact hempty
  have hkept := hkeeps _ (h.kept hpos)
  -- The device model's answer, and that asking for it touches nothing.
  have hready : Behaves view cursors
      (fun ready u ↦ answers ready ∧ Kept view cursors (pendingEntry view s 0) used u ∧
        Logged t [] u) (onDevice view (device.queueHasData state view.id.queue)) t := by
    have hasked := onDevice_kept (hdev.hasData state view.id.queue)
      (fun ring _ ↦ .inl (Nat.zero_le _)) (fun a _ hhigh ↦ absurd hhigh (Nat.not_lt_zero a)) hkept
    have hanswered : Ensures exec (DriverRely view) anyOp (fun ready _ ↦ answers ready)
        (onDevice view (device.queueHasData state view.id.queue)) t :=
      (hanswers state view.id.queue view.id.slot view.id.l2cpu t).restrict fun _ _ _ ↦ trivial
    refine (hasked.and hanswered).imp (fun _ _ hop ↦ hop.1) ?_
    rintro ready u ⟨⟨hu, hlogged⟩, hanswer⟩
    exact ⟨hanswer, hu, hlogged⟩
  refine hready.bind fun ready u ⟨hanswer, hu, hlogged⟩ ↦ ?_
  split_ifs with htrue
  · refine (consumeEntry_kept hlayout hdev queueHeaderSize state hcur hu).weaken
      fun reply v hconsumed ↦ ?_
    exact .inr ⟨hpos, hconsumed.after (hread.trans hlogged) rfl rfl⟩
  · rw [Bool.eq_false_of_not_eq_true htrue] at hanswer
    refine .inl ⟨.inr hanswer, rfl, hu.resting, ?_, ?_⟩
    · rw [hlogged.walkLog_eq, append_nil, hheads]
    · rw [hlogged.walkLog_eq, append_nil, hstores]

end Call

end Kept

end Bhx.Virtqueue
