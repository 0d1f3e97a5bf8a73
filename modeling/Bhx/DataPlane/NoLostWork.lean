import Bhx.DataPlane.DrainCompleteness
import Bhx.DataPlane.NotifyProtocol

/-!
# No notified entry is lost

The passes of the daemon next to the platform of `NotifyProtocol`. `Serving` is the invariant of a
pass. It has the accounts of all queues in order, the shadows as they were, and says of each queue
what the pass still owes it: the queue is on the list of hits, or it is caught up with what it had
to do (`goal`), or its byte is yet to be read and is set.

`collectPairs_serving` moves queues from the third case to the first two, `dispatchChain_serving`
takes a queue off the list, and `drainDirtyBitmap_serving` puts them together.
`drainDirtyBitmap_loses_nothing` states the result for any number of passes.
-/

set_option autoImplicit false

namespace Bhx.DataPlane

open SharedMemory Machine L1Layout Virtqueue List

variable {w : World} {op : Op}
variable {pair : ℕ × ℕ} (id : QueueId) {queue slot : ℕ} {D : Type}

/-- The slot and the index of a queue. -/
def pairOf (view : QueueView) : ℕ × ℕ := (view.id.slot, view.id.queue)

/-- What a pass owes a queue: it is on the list `todo`, or it is caught up and has taken its goal,
unless its byte is still to be read and is set. -/
def Due (goal : List ℕ) (todo remaining : List (ℕ × ℕ)) (view : QueueView) (w : World) : Prop :=
  pairOf view ∈ todo ∨ (Caught view w ∧ (goal <+: takenHeads view.id w ∨
    (pairOf view ∈ remaining ∧ dirtyByte w.l1 view.id.slot view.id.queue ≠ 0)))

/-- The invariant of a pass. -/
structure Serving (queues : List QueueView) (base : World) (goal : QueueView → List ℕ)
    (todo remaining : List (ℕ × ℕ)) (w : World) : Prop where
  tidy : Tidy queues w
  ledger : ∀ view ∈ queues, Ledger view w
  shadow : ∀ slot queue, ShadowKept slot queue base w
  published : ∀ view ∈ queues, goal view <+: publishedHeads view.id w
  due : ∀ view ∈ queues, Due (goal view) todo remaining view w

variable {queues : List QueueView} {base : World} {goal : QueueView → List ℕ} {view : QueueView}

section Preservation

variable {todo remaining : List (ℕ × ℕ)} {s s' : World}

theorem Due.platform {goal : List ℕ} (h : Due goal todo remaining view s)
    (hstep : Platform queues s s') : Due goal todo remaining view s' := by
  have htaken : takenHeads view.id s' = takenHeads view.id s := by
    rw [takenHeads, walkLog_of_interferes hstep.systemStep.interferes, takenHeads]
  rcases h with htodo | ⟨hcaught, hgoal | ⟨hremaining, hset⟩⟩
  · exact .inl htodo
  · exact .inr ⟨hstep.caught hcaught, .inl (htaken ▸ hgoal)⟩
  · exact .inr ⟨hstep.caught hcaught, .inr ⟨hremaining, hstep.dirtyByte_ne_zero _ _ hset⟩⟩

theorem Due.exec {goal : List ℕ} (h : Due goal todo remaining view s) (op : Op)
    (hdirty : dirtyByte (Machine.exec op s).2.l1 view.id.slot view.id.queue =
      dirtyByte s.l1 view.id.slot view.id.queue) :
    Due goal todo remaining view (Machine.exec op s).2 := by
  rcases h with htodo | ⟨hcaught, hgoal⟩
  · exact .inl htodo
  · have hcaught' := hcaught.exec op fun hset ↦ hdirty ▸ hset
    refine .inr ⟨hcaught', ?_⟩
    rcases hgoal with hgoal | ⟨hremaining, hset⟩
    · exact .inl (hgoal.trans (takenHeads_prefix_exec view.id op s))
    · exact .inr ⟨hremaining, hdirty ▸ hset⟩

theorem Due.mono {goal : List ℕ} {todo' remaining' : List (ℕ × ℕ)}
    (h : Due goal todo remaining view s) (htodo : pairOf view ∈ todo → pairOf view ∈ todo')
    (hremaining : pairOf view ∈ remaining → pairOf view ∈ remaining') :
    Due goal todo' remaining' view s := by
  rcases h with hin | ⟨hcaught, hgoal | ⟨hin, hset⟩⟩
  · exact .inl (htodo hin)
  · exact .inr ⟨hcaught, .inl hgoal⟩
  · exact .inr ⟨hcaught, .inr ⟨hremaining hin, hset⟩⟩

theorem Serving.platform (h : Serving queues base goal todo remaining s)
    (hstep : Platform queues s s') : Serving queues base goal todo remaining s' where
  tidy := (hstep.systemStep.obliged h.tidy).1
  ledger := fun view hview ↦
    (Processed.of_systemStep hstep.systemStep hview).ledger (h.ledger view hview)
  shadow := fun slot queue ↦ (h.shadow slot queue).trans (hstep.shadowKept slot queue)
  published := by
    intro view hview
    obtain ⟨new, hpublished, -⟩ := hstep.systemStep.moved view hview
    rw [hpublished]
    exact (h.published view hview).trans (prefix_append _ _)
  due := fun view hview ↦ (h.due view hview).platform hstep

/-- A hit on a queue that is not configured needs no dispatch. -/
theorem Serving.drop (h : Serving queues base goal (pair :: todo) remaining s)
    (hnone : ∀ view ∈ queues, pairOf view ≠ pair) : Serving queues base goal todo remaining s where
  tidy := h.tidy
  ledger := h.ledger
  shadow := h.shadow
  published := h.published
  due := by
    intro view hview
    refine (h.due view hview).mono (fun hmem ↦ ?_) id
    rcases mem_cons.mp hmem with heq | hmem
    · exact absurd heq (hnone view hview)
    · exact hmem

/-! ### Operations between the calls -/

/-- An operation that leaves guest memory, the cursors, the dirty bytes and the shadows alone, and
that takes and posts no head. -/
structure Aloof (op : Op) : Prop where
  dram_eq : ∀ w, (op.apply w).dram = w.dram
  processed_eq : ∀ w, (op.apply w).processed = w.processed
  dirty_eq : ∀ w slot queue, slot < numSlots → queue < maxQueuesPerSlot →
    dirtyByte (op.apply w).l1 slot queue = dirtyByte w.l1 slot queue
  shadow : ∀ w slot queue, ShadowKept slot queue w (op.apply w)
  taken_eq : ∀ id answer, (walkStep (.did op answer)).toList.filterMap (headTaken id) = []
  posted_eq : ∀ id answer, (walkStep (.did op answer)).toList.filterMap (headPosted id) = []

theorem aloof_of_apply_eq (happly : ∀ w, op.apply w = w)
    (htaken : ∀ id answer, (walkStep (.did op answer)).toList.filterMap (headTaken id) = [])
    (hposted : ∀ id answer, (walkStep (.did op answer)).toList.filterMap (headPosted id) = []) :
    Aloof op where
  dram_eq := fun w ↦ by rw [happly]
  processed_eq := fun w ↦ by rw [happly]
  dirty_eq := fun w _ _ _ _ ↦ by rw [happly]
  shadow := fun w _ _ _ _ _ ↦ by rw [happly]
  taken_eq := htaken
  posted_eq := hposted

theorem aloof_l1Load (addr size : ℕ) : Aloof (.l1Load addr size) :=
  aloof_of_apply_eq (fun _ ↦ rfl) (fun _ _ ↦ rfl) fun _ _ ↦ rfl

theorem aloof_plicStore {l2cpu value : ℕ} : Aloof (.plicStore l2cpu value) :=
  aloof_of_apply_eq (fun _ ↦ rfl) (fun _ _ ↦ rfl) fun _ _ ↦ rfl

theorem aloof_getProcessed {slot queue : ℕ} : Aloof (.getProcessed slot queue) :=
  aloof_of_apply_eq (fun _ ↦ rfl) (fun _ _ ↦ rfl) fun _ _ ↦ rfl

theorem aloof_availIdx (addr size : ℕ) : Aloof (.ringLoad id .availIdx addr size) :=
  aloof_of_apply_eq (fun _ ↦ rfl) (fun _ _ ↦ rfl) fun _ _ ↦ rfl

theorem aloof_usedIdx {addr size : ℕ} : Aloof (.ringLoad id .usedIdx addr size) :=
  aloof_of_apply_eq (fun _ ↦ rfl) (fun _ _ ↦ rfl) fun _ _ ↦ rfl

/-- A store of L1 between the dirty bytes and the shadows. -/
theorem aloof_l1Store {addr size value : ℕ} (hlow : ctrlBase + ctrlOffProcessed ≤ addr)
    (hhigh : addr + size ≤ shadowBase) : Aloof (.l1Store addr size value) where
  dram_eq := fun _ ↦ rfl
  processed_eq := fun _ ↦ rfl
  dirty_eq := by
    intro w slot queue hslot hqueue
    refine readLE_writeLE_of_apart (.inr ?_)
    simp only [dirtyByteAddr, ctrlBase, ctrlOffDirty, ctrlOffProcessed, maxQueuesPerSlot,
      numSlots] at *
    omega
  shadow := by
    intro w slot queue a ha _
    refine writeLE_apply_of_not_mem ?_
    unfold shadowQueueAddr at ha
    omega
  taken_eq := fun _ _ ↦ rfl
  posted_eq := fun _ _ ↦ rfl

theorem Aloof.processed (hop : Aloof op) (view : QueueView) (s : World) :
    Processed view [] s (exec op s).2 := by
  refine ⟨?_, ?_, ?_⟩
  · rw [takenHeads, walkLog_exec, filterMap_append, hop.taken_eq, takenHeads]
  · rw [postedHeads, walkLog_exec, filterMap_append, hop.posted_eq, postedHeads]
  · have hshifted : Shifted view 0 s (exec op s).2 :=
      shifted_of_dram_eq view (hop.dram_eq s) (hop.processed_eq s)
    exact hshifted.moved_zero (publishedHeads_exec _ _ _)

theorem Serving.aloof (h : Serving queues base goal todo remaining s) (hop : Aloof op)
    (hbounds : ∀ view ∈ queues, view.id.slot < numSlots ∧ view.id.queue < maxQueuesPerSlot) :
    Serving queues base goal todo remaining (exec op s).2 where
  tidy := h.tidy.of_dram_eq (hop.dram_eq s) (hop.processed_eq s)
  ledger := fun view hview ↦ (hop.processed view s).ledger (h.ledger view hview)
  shadow := fun slot queue ↦ (h.shadow slot queue).trans (hop.shadow s slot queue)
  published := fun view hview ↦ (publishedHeads_exec view.id op s).symm ▸ h.published view hview
  due := fun view hview ↦ (h.due view hview).exec op
    (hop.dirty_eq s _ _ (hbounds view hview).1 (hbounds view hview).2)

theorem ensures_aloof {α : Type} {program : Prog α} {post : α → Prop}
    (hprog : program.Always Aloof post)
    (hbounds : ∀ view ∈ queues, view.id.slot < numSlots ∧ view.id.queue < maxQueuesPerSlot)
    (h : Serving queues base goal todo remaining s) :
    Ensures exec (Platform queues) anyOp
      (fun result t ↦ post result ∧ Serving queues base goal todo remaining t) program s := by
  have hinvariant := (Ensures.ofAlways hprog s).withInvariant (Serving queues base goal todo
    remaining) h (fun _ _ ht hstep ↦ ht.platform hstep) fun _ _ ht hop ↦ ht.aloof hop hbounds
  exact hinvariant.imp (fun _ _ _ ↦ trivial) fun _ _ ht ↦ ht

/-! ### Collecting -/

theorem dirtyByteAddr_inj {slot' queue' : ℕ} (hqueue : queue < maxQueuesPerSlot)
    (hqueue' : queue' < maxQueuesPerSlot)
    (h : dirtyByteAddr slot queue = dirtyByteAddr slot' queue') :
    slot = slot' ∧ queue = queue' := by
  unfold dirtyByteAddr maxQueuesPerSlot at *
  omega

/-- The clear of a set byte puts its queue on the list. -/
theorem Serving.clear (h : Serving queues base goal todo (pair :: remaining) s)
    (hbounds : ∀ view ∈ queues, view.id.slot < numSlots ∧ view.id.queue < maxQueuesPerSlot)
    (hslot : pair.1 < numSlots) (hqueue : pair.2 < maxQueuesPerSlot) :
    Serving queues base goal (todo ++ [pair]) remaining
      (exec (.l1Store (dirtyByteAddr pair.1 pair.2) 1 0) s).2 where
  tidy := h.tidy.of_dram_eq rfl rfl
  ledger := by
    intro view hview
    have hproc : Processed view [] s (exec (.l1Store (dirtyByteAddr pair.1 pair.2) 1 0) s).2 := by
      refine ⟨?_, ?_, (shifted_of_dram_eq view rfl rfl).moved_zero (publishedHeads_exec _ _ _)⟩
      · rw [takenHeads, walkLog_exec, filterMap_append, takenHeads]
        rfl
      · rw [postedHeads, walkLog_exec, filterMap_append, postedHeads]
        rfl
    exact hproc.ledger (h.ledger view hview)
  shadow := by
    intro slot queue
    refine (h.shadow slot queue).trans fun a ha _ ↦ writeLE_apply_of_not_mem ?_
    simp only [shadowQueueAddr, shadowBase, dirtyByteAddr, ctrlBase, ctrlOffDirty,
      maxQueuesPerSlot, numSlots] at *
    omega
  published := fun view hview ↦ (publishedHeads_exec view.id _ s).symm ▸ h.published view hview
  due := by
    intro view hview
    by_cases hpair : pairOf view = pair
    · exact .inl (hpair ▸ mem_append_right _ mem_cons_self)
    · have hapart : dirtyByteAddr pair.1 pair.2 ≠ dirtyByteAddr view.id.slot view.id.queue := by
        intro heq
        obtain ⟨hslot', hqueue'⟩ := dirtyByteAddr_inj hqueue (hbounds view hview).2 heq
        exact hpair (Prod.ext hslot'.symm hqueue'.symm)
      have hdue := (h.due view hview).exec (.l1Store (dirtyByteAddr pair.1 pair.2) 1 0)
        (readLE_writeLE_of_apart (by unfold Apart; omega))
      refine hdue.mono (fun hmem ↦ mem_append_left _ hmem) fun hmem ↦ ?_
      exact (mem_cons.mp hmem).resolve_left hpair

theorem collectPairs_serving (remaining todo : List (ℕ × ℕ))
    (hbounds : ∀ view ∈ queues, view.id.slot < numSlots ∧ view.id.queue < maxQueuesPerSlot)
    (hpairs : ∀ pair ∈ remaining, pair.1 < numSlots ∧ pair.2 < maxQueuesPerSlot)
    (h : Serving queues base goal todo remaining w) :
    Ensures exec (Platform queues) anyOp
      (fun hits t ↦ (∀ pair ∈ hits, pair ∈ remaining) ∧
        Serving queues base goal (todo ++ hits) [] t) (collectPairs remaining) w := by
  induction remaining generalizing todo w with
  | nil =>
    refine ⟨fun pair hmem ↦ hmem, ?_⟩
    rwa [append_nil]
  | cons pair remaining ih =>
    obtain ⟨hslot, hqueue⟩ := hpairs pair mem_cons_self
    have hpairs' : ∀ pair ∈ remaining, pair.1 < numSlots ∧ pair.2 < maxQueuesPerSlot :=
      fun other hmem ↦ hpairs other (mem_cons_of_mem pair hmem)
    rw [collectPairs, Program.perform_bind]
    intro w' hstep
    refine ⟨trivial, ?_⟩
    have hs := (h.platform hstep).aloof (aloof_l1Load (dirtyByteAddr pair.1 pair.2) 1) hbounds
    set s := (exec (.l1Load (dirtyByteAddr pair.1 pair.2) 1) w').2
    have hanswer : (exec (.l1Load (dirtyByteAddr pair.1 pair.2) 1) w').1 =
        dirtyByte s.l1 pair.1 pair.2 := rfl
    beta_reduce
    split_ifs with hdirty
    · intro s' hstep'
      refine ⟨trivial, ?_⟩
      have hu := (hs.platform hstep').clear hbounds hslot hqueue
      refine (ih (todo ++ [pair]) hpairs' hu).bind ?_
      rintro hits t ⟨hsub, ht⟩
      refine ⟨?_, ?_⟩
      · intro other hmem
        rcases mem_cons.mp hmem with rfl | hmem
        · exact mem_cons_self
        · exact mem_cons_of_mem _ (hsub other hmem)
      · rwa [append_assoc, singleton_append] at ht
    · -- The byte was clear when read, so the queue has nothing to catch up with.
      have hs' : Serving queues base goal todo remaining s := by
        refine ⟨hs.tidy, hs.ledger, hs.shadow, hs.published, fun view hview ↦ ?_⟩
        rcases hs.due view hview with htodo | ⟨hcaught, hgoal | ⟨hmem, hset⟩⟩
        · exact .inl htodo
        · exact .inr ⟨hcaught, .inl hgoal⟩
        · rcases mem_cons.mp hmem with rfl | hmem
          · exact absurd hset hdirty
          · exact .inr ⟨hcaught, .inr ⟨hmem, hset⟩⟩
      refine (ih todo hpairs' hs').weaken fun hits t ⟨hsub, ht⟩ ↦ ?_
      exact ⟨fun other hmem ↦ mem_cons_of_mem _ (hsub other hmem), ht⟩

end Preservation

/-! ### Draining -/

/-- Some queue has had at least this many entries taken. -/
def Overrun (queues : List QueueView) (passes : ℕ) (w : World) : Prop :=
  ∃ view ∈ queues, Ledger view w ∧ passes ≤ (takenHeads view.id w).length

section Drain

variable {D : Type} {device : VirtioDevice D} {hits : List (ℕ × ℕ)} {registry : Registry D}

/-- What holds from the read of `avail.idx` in `s` on: the shadows, what is owed to the other
queues, and, when nothing was pending, that the queue is caught up. -/
structure MidDrain (queues : List QueueView) (base : World) (goal : QueueView → List ℕ)
    (hits : List (ℕ × ℕ)) (view : QueueView) (s t : World) : Prop where
  shadow : ∀ slot queue, ShadowKept slot queue base t
  published : ∀ other ∈ queues, goal other <+: publishedHeads other.id t
  others : ∀ other ∈ queues, other ≠ view → Due (goal other) hits [] other t
  self : pending view s = 0 → Due (goal view) [] [] view t

theorem MidDrain.platform {s t t' : World} (h : MidDrain queues base goal hits view s t)
    (hstep : Platform queues t t') : MidDrain queues base goal hits view s t' where
  shadow := fun slot queue ↦ (h.shadow slot queue).trans (hstep.shadowKept slot queue)
  published := by
    intro other hother
    obtain ⟨new, hpublished, -⟩ := hstep.systemStep.moved other hother
    rw [hpublished]
    exact (h.published other hother).trans (prefix_append _ _)
  others := fun other hother hne ↦ (h.others other hother hne).platform hstep
  self := fun hzero ↦ (h.self hzero).platform hstep

theorem MidDrain.touches {s t : World} {cursors : ℕ → ℕ → ℕ}
    (h : MidDrain queues base goal hits view s t) (hop : Touches view cursors op t) :
    MidDrain queues base goal hits view s (exec op t).2 where
  shadow := fun slot queue ↦ (h.shadow slot queue).trans fun a _ _ ↦ congrFun hop.l1 a
  published := fun other hother ↦
    (publishedHeads_exec other.id op t).symm ▸ h.published other hother
  others := fun other hother hne ↦ (h.others other hother hne).exec op
    (congrArg (dirtyByte · _ _) hop.l1)
  self := fun hzero ↦ (h.self hzero).exec op (congrArg (dirtyByte · _ _) hop.l1)

variable (harranged : Arranged queues) (hdevice : WritesInside device)
  (hready : Answers device (· = true))
  (hbounds : ∀ view ∈ queues, view.id.slot < numSlots ∧ view.id.queue < maxQueuesPerSlot)

include harranged hdevice hready hbounds

/-- A call on a queue of the list takes an entry, or finds nothing pending and takes the queue off
the list. -/
theorem processOneChainForQueue_serving (hview : view ∈ queues) (queueHeaderSize : ℕ) (state : D)
    (h : Serving queues base goal (pairOf view :: hits) [] w) :
    Ensures exec (Platform queues) anyOp
      (fun reply t ↦
        (reply.2 = true ∧ Serving queues base goal (pairOf view :: hits) [] t ∧
          (takenHeads view.id t).length = (takenHeads view.id w).length + 1) ∨
        (reply.2 = false ∧ Serving queues base goal hits [] t))
      (processOneChainForQueue device view queueHeaderSize state) w := by
  intro w' hstep
  refine ⟨trivial, ?_⟩
  have hw' := h.platform hstep
  have hs := hw'.aloof (aloof_availIdx view.id view.availIdxAddr 2) hbounds
  set s := (exec (.ringLoad view.id .availIdx view.availIdxAddr 2) w').2
  have htaken : takenHeads view.id s = takenHeads view.id w := by
    have hplatform := (Processed.of_systemStep hstep.systemStep hview).taken_eq
    have hload := ((aloof_availIdx view.id view.availIdxAddr 2).processed view w').taken_eq
    rw [append_nil] at hplatform hload
    exact hload.trans hplatform
  have hmid : MidDrain queues base goal hits view s s := by
    refine ⟨hs.shadow, hs.published, fun other hother hne ↦ ?_, fun hzero ↦ ?_⟩
    · refine (hs.due other hother).mono (fun hmem ↦ ?_) fun hmem ↦ hmem
      rcases mem_cons.mp hmem with heq | hmem
      · have hid := Prod.ext_iff.mp heq
        exact absurd (harranged.eq_of_id view hview other hother hid.1 hid.2) hne
      · exact hmem
    · -- Nothing is pending, so everything published has been taken.
      have hall := (hs.ledger view hview).taken_eq_published hzero
      exact .inr ⟨.inr (hall ▸ notifiedHeads_prefix_published view.id s),
        .inl (hall ▸ hs.published view hview)⟩
  have htake := takeEntry_processed harranged hview hdevice hready queueHeaderSize state hs.tidy
  have hboth := (htake.restrict fun _ _ (hplatform : Platform queues _ _) ↦
    hplatform.systemStep).withInvariant (MidDrain queues base goal hits view s) hmid
    (fun _ _ ht hplatform ↦ ht.platform hplatform) fun _ _ ht hop ↦ ht.touches hop.1
  refine hboth.mono (fun _ _ hplatform ↦ hplatform) (fun _ _ _ ↦ trivial) ?_
  rintro reply t ⟨⟨htidy, hothers, houtcome⟩, hmid'⟩
  have hledgers : (∃ heads, Processed view heads s t) → ∀ other ∈ queues, Ledger other t := by
    rintro ⟨heads, hself⟩ other hother
    by_cases heq : other = view
    · rw [heq]
      exact hself.ledger (hs.ledger view hview)
    · exact (hothers other hother heq).ledger (hs.ledger other hother)
  rcases houtcome with ⟨hzero, hfalse, hself⟩ | ⟨htrue, head, hself⟩
  · refine .inr ⟨hfalse, htidy, hledgers ⟨[], hself⟩, hmid'.shadow, hmid'.published, ?_⟩
    intro other hother
    by_cases heq : other = view
    · rw [heq]
      exact (hmid'.self hzero).mono (fun hmem ↦ absurd hmem not_mem_nil) fun hmem ↦ hmem
    · exact hmid'.others other hother heq
  · refine .inl ⟨htrue, ⟨htidy, hledgers ⟨[head], hself⟩, hmid'.shadow, hmid'.published, ?_⟩, ?_⟩
    · intro other hother
      by_cases heq : other = view
      · rw [heq]
        exact .inl mem_cons_self
      · exact (hmid'.others other hother heq).mono (mem_cons_of_mem _) fun hmem ↦ hmem
    · rw [hself.taken_eq, htaken, length_append, length_singleton]

/-- A drain that ends has taken the queue off the list, and one that does not has taken an entry on
every pass. -/
theorem drainQueue_serving (hview : view ∈ queues) {queueHeaderSize : ℕ} (passes : ℕ)
    (posted : Bool)
    (state : D) (h : Serving queues base goal (pairOf view :: hits) [] w) :
    Ensures exec (Platform queues) anyOp
      (fun drained t ↦ (drained.2.1 = true ∧ Serving queues base goal hits [] t) ∨
        (drained.2.1 = false ∧ Ledger view t ∧
          (takenHeads view.id w).length + passes ≤ (takenHeads view.id t).length))
      (drainQueue device view queueHeaderSize passes posted state) w := by
  induction passes generalizing posted state w with
  | zero => exact .inr ⟨rfl, h.ledger view hview, le_rfl⟩
  | succ passes ih =>
    refine (processOneChainForQueue_serving harranged hdevice hready hbounds hview
      queueHeaderSize state h).bind ?_
    rintro ⟨state', posted'⟩ t (⟨htrue, ht, hcount⟩ | ⟨hfalse, ht⟩)
    · subst htrue
      refine (ih true state' ht).weaken ?_
      rintro drained u (hdone | ⟨hnot, hledger, hbound⟩)
      · exact .inl hdone
      · exact .inr ⟨hnot, hledger, by omega⟩
    · subst hfalse
      exact .inl ⟨rfl, ht⟩

omit harranged hdevice hready hbounds in
theorem aloof_announce (entry : RegEntry D) (view : QueueView) (drained : D × Bool × Bool)
    (hslot : entry.slot < numSlots) :
    (announce entry view drained).Always Aloof
      fun dispatched ↦ dispatched.returned = drained.2.1 := by
  have hstore : ∀ status, Aloof
      (.l1Store (slotRegsBase entry.slot + mmioInterruptStatus) 4 (1 ||| status)) := by
    intro status
    refine aloof_l1Store ?_ ?_
    · simp only [ctrlBase, ctrlOffProcessed, slotRegsBase, regsBase]
      omega
    · simp only [slotRegsBase, regsBase, regsPerDev, mmioInterruptStatus, shadowBase, numSlots] at *
      omega
  unfold announce
  split_ifs with hdrained
  · rw [Bool.and_eq_true] at hdrained
    exact ⟨aloof_l1Load _ _, fun status ↦ ⟨hstore status, fun _ ↦ ⟨aloof_plicStore, fun _ ↦
      ⟨aloof_plicStore, fun _ ↦ ⟨aloof_usedIdx _, fun _ ↦ hdrained.1.symm⟩⟩⟩⟩⟩
  · rfl

omit harranged hdevice hready hbounds in
theorem aloof_publishCursor (usedIdx : Option ℕ) (hslot : slot < numSlots)
    (hqueue : queue < maxQueuesPerSlot) : (publishCursor slot queue usedIdx).Performs Aloof := by
  cases usedIdx with
  | none => trivial
  | some usedIdx =>
    refine ⟨aloof_getProcessed, fun cursor ↦ ⟨aloof_l1Store ?_ ?_, fun _ ↦ trivial⟩⟩
    · simp only [processedCursorAddr]
      omega
    · simp only [processedCursorAddr, ctrlBase, ctrlOffProcessed, maxQueuesPerSlot, numSlots,
        shadowBase] at *
      omega

/-- A dispatch that returns has taken its queue off the list. -/
theorem dispatchChain_serving (hvalid : Registry.Valid registry)
    (hqueues : configuredQueues registry base.l1 = queues) (passes : ℕ) {entry : RegEntry D}
    (hentry : entry ∈ registry) (hqueue : queue < maxQueuesPerSlot)
    (h : Serving queues base goal ((entry.slot, queue) :: hits) [] w) :
    Ensures exec (Platform queues) anyOp
      (fun dispatched t ↦ (dispatched.returned = true ∧ Serving queues base goal hits [] t) ∨
        (dispatched.returned = false ∧ Overrun queues passes t))
      (dispatchChain device passes entry queue) w := by
  have hslot := hvalid.slot_lt entry hentry
  -- A queue on the list at this slot and index is the one that the dispatch configures.
  have hconf : ∀ view ∈ queues, pairOf view = (entry.slot, queue) →
      queue < entry.numQueues ∧ configure entry.slot entry.l2cpu queue
        (shadowWords base.l1 entry.slot queue) = some view := by
    intro view hview hpair
    rw [← hqueues, mem_configuredQueues] at hview
    obtain ⟨other, hother, q, hq, -, hconfigure⟩ := hview
    have hid := (configure_spec hconfigure).id_eq
    rw [pairOf, hid, Prod.mk.injEq] at hpair
    obtain ⟨hsame, rfl⟩ := hpair
    have heq : other = entry := by
      have hget := hvalid.get_eq hother
      change other.slot = entry.slot at hsame
      rw [hsame, hvalid.get_eq hentry, Option.some.injEq] at hget
      exact hget.symm
    subst heq
    exact ⟨hq, hconfigure⟩
  rw [dispatchChain]
  split_ifs with hrange
  · refine .inl ⟨rfl, h.drop fun view hview hpair ↦ ?_⟩
    exact absurd (hconf view hview hpair).1 (Nat.not_lt.mpr hrange)
  · have hread := readShadow_ensures (fun _ _ (hstep : Platform queues _ _) ↦
      hstep.shadowKept entry.slot queue) (fun _ _ ht hstep ↦ Serving.platform ht hstep)
      (fun _ addr size ht ↦ ht.aloof (aloof_l1Load addr size) hbounds) h
    refine (hread.imp (fun _ _ _ ↦ trivial) fun _ _ hpost ↦ hpost).bind ?_
    rintro words s ⟨hwords, hs⟩
    rw [shadowWords_eq (h.shadow entry.slot queue)] at hwords
    cases hview : configure entry.slot entry.l2cpu queue words with
    | none =>
      refine .inl ⟨rfl, hs.drop fun view hview' hpair ↦ ?_⟩
      rw [hwords, (hconf view hview' hpair).2] at hview
      exact absurd hview (by simp)
    | some view =>
      have hmem : view ∈ queues := by
        rw [← hqueues, mem_configuredQueues]
        exact ⟨entry, hentry, queue, Nat.lt_of_not_le hrange, hqueue, hwords ▸ hview⟩
      have hpair : (entry.slot, queue) = pairOf view := by
        rw [pairOf, (configure_spec hview).id_eq]
      rw [hpair] at hs
      refine (drainQueue_serving harranged hdevice hready hbounds hmem passes false entry.device
        hs).bind ?_
      rintro drained t (⟨hended, ht⟩ | ⟨hnot, hledger, hbound⟩)
      · refine (ensures_aloof (aloof_announce entry view drained hslot) hbounds ht).weaken ?_
        rintro dispatched u ⟨hreturned, hu⟩
        exact .inl ⟨hreturned.trans hended, hu⟩
      · rw [announce, hnot, Bool.false_and, if_neg Bool.false_ne_true]
        exact .inr ⟨rfl, view, hmem, hledger, by omega⟩

/-- The dispatches of a pass take every hit off the list. -/
theorem drainHits_serving (passes : ℕ) (hits : List (ℕ × ℕ)) (hvalid : Registry.Valid registry)
    (hqueues : configuredQueues registry base.l1 = queues)
    (hpairs : ∀ pair ∈ hits, pair.2 < maxQueuesPerSlot) (h : Serving queues base goal hits [] w) :
    Ensures exec (Platform queues) anyOp
      (fun drained t ↦
        (drained.returned = true ∧ Registry.Valid drained.registry ∧
          configuredQueues drained.registry base.l1 = queues ∧ Serving queues base goal [] [] t) ∨
        (drained.returned = false ∧ Overrun queues passes t))
      (drainHits device passes hits registry) w := by
  induction hits generalizing registry w with
  | nil => exact .inl ⟨rfl, hvalid, hqueues, h⟩
  | cons pair hits ih =>
    obtain ⟨slot, queue⟩ := pair
    have hqueue : queue < maxQueuesPerSlot := hpairs _ mem_cons_self
    have hpairs' : ∀ pair ∈ hits, pair.2 < maxQueuesPerSlot := fun pair hmem ↦
      hpairs pair (mem_cons_of_mem _ hmem)
    rw [drainHits]
    cases hget : Registry.get registry slot with
    | none =>
      refine ih hvalid hqueues hpairs' (h.drop fun view hview hpair ↦ ?_)
      -- A configured queue has an entry in the registry.
      rw [← hqueues, mem_configuredQueues] at hview
      obtain ⟨entry, hentry, q, -, -, hconfigure⟩ := hview
      rw [pairOf, (configure_spec hconfigure).id_eq, Prod.mk.injEq] at hpair
      have hslot : entry.slot = slot := hpair.1
      rw [← hslot, hvalid.get_eq hentry] at hget
      exact absurd hget (by simp)
    | some entry =>
      obtain ⟨hentry, rfl⟩ := Registry.get_mem hget
      refine (dispatchChain_serving harranged hdevice hready hbounds hvalid hqueues passes hentry
        hqueue h).bind ?_
      rintro dispatched t (⟨hreturned, ht⟩ | ⟨hnot, hoverrun⟩)
      · rw [if_pos hreturned]
        have hslot := hvalid.slot_lt entry hentry
        refine (ensures_aloof (aloof_publishCursor dispatched.usedIdx hslot hqueue) hbounds ht).bind
          fun _ u ⟨_, hu⟩ ↦ ?_
        exact ih (hvalid.setDevice _ _) (configuredQueues_setDevice.trans hqueues)
          hpairs' hu
      · rw [if_neg (by rw [hnot]; exact Bool.false_ne_true)]
        exact .inr ⟨rfl, hoverrun⟩

/-! ### Passes -/

omit harranged hdevice hready hbounds in
/-- What holds between passes. -/
def Steady (queues : List QueueView) (base w : World) : Prop :=
  Serving queues base (fun _ ↦ []) [] [] w

omit harranged hdevice hready hbounds in
theorem Steady.caught (h : Steady queues base w) (hview : view ∈ queues) : Caught view w :=
  ((h.due view hview).resolve_left not_mem_nil).1

omit harranged hdevice hready hbounds in
/-- A pass starts out owing every queue what was notified before it. -/
theorem Steady.serving {pairs : List (ℕ × ℕ)} (h : Steady queues base w)
    (hpairs : ∀ view ∈ queues, pairOf view ∈ pairs) :
    Serving queues base (fun view ↦ notifiedHeads view.id w) [] pairs w where
  tidy := h.tidy
  ledger := h.ledger
  shadow := h.shadow
  published := fun view _ ↦ notifiedHeads_prefix_published view.id w
  due := by
    intro view hview
    have hcaught := h.caught hview
    rcases hcaught with hset | htaken
    · exact .inr ⟨.inl hset, .inr ⟨hpairs view hview, hset⟩⟩
    · exact .inr ⟨.inr htaken, .inl htaken⟩

omit harranged hdevice hready hbounds in
theorem Serving.steady (h : Serving queues base goal [] [] w) :
    Steady queues base w ∧ ∀ view ∈ queues, goal view <+: takenHeads view.id w := by
  have hdone : ∀ view ∈ queues, Caught view w ∧ goal view <+: takenHeads view.id w := by
    intro view hview
    obtain ⟨hcaught, hgoal | ⟨hmem, -⟩⟩ := (h.due view hview).resolve_left not_mem_nil
    · exact ⟨hcaught, hgoal⟩
    · exact absurd hmem not_mem_nil
  refine ⟨⟨h.tidy, h.ledger, h.shadow, fun _ _ ↦ nil_prefix, fun view hview ↦ ?_⟩,
    fun view hview ↦ (hdone view hview).2⟩
  exact .inr ⟨(hdone view hview).1, .inl nil_prefix⟩

/-- A pass that returns has taken everything notified before it. -/
theorem drainDirtyBitmap_serving (passes : ℕ) (hvalid : Registry.Valid registry)
    (hqueues : configuredQueues registry base.l1 = queues) (h : Steady queues base w) :
    Ensures exec (Platform queues) anyOp
      (fun drained t ↦
        (drained.returned = true ∧ Registry.Valid drained.registry ∧
          configuredQueues drained.registry base.l1 = queues ∧ Steady queues base t ∧
          ∀ view ∈ queues, notifiedHeads view.id w <+: takenHeads view.id t) ∨
        (drained.returned = false ∧ Overrun queues passes t))
      (drainDirtyBitmap device passes registry) w := by
  set pairs := (registry.map fun entry ↦ (entry.slot, entry.numQueues)).flatMap slotPairs
  have hmem : ∀ pair, pair ∈ pairs ↔ ∃ entry ∈ registry, entry.slot = pair.1 ∧
      pair.2 < entry.numQueues ∧ pair.2 < maxQueuesPerSlot := by
    intro pair
    simp only [pairs, slotPairs, flatMap_map, mem_flatMap, mem_map, mem_range,
      lt_min_iff, Prod.ext_iff]
    constructor
    · rintro ⟨entry, hentry, q, hq, hslot, rfl⟩
      exact ⟨entry, hentry, hslot, hq⟩
    · rintro ⟨entry, hentry, hslot, hq⟩
      exact ⟨entry, hentry, pair.2, hq, hslot, rfl⟩
  have hpairs : ∀ pair ∈ pairs, pair.1 < numSlots ∧ pair.2 < maxQueuesPerSlot := by
    intro pair hpair
    obtain ⟨entry, hentry, hslot, -, hq⟩ := (hmem pair).mp hpair
    exact ⟨hslot ▸ hvalid.slot_lt entry hentry, hq⟩
  have hlisted : ∀ view ∈ queues, pairOf view ∈ pairs := by
    intro view hview
    rw [← hqueues, mem_configuredQueues] at hview
    obtain ⟨entry, hentry, q, hq, hq', hconfigure⟩ := hview
    rw [hmem, pairOf, (configure_spec hconfigure).id_eq]
    exact ⟨entry, hentry, rfl, hq, hq'⟩
  refine (collectPairs_serving pairs [] hbounds hpairs (h.serving hlisted)).bind ?_
  rintro hits t ⟨hsub, ht⟩
  refine (drainHits_serving harranged hdevice hready hbounds passes hits hvalid hqueues
    (fun pair hpair ↦ (hpairs pair (hsub pair hpair)).2) ht).weaken ?_
  rintro drained u (⟨hreturned, hvalid', hqueues', hu⟩ | hoverrun)
  · exact .inl ⟨hreturned, hvalid', hqueues', hu.steady⟩
  · exact .inr hoverrun

theorem drainRepeatedly_serving (passes count : ℕ) (hvalid : Registry.Valid registry)
    (hqueues : configuredQueues registry base.l1 = queues) (h : Steady queues base w) :
    Ensures exec (Platform queues) anyOp
      (fun drained t ↦
        (drained.returned = true ∧ Registry.Valid drained.registry ∧
          configuredQueues drained.registry base.l1 = queues ∧ Steady queues base t) ∨
        (drained.returned = false ∧ Overrun queues passes t))
      (drainRepeatedly device passes count registry) w := by
  induction count generalizing registry w with
  | zero => exact .inl ⟨rfl, hvalid, hqueues, h⟩
  | succ count ih =>
    refine (drainDirtyBitmap_serving harranged hdevice hready hbounds passes hvalid hqueues h).bind
      ?_
    rintro drained t (⟨hreturned, hvalid', hqueues', ht, -⟩ | ⟨hnot, hoverrun⟩)
    · rw [if_pos hreturned]
      exact ih hvalid' hqueues' ht
    · rw [if_neg (by rw [hnot]; exact Bool.false_ne_true)]
      exact .inr ⟨hnot, hoverrun⟩

end Drain

/-! ### The result -/

theorem arranged_configuredQueues {registry : Registry D} (hvalid : Registry.Valid registry)
    {l1 : Bytes}
    (hused : ∀ view ∈ configuredQueues registry l1, ∀ other ∈ configuredQueues registry l1,
      other.id.l2cpu = view.id.l2cpu → view.UsedApartFrom other) :
    Arranged (configuredQueues registry l1) where
  used_apart := hused
  eq_of_id := by
    intro view hview other hother hslot hqueue
    obtain ⟨entry, hentry, q, -, -, hconfigure⟩ := mem_configuredQueues.mp hview
    obtain ⟨entry', hentry', q', -, -, hconfigure'⟩ := mem_configuredQueues.mp hother
    rw [(configure_spec hconfigure).id_eq, (configure_spec hconfigure').id_eq] at hslot hqueue
    change entry'.slot = entry.slot at hslot
    change q' = q at hqueue
    have heq : entry' = entry := by
      have hget := hvalid.get_eq hentry'
      rw [hslot, hvalid.get_eq hentry, Option.some.injEq] at hget
      exact hget.symm
    rw [heq, hqueue, hconfigure, Option.some.injEq] at hconfigure'
    exact hconfigure'.symm

theorem configuredQueues_bounds {registry : Registry D} (hvalid : Registry.Valid registry)
    (l1 : Bytes) :
    ∀ view ∈ configuredQueues registry l1,
      view.id.slot < numSlots ∧ view.id.queue < maxQueuesPerSlot := by
  intro view hview
  obtain ⟨entry, hentry, q, -, hq, hconfigure⟩ := mem_configuredQueues.mp hview
  rw [(configure_spec hconfigure).id_eq]
  exact ⟨hvalid.slot_lt entry hentry, hq⟩

theorem Overrun.le_published {passes : ℕ} (h : Overrun queues passes w) :
    ∃ view ∈ queues, passes ≤ (publishedHeads view.id w).length := by
  obtain ⟨view, hview, hledger, hpasses⟩ := h
  exact ⟨view, hview, hpasses.trans hledger.taken_prefix_published.length_le⟩

/-- The dirty bytes lose no work. Assumes: registered slots whose queues' shadows are configured and
used rings apart from the other rings, a device model that is always ready and writes only inside
its buffers, accounts that are in order at the start, and between any two operations of the daemon
any number of steps of obliging drivers, of `handle_queue_notify` and of host code. Then every pass
returns, with any bound on the passes of a dispatch that exceeds the number of entries published to
one queue. At the end of a pass each queue's entries taken are the first ones published, each posted
once; they include every entry notified before the pass; so when nothing else was published, every
published entry has been processed exactly once. -/
theorem drainDirtyBitmap_loses_nothing {D : Type} {device : VirtioDevice D}
    (hdevice : WritesInside device) (hready : Answers device (· = true)) {registry : Registry D}
    (hvalid : Registry.Valid registry) {w : World}
    (hused : ∀ view ∈ configuredQueues registry w.l1, ∀ other ∈ configuredQueues registry w.l1,
      other.id.l2cpu = view.id.l2cpu → view.UsedApartFrom other)
    (htidy : Tidy (configuredQueues registry w.l1) w)
    (hledger : ∀ view ∈ configuredQueues registry w.l1, Ledger view w)
    (hcaught : ∀ view ∈ configuredQueues registry w.l1, Caught view w) {platform : Interference}
    (hplatform : ∀ clock s, Platform (configuredQueues registry w.l1) s (platform.act clock s))
    (passes count clock : ℕ) :
    let before := (drainRepeatedly device passes count registry).run exec platform.act clock w
    let after := (drainDirtyBitmap device passes before.result.registry).run exec platform.act
      before.clock before.state
    (∀ view ∈ configuredQueues registry w.l1,
      (publishedHeads view.id after.state).length < passes) →
    before.result.returned = true ∧ after.result.returned = true ∧
      ∀ view ∈ configuredQueues registry w.l1,
        postedHeads view.id after.state = takenHeads view.id after.state ∧
        takenHeads view.id after.state <+: publishedHeads view.id after.state ∧
        notifiedHeads view.id before.state <+: takenHeads view.id after.state ∧
        (publishedHeads view.id after.state = notifiedHeads view.id before.state →
          takenHeads view.id after.state = publishedHeads view.id after.state) := by
  intro before after hpasses
  have harranged := arranged_configuredQueues hvalid hused
  have hbounds := configuredQueues_bounds hvalid w.l1
  have hsteady : Steady (configuredQueues registry w.l1) w w :=
    ⟨htidy, hledger, fun _ _ _ _ _ ↦ rfl, fun _ _ ↦ nil_prefix, fun view hview ↦
      .inr ⟨hcaught view hview, .inl nil_prefix⟩⟩
  have hgrows : ∀ id, publishedHeads id before.state <+: publishedHeads id after.state := by
    intro id
    exact reverse_prefix.mpr ((history_suffix_run _ platform _ before.state).filterMap _)
  have hbefore := (drainRepeatedly_serving harranged hdevice hready hbounds passes count hvalid rfl
    hsteady).run hplatform clock
  rcases hbefore with ⟨hreturned, hvalid', hqueues, hmiddle⟩ | ⟨-, hoverrun⟩
  · have hafter := (drainDirtyBitmap_serving harranged hdevice hready hbounds passes hvalid' hqueues
      hmiddle).run hplatform before.clock
    rcases hafter with ⟨hreturned', -, -, hfinal, hnotified⟩ | ⟨-, hoverrun⟩
    · refine ⟨hreturned, hreturned', fun view hview ↦ ?_⟩
      have hfinalLedger := hfinal.ledger view hview
      refine ⟨hfinalLedger.posted_eq, hfinalLedger.taken_prefix_published, hnotified view hview,
        fun hall ↦ ?_⟩
      refine hfinalLedger.taken_prefix_published.eq_of_length_le ?_
      rw [hall]
      exact (hnotified view hview).length_le
    · obtain ⟨view, hview, hbound⟩ := hoverrun.le_published
      exact absurd (hpasses view hview) (Nat.not_lt.mpr hbound)
  · obtain ⟨view, hview, hbound⟩ := hoverrun.le_published
    exact absurd (hpasses view hview) (Nat.not_lt.mpr (hbound.trans (hgrows view.id).length_le))

/-- The ring of two entries with both notified. -/
def notifiedPair : World :=
  { pairWorld 2 with
    l1 := writeLE (pairWorld 2).l1 (dirtyByteAddr 0 0) 1 1
    history := [.did (.l1Store (dirtyByteAddr 0 0) 1 1) 0, .guest (.publish 0 0 1),
      .guest (.publish 0 0 2)] }

/-- The firmware handles another notify of the queue during the pass. -/
def notifyAct (clock : ℕ) (w : World) : World :=
  if clock = 2 then ((Firmware.handleQueueNotify 0 0).run exec (fun _ w ↦ w) 0 w).state else w

theorem platform_notifyAct (queues : List QueueView) (clock : ℕ) (w : World) :
    Platform queues w (notifyAct clock w) := by
  unfold notifyAct
  split_ifs
  · exact platform_handleQueueNotify (by decide) 0 (fun _ _ ↦ .refl) 0 w
  · exact .refl

def notifyAgain : Interference :=
  ⟨notifyAct, fun clock w ↦ (platform_notifyAct [] clock w).systemStep.interferes⟩

theorem drainDirtyBitmap_loses_nothing_pair :
    let after := (drainDirtyBitmap sinkDevice 8 [pairEntry]).run exec notifyAgain.act 0 notifiedPair
    publishedHeads pairView.id after.state = [2, 1] ∧
      takenHeads pairView.id after.state = [2, 1] ∧
        postedHeads pairView.id after.state = [2, 1] := by
  have hqueues : configuredQueues [pairEntry] notifiedPair.l1 = [pairView] := by decide +kernel
  have hpublished : publishedHeads pairView.id
      ((drainDirtyBitmap sinkDevice 8 [pairEntry]).run exec notifyAgain.act 0 notifiedPair).state =
        [2, 1] := by decide +kernel
  have hmem : pairView ∈ configuredQueues [pairEntry] notifiedPair.l1 := by
    exact mem_cons_self
  have hresult := drainDirtyBitmap_loses_nothing writesInside_sinkDevice answers_sinkDevice
    (show Registry.Valid [pairEntry] from ⟨by decide, by simp [pairEntry, numSlots]⟩)
    (show ∀ view ∈ configuredQueues [pairEntry] notifiedPair.l1,
      ∀ other ∈ configuredQueues [pairEntry] notifiedPair.l1,
      other.id.l2cpu = view.id.l2cpu → view.UsedApartFrom other by decide +kernel)
    ⟨by decide +kernel, by decide +kernel, by decide +kernel⟩
    (by
      rw [hqueues]
      simp only [forall_mem_singleton]
      exact ⟨by decide +kernel, by decide +kernel⟩)
    (by
      rw [hqueues]
      simp only [forall_mem_singleton]
      exact .inl (by decide +kernel))
    (show ∀ clock s, Platform (configuredQueues [pairEntry] notifiedPair.l1) s
      (notifyAgain.act clock s) from platform_notifyAct _) 8 0 0
    (by
      rw [hqueues]
      simp only [forall_mem_singleton]
      exact (congrArg length hpublished).trans_lt (by decide))
  obtain ⟨hposted, -, -, hall⟩ := hresult.2.2 pairView hmem
  have htaken := (hall (hpublished.trans (by decide +kernel))).trans hpublished
  exact ⟨hpublished, htaken, hposted.trans htaken⟩

end Bhx.DataPlane
