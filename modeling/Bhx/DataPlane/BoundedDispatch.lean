import Bhx.DataPlane.DrainCompleteness

/-!
# How long a dispatch can take

The drain loop reads `avail.idx` again on every pass, so its length depends on what the guest does
meanwhile. A pass that walks a chain moves the cursor one step towards the `avail.idx` it read; as
long as that reads the same, the distance shrinks, and every change of it can only restore a
distance below `2 ^ 16`.

`dispatchChain_chains_le` is the bound that follows, for every guest: the number of chains is at
most the distance at the first read plus `65535` for every change of `avail.idx` between two reads,
and a dispatch that does not return has walked a chain on every pass. `dispatchChain_unbounded` says
that there is no bound without counting the changes: a guest that keeps publishing keeps the
dispatch walking, whatever `queue_num` is and whatever `avail.idx` was at the start.
-/

set_option autoImplicit false

namespace Bhx.DataPlane

open SharedMemory Machine L1Layout Virtqueue List

variable (queueHeaderSize cursor : ℕ) {log : List (Op × ℕ)} {w base : World} (passes : ℕ)

/-! ### What the passes read -/

/-- The values of `avail.idx` read. -/
def availReads (log : List (Op × ℕ)) : List ℕ := log.filterMap fun entry ↦
  match entry with
  | (.ringLoad _ .availIdx _ _, availIdx) => some availIdx
  | _ => none

/-- The number of times a value differs from the one before. -/
def changes : List ℕ → ℕ
  | [] | [_] => 0
  | first :: second :: rest => (if first = second then 0 else 1) + changes (second :: rest)

/-- The entries between the cursor and an `avail.idx`. -/
def distance (cursor availIdx : ℕ) : ℕ := (availIdx + 2 ^ 16 - cursor) % 2 ^ 16

/-- The bound on the chains walked by passes that read these values. -/
def chainBound (cursor : ℕ) : List ℕ → ℕ
  | [] => 0
  | first :: rest => distance cursor first + (2 ^ 16 - 1) * changes (first :: rest)

section Bound

variable {cursor availIdx : ℕ}

theorem distance_pos (hcursor : cursor < 2 ^ 16) (havail : availIdx < 2 ^ 16)
    (h : cursor ≠ availIdx) : 0 < distance cursor availIdx := by
  unfold distance
  omega

theorem distance_succ (hcursor : cursor < 2 ^ 16) (havail : availIdx < 2 ^ 16)
    (h : cursor ≠ availIdx) :
    distance ((cursor + 1) % 2 ^ 16) availIdx + 1 = distance cursor availIdx := by
  unfold distance
  omega

theorem distance_le (cursor availIdx : ℕ) : distance cursor availIdx ≤ 2 ^ 16 - 1 :=
  Nat.le_sub_one_of_lt (Nat.mod_lt _ (by norm_num))

/-- A pass that walked a chain leaves one less for the passes after it. -/
theorem chainBound_succ (hcursor : cursor < 2 ^ 16) (havail : availIdx < 2 ^ 16)
    (h : cursor ≠ availIdx) (reads : List ℕ) :
    chainBound ((cursor + 1) % 2 ^ 16) reads + 1 ≤ chainBound cursor (availIdx :: reads) := by
  have hpos := distance_pos hcursor havail h
  have hsucc := distance_succ hcursor havail h
  cases reads with
  | nil =>
    simp only [chainBound, changes]
    omega
  | cons next rest =>
    have hnext := distance_le ((cursor + 1) % 2 ^ 16) next
    simp only [chainBound, changes]
    by_cases hsame : availIdx = next
    · subst hsame
      omega
    · rw [if_neg hsame, Nat.mul_add]
      omega

end Bound

/-! ### The passes of a dispatch -/

/-- Between two worlds chain walks took these heads and read these values of `avail.idx`. -/
structure Passed (w : World) (heads reads : List ℕ) (t : World) : Prop where
  heads_eq : headsTaken (walkLog t) = headsTaken (walkLog w) ++ heads
  reads_eq : availReads (walkLog t) = availReads (walkLog w) ++ reads

theorem passed_refl (w : World) : Passed w [] [] w :=
  ⟨(append_nil _).symm, (append_nil _).symm⟩

theorem Passed.trans {t u : World} {heads reads heads' reads' : List ℕ}
    (h : Passed w heads reads t) (h' : Passed t heads' reads' u) :
    Passed w (heads ++ heads') (reads ++ reads') u where
  heads_eq := by rw [h'.heads_eq, h.heads_eq, append_assoc]
  reads_eq := by rw [h'.reads_eq, h.reads_eq, append_assoc]

section Call

variable {D : Type} (device : VirtioDevice D) (view : QueueView)

variable {view} in
theorem availReads_walk {queueHeaderSize stepsLeft descIdx numBytesWritten : ℕ}
    {outcome : Option ℕ}
    (h : WalkLog view queueHeaderSize stepsLeft descIdx numBytesWritten log outcome) :
    availReads log = [] := by
  induction h with
  | outOfSteps | outOfRange | last => rfl
  | next _ _ _ _ _ _ _ _ _ ih => exact ih

variable {view} in
/-- What a call reads and takes: it consumes an entry only when the cursor is not the `avail.idx`
it read. -/
theorem callLog_passes {queueHeaderSize processed : ℕ} {consumed posted : Bool}
    (h : CallLog view queueHeaderSize processed log consumed posted) :
    ∃ availIdx < 2 ^ 16, availReads log = [availIdx] ∧
      ((consumed = false ∧ posted = false ∧ headsTaken log = []) ∨
        (consumed = true ∧ processed ≠ availIdx ∧ ∃ head, headsTaken log = [head])) := by
  cases h with
  | idle availIdx havail => exact ⟨availIdx, havail, rfl, .inl ⟨rfl, rfl, rfl⟩⟩
  | consumed availIdx head usedIdx walk outcome havail hpend hwalk =>
    refine ⟨availIdx, havail, ?_, .inr ⟨rfl, hpend, head, ?_⟩⟩
    · have hwalked := availReads_walk hwalk
      unfold availReads at hwalked
      cases outcome <;> simp [availReads, pollSteps, consumeSteps, settleSteps, postSteps, hwalked]
    · exact (consumeSteps_views view processed usedIdx hwalk).2.2.1

theorem processOneChainForQueue_passed (queueHeaderSize : ℕ) (state : D) (w : World) :
    Ensures exec Interferes anyOp
      (fun reply t ↦ ∃ availIdx < 2 ^ 16,
        (reply.2 = false ∧ Passed w [] [availIdx] t) ∨
        (view.cursor w ≠ availIdx ∧ view.cursor t = (view.cursor w + 1) % 2 ^ 16 ∧
          ∃ head, Passed w [head] [availIdx] t))
      (processOneChainForQueue device view queueHeaderSize state) w := by
  refine (processOneChainForQueue_ensures device view queueHeaderSize state w).weaken ?_
  rintro reply t ⟨log, consumed, hcall, hlog, hprocessed⟩
  obtain ⟨availIdx, havail, hreads, hcases⟩ := callLog_passes hcall
  have hpassed : ∀ heads, headsTaken log = heads → Passed w heads [availIdx] t := by
    intro heads hheads
    refine ⟨?_, ?_⟩
    · rw [hlog, headsTaken_append, hheads]
    · rw [hlog, ← hreads]
      exact filterMap_append
  refine ⟨availIdx, havail, ?_⟩
  rcases hcases with ⟨-, hposted, hheads⟩ | ⟨rfl, hpend, head, hheads⟩
  · exact .inl ⟨hposted, hpassed [] hheads⟩
  · refine .inr ⟨hpend, ?_, head, hpassed [head] hheads⟩
    rw [if_pos rfl] at hprocessed
    unfold QueueView.cursor
    rw [hprocessed]
    simp [advanceCursor]

/-- The passes of the loop walk at most as many chains as the values they read allow, and a loop
that does not end walks one on every pass. -/
theorem drainQueue_passed {queueHeaderSize : ℕ} (passes : ℕ) (posted : Bool) (state : D)
    (hcursor : view.cursor w < 2 ^ 16) :
    Ensures exec Interferes anyOp
      (fun drained t ↦ ∃ heads reads, Passed w heads reads t ∧
        heads.length ≤ chainBound (view.cursor w) reads ∧
        (drained.2.1 = false → heads.length = passes))
      (drainQueue device view queueHeaderSize passes posted state) w := by
  induction passes generalizing posted state w with
  | zero => exact ⟨[], [], passed_refl w, le_rfl, fun _ ↦ rfl⟩
  | succ passes ih =>
    refine (processOneChainForQueue_passed device view queueHeaderSize state w).bind ?_
    rintro ⟨state', posted'⟩ t ⟨availIdx, havail, ⟨hfalse, hidle⟩ | ⟨hpend, hmoved, head, hwalked⟩⟩
    · subst hfalse
      exact ⟨[], [availIdx], hidle, Nat.zero_le _, fun hnot ↦ absurd hnot (by simp)⟩
    · have hlt : view.cursor t < 2 ^ 16 := hmoved ▸ Nat.mod_lt _ (by norm_num)
      split_ifs
      · refine (ih true state' hlt).weaken ?_
        rintro drained u ⟨heads, reads, hpassed, hbound, hall⟩
        refine ⟨head :: heads, availIdx :: reads, hwalked.trans hpassed, ?_, fun hnot ↦ ?_⟩
        · rw [hmoved] at hbound
          have hsucc := chainBound_succ hcursor havail hpend reads
          rw [length_cons]
          omega
        · rw [length_cons, hall hnot]
      · refine ⟨[head], [availIdx], hwalked, ?_, fun hnot ↦ absurd hnot (by simp)⟩
        have hsucc := chainBound_succ hcursor havail hpend []
        rw [length_singleton]
        omega

end Call

/-- An operation that takes no head, does not read `avail.idx` and leaves the cursors alone. -/
structure Bystander (op : Op) : Prop where
  processed_eq : ∀ w, (op.apply w).processed = w.processed
  heads_eq : ∀ answer, headsTaken (walkStep (.did op answer)).toList = []
  reads_eq : ∀ answer, availReads (walkStep (.did op answer)).toList = []

theorem bystander_l1Load (addr size : ℕ) : Bystander (.l1Load addr size) :=
  ⟨fun _ ↦ rfl, fun _ ↦ rfl, fun _ ↦ rfl⟩

theorem Passed.bystander {heads reads : List ℕ} (h : Passed base heads reads w) {op : Op}
    (hop : Bystander op) : Passed base heads reads (exec op w).2 where
  heads_eq := by rw [walkLog_exec, headsTaken_append, hop.heads_eq, append_nil, h.heads_eq]
  reads_eq := by
    rw [walkLog_exec, availReads, filterMap_append]
    change availReads (walkLog w) ++ availReads (walkStep (.did op (op.answer w))).toList = _
    rw [hop.reads_eq, append_nil, h.reads_eq]

theorem Passed.interferes {w' : World} {heads reads : List ℕ} (h : Passed base heads reads w)
    (hrely : Interferes w w') : Passed base heads reads w' := by
  have hlog := walkLog_of_interferes hrely
  exact ⟨by rw [hlog, h.heads_eq], by rw [hlog, h.reads_eq]⟩

/-- A program of such operations takes no head and reads no `avail.idx`. -/
theorem ensures_bystander {α : Type} {program : Prog α} {post : α → Prop}
    (hprog : program.Always Bystander post) {heads reads : List ℕ}
    (hw : Passed base heads reads w) :
    Ensures exec Interferes anyOp
      (fun result t ↦ post result ∧ Passed base heads reads t ∧ t.processed = w.processed)
      program w := by
  have hinvariant := (Ensures.ofAlways hprog w).withInvariant
    (fun t ↦ Passed base heads reads t ∧ t.processed = w.processed) ⟨hw, rfl⟩
    (fun t u ht hrely ↦ ⟨ht.1.interferes hrely, hrely.processed_eq.trans ht.2⟩)
    fun op t ht hop ↦ ⟨ht.1.bystander hop, (hop.processed_eq t).trans ht.2⟩
  exact hinvariant.mono (fun _ _ h ↦ h) (fun _ _ _ ↦ trivial) fun _ _ h ↦ h

theorem bystander_perform {op : Op} (h : Bystander op) :
    (Program.perform op : Prog ℕ).Performs Bystander :=
  ⟨h, fun _ ↦ trivial⟩

theorem always_readShadow {slot queueIdx : ℕ} : (readShadow slot queueIdx).Performs Bystander := by
  unfold readShadow
  iterate 7 refine (bystander_perform (bystander_l1Load _ 4)).bind fun _ _ ↦ ?_
  trivial

theorem bystander_setInterrupt {D : Type} (entry : RegEntry D) :
    (setInterrupt entry).Performs Bystander := by
  refine (bystander_perform (bystander_l1Load _ 4)).bind fun status _ ↦ ?_
  have hstore : Bystander (.l1Store (slotRegsBase entry.slot + mmioInterruptStatus) 4
      (1 ||| status)) := ⟨fun _ ↦ rfl, fun _ ↦ rfl, fun _ ↦ rfl⟩
  have hplic (value : ℕ) : Bystander (.plicStore entry.l2cpu.idx value) :=
    ⟨fun _ ↦ rfl, fun _ ↦ rfl, fun _ ↦ rfl⟩
  refine (bystander_perform hstore).bind fun _ _ ↦ ?_
  exact (bystander_perform (hplic _)).bind fun _ _ ↦ bystander_perform (hplic 0)

theorem bystander_announce {D : Type} (entry : RegEntry D) (view : QueueView)
    (drained : D × Bool × Bool) :
    (announce entry view drained).Always Bystander
      fun dispatched ↦ dispatched.returned = drained.2.1 := by
  have hload : Bystander (.ringLoad view.id .usedIdx view.usedIdxAddr 2) :=
    ⟨fun _ ↦ rfl, fun _ ↦ rfl, fun _ ↦ rfl⟩
  unfold announce
  split_ifs with hdrained
  · rw [Bool.and_eq_true] at hdrained
    refine (bystander_setInterrupt entry).bind fun _ _ ↦ (bystander_perform hload).bind fun _ _ ↦ ?_
    exact hdrained.1.symm
  · rfl

/-- How long a dispatch takes. Assumes: a cursor in the range of a `u16`. For every device model,
every configuration and every guest, the number of chains walked is at most the distance between the
cursor and the first `avail.idx` read, plus `65535` for every time `avail.idx` read differently than
on the pass before; and a dispatch that has not returned has walked a chain on every pass. -/
theorem dispatchChain_chains_le {D : Type} (device : VirtioDevice D) (entry : RegEntry D)
    (queueIdx passes : ℕ) (guest : Interference) (clock : ℕ) (w : World)
    (hcursor : w.processed entry.slot queueIdx < 2 ^ 16) :
    let out := (dispatchChain device passes entry queueIdx).run exec guest.act clock w
    ∃ heads reads, Passed w heads reads out.state ∧
      heads.length ≤ chainBound (w.processed entry.slot queueIdx) reads ∧
      (out.result.returned = false → heads.length = passes) := by
  have hensures : Ensures exec Interferes anyOp (fun dispatched t ↦ ∃ heads reads,
      Passed w heads reads t ∧ heads.length ≤ chainBound (w.processed entry.slot queueIdx) reads ∧
      (dispatched.returned = false → heads.length = passes))
      (dispatchChain device passes entry queueIdx) w := by
    have hnone : ∀ t, Passed w [] [] t → ∃ heads reads, Passed w heads reads t ∧
      heads.length ≤ chainBound (w.processed entry.slot queueIdx) reads ∧ (true = false →
      heads.length = passes) := fun t ht ↦ ⟨[], [], ht, le_rfl, fun hnot ↦ absurd hnot (by simp)⟩
    unfold dispatchChain
    split_ifs with hqueue
    · exact hnone w (passed_refl w)
    · refine (ensures_bystander always_readShadow (passed_refl w)).bind ?_
      rintro words s ⟨-, hs, hprocessed⟩
      cases hview : configure entry.slot entry.l2cpu queueIdx words with
      | none => exact hnone s hs
      | some view =>
        have hcursor_eq : view.cursor s = w.processed entry.slot queueIdx := by
          rw [QueueView.cursor, (configure_spec hview).id_eq, hprocessed]
        refine (drainQueue_passed device view passes false entry.device
          (hcursor_eq ▸ hcursor)).bind ?_
        rintro drained t ⟨heads, reads, ht, hbound, hall⟩
        refine (ensures_bystander (bystander_announce entry view drained) (hs.trans ht)).weaken ?_
        rintro dispatched u ⟨hreturned, hu, -⟩
        refine ⟨heads, reads, hu, hcursor_eq ▸ hbound, fun hnot ↦ hall ?_⟩
        rw [← hreturned, hnot]
  exact hensures.run guest.interferes_act clock

theorem dispatchChain_chains_le_pair :
    let out := (dispatchChain sinkDevice 8 pairEntry 0).run exec Interference.none.act 0
      (pairWorld 2)
    (pairWorld 2).processed 0 0 < 2 ^ 16 ∧
      ∃ heads reads, Passed (pairWorld 2) heads reads out.state ∧
      heads.length ≤ chainBound 0 reads ∧ (out.result.returned = false → heads.length = 8) :=
  ⟨by decide, dispatchChain_chains_le sinkDevice pairEntry 0 8 Interference.none 0 (pairWorld 2)
    (by decide)⟩

/-! ### A guest that keeps publishing -/

/-- Guest memory with a buffer of 16 bytes in descriptor 0, avail slots that all name descriptor 0,
and one entry more published than the cursor has passed. -/
def oneAhead (cursor : ℕ) : Bytes :=
  writeLE (memoryWith [(pairView.descAddr 0, 16, VringDesc.toRaw ⟨0x400030005000, 16, 0, 0⟩)])
    pairView.availIdxAddr 2 (cursor + 1)

/-- The guest keeps its memory that way and leaves the shadow alone. -/
def chasing : Interference where
  act := fun _ w ↦ { w with dram := fun _ ↦ oneAhead (w.processed 0 0) }
  interferes_act := fun _ _ ↦ ⟨rfl, [], by simp, rfl⟩

def ChaseRely (w w' : World) : Prop := w' = chasing.act 0 w

theorem interferes_of_chaseRely (w w' : World) (h : ChaseRely w w') : Interferes w w' := by
  rw [h]
  exact chasing.interferes_act 0 w

theorem availIdx_oneAhead :
    readLE (oneAhead cursor) pairView.availIdxAddr 2 = (cursor + 1) % 2 ^ 16 :=
  readLE_writeLE_self _ _ _ _

theorem head_oneAhead {idx : ℕ} : readLE (oneAhead cursor) (pairView.availRingAddr idx) 2 = 0 := by
  have hidx : idx % 4 < 4 := Nat.mod_lt _ (by norm_num)
  have haddr : pairView.availRingAddr idx = 0x400030002004 + 2 * (idx % 4) := rfl
  have hapart : Apart pairView.availIdxAddr 2 (pairView.availRingAddr idx) 2 := by
    rw [haddr]
    exact .inl (by simp only [QueueView.availIdxAddr, pairView]; omega)
  rw [oneAhead, readLE_writeLE_of_apart hapart, memoryWith, foldl_cons, foldl_nil,
    readLE_writeLE_of_apart]
  · rfl
  · rw [haddr]
    exact .inl (by simp only [QueueView.descAddr, pairView]; omega)

theorem desc_oneAhead :
    VringDesc.ofRaw (readLE (oneAhead cursor) (pairView.descAddr 0) 16) =
      ⟨0x400030005000, 16, 0, 0⟩ := by
  have hapart : Apart pairView.availIdxAddr 2 (pairView.descAddr 0) 16 := by decide
  rw [oneAhead, readLE_writeLE_of_apart hapart, memoryWith, foldl_cons, foldl_nil,
    readLE_writeLE_self]
  decide

/-- Next to this guest the walk from descriptor 0 is valid. -/
theorem walkChain_chased (numBytesWritten : ℕ) {w : World} :
    Ensures exec ChaseRely anyOp (fun walked _ ↦ walked.2.isSome = true)
      (walkChain sinkDevice pairView queueHeaderSize 4 0 numBytesWritten ()) w := by
  rw [walkChain, Program.perform_bind]
  rintro _ rfl
  refine ⟨trivial, ?_⟩
  have hdesc : VringDesc.ofRaw (exec (.ringLoad pairView.id .desc (pairView.descAddr 0) 16)
      (chasing.act 0 w)).1 = ⟨0x400030005000, 16, 0, 0⟩ := desc_oneAhead _
  dsimp only
  rw [hdesc, if_pos (by decide), if_neg (by decide)]
  rintro _ rfl
  refine ⟨trivial, ?_⟩
  rintro _ rfl
  exact ⟨trivial, rfl⟩

theorem settle_chased (head numBytesWritten : ℕ) (w : World) :
    Ensures exec ChaseRely anyOp (fun posted _ ↦ posted = true)
      (settle pairView head (some numBytesWritten)) w :=
  (ensures_true (postUsed pairView head numBytesWritten) w).bind fun _ _ _ ↦ rfl

theorem consumeEntry_chased {processed : ℕ} {w : World} :
    Ensures exec ChaseRely anyOp (fun reply _ ↦ reply.2 = true)
      (consumeEntry sinkDevice pairView queueHeaderSize processed ()) w := by
  rintro _ rfl
  refine ⟨trivial, ?_⟩
  have hhead : (exec (.ringLoad pairView.id .availRing (pairView.availRingAddr processed) 2)
      (chasing.act 0 w)).1 = 0 := head_oneAhead _
  rw [hhead]
  refine (walkChain_chased queueHeaderSize 0).bind fun walked t hsome ↦ ?_
  obtain ⟨numBytesWritten, hwritten⟩ := Option.isSome_iff_exists.mp hsome
  rw [hwritten]
  refine (settle_chased 0 numBytesWritten t).bind fun posted u hposted ↦ ?_
  rintro _ rfl
  exact ⟨trivial, hposted⟩

theorem processOneChainForQueue_chased (w : World) :
    Ensures exec ChaseRely anyOp (fun reply _ ↦ reply.2 = true)
      (processOneChainForQueue sinkDevice pairView queueHeaderSize ()) w := by
  rw [processOneChainForQueue, Program.perform_bind]
  rintro _ rfl
  refine ⟨trivial, ?_⟩
  have havail : (exec (.ringLoad pairView.id .availIdx pairView.availIdxAddr 2)
      (chasing.act 0 w)).1 = (pairView.cursor w + 1) % 2 ^ 16 := availIdx_oneAhead _
  rw [havail]
  beta_reduce
  rintro _ rfl
  refine ⟨trivial, ?_⟩
  change Ensures exec ChaseRely anyOp _ (if pairView.cursor w = (pairView.cursor w + 1) % 2 ^ 16
    then _ else consumeEntry sinkDevice pairView queueHeaderSize (pairView.cursor w) ()) _
  rw [if_neg (by omega)]
  exact consumeEntry_chased queueHeaderSize

/-- Next to this guest the loop walks a chain on every pass it is allowed. -/
theorem drainQueue_chased (posted : Bool) (w : World) :
    Ensures exec ChaseRely anyOp
      (fun _ t ↦ ∃ heads reads, Passed w heads reads t ∧ heads.length = passes)
      (drainQueue sinkDevice pairView queueHeaderSize passes posted ()) w := by
  induction passes generalizing posted w with
  | zero => exact ⟨[], [], passed_refl w, rfl⟩
  | succ passes ih =>
    have hpassed := (processOneChainForQueue_passed sinkDevice pairView queueHeaderSize ()
      w).restrict interferes_of_chaseRely
    have hboth := ((processOneChainForQueue_chased queueHeaderSize w).and hpassed).mono
      (fun _ _ h ↦ h) (fun _ _ _ ↦ trivial) (fun _ _ h ↦ h)
    refine hboth.bind ?_
    rintro ⟨⟨⟩, posted'⟩ t ⟨hposted, availIdx, -, ⟨hfalse, -⟩ | ⟨-, -, head, hwalked⟩⟩
    · exact absurd (hposted.symm.trans hfalse) (by simp)
    · subst hposted
      refine (ih true t).weaken ?_
      rintro - u ⟨heads, reads, hrest, hlength⟩
      exact ⟨head :: heads, availIdx :: reads, hwalked.trans hrest, by rw [length_cons, hlength]⟩

/-- Next to this guest a dispatch walks a chain on every pass it is allowed. -/
theorem dispatchChain_chased
    (hview : configure 0 (L2Cpu.ofIdx 0) 0 (shadowWords w.l1 0 0) = some pairView) :
    Ensures exec ChaseRely anyOp
      (fun _ t ↦ ∃ heads reads, Passed w heads reads t ∧ heads.length = passes)
      (dispatchChain sinkDevice passes pairEntry 0) w := by
  refine dispatchChain_ensures (by decide) hview (by rintro s _ rfl _ _ _; rfl)
    (fun s t h hrely ↦ h.interferes (interferes_of_chaseRely s t hrely))
    (fun s addr size h ↦ h.bystander (bystander_l1Load addr size)) (fun _ _ _ ↦ trivial)
      (passed_refl w) ?_
  intro s hs
  refine (drainQueue_chased _ passes false s).bind ?_
  rintro drained t ⟨heads, reads, ht, hlength⟩
  refine ((ensures_bystander (bystander_announce pairEntry pairView drained)
    (hs.trans ht)).restrict interferes_of_chaseRely).weaken ?_
  exact fun _ u hu ↦ ⟨heads, reads, hu.2.1, hlength⟩

/-- There is no bound on the chains that one dispatch walks in terms of `queue_num` and the
`avail.idx` at the start. -/
theorem dispatchChain_unbounded :
    ¬ ∃ bound : ℕ → ℕ → ℕ, ∀ (guest : Interference) (passes : ℕ) (w : World),
      configure 0 (L2Cpu.ofIdx 0) 0 (shadowWords w.l1 0 0) = some pairView →
      (headsTaken (walkLog ((dispatchChain sinkDevice passes pairEntry 0).run exec guest.act 0
        w).state)).length ≤ (headsTaken (walkLog w)).length +
          bound pairView.queueNum (availIdx pairView (pairView.memory w)) := by
  rintro ⟨bound, hbound⟩
  have hview :
      configure 0 (L2Cpu.ofIdx 0) 0 (shadowWords (pairWorld 1).l1 0 0) = some pairView := by
    decide +kernel
  set passes := bound pairView.queueNum (availIdx pairView (pairView.memory (pairWorld 1))) + 1
  obtain ⟨heads, reads, hpassed, hlength⟩ := (dispatchChain_chased passes hview).run
    (fun clock s ↦ (rfl : chasing.act clock s = chasing.act 0 s)) 0
  have hle := hbound chasing passes (pairWorld 1) hview
  rw [hpassed.heads_eq, length_append, hlength] at hle
  omega

end Bhx.DataPlane
