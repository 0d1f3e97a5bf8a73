import Mathlib.Data.List.Basic
import Bhx.Virtqueue.ConsumeEntry

/-!
# Several queues in one memory

A guest has several queues in its DRAM, and the daemon serves the queues of several guests, one call
at a time. For each queue the history tells which heads its driver published (`publishedHeads`),
which ones walks took (`takenHeads`) and which ones were posted (`postedHeads`); `pendingHeads` are
the ones in guest memory from the cursor on. `Ledger` is the account of a queue between calls: what
was taken, followed by what is pending, is what was published, and all that was taken was posted.

`Tidy` is what the drivers owe together: no buffer of any queue overlaps a ring of any queue, and
the pending chains are well formed. `SystemStep` is a step of everything outside the daemon that
keeps to it. `takeEntry_processed` says that a call on one queue takes its next entry and leaves the
accounts of all other queues alone (`Processed`), whatever is published meanwhile.
-/

set_option autoImplicit false

namespace Bhx.Virtqueue

open SharedMemory Machine List Function QueueView

variable {log : List (Op × ℕ)} {other : QueueId}

/-! ### Accounts -/

/-- The head that an event publishes to a queue. -/
def publication (id : QueueId) : Event → Option ℕ
  | .guest (.publish slot queue head) =>
    if slot = id.slot ∧ queue = id.queue then some head else none
  | .guest (.register _ _ _) | .did _ _ => none

/-- The heads published to a queue, oldest first. -/
def publishedHeads (id : QueueId) (w : World) : List ℕ := w.log (publication id)

/-- The head that an operation of a walk takes from the avail ring of a queue. -/
def headTaken (id : QueueId) : Op × ℕ → Option ℕ
  | (.ringLoad other .availRing _ _, head) => if other = id then some head else none
  | _ => none

/-- The heads taken from the avail ring of a queue, oldest first. -/
def takenHeads (id : QueueId) (w : World) : List ℕ := (walkLog w).filterMap (headTaken id)

/-- The id that an operation of a walk posts to the used ring of a queue. -/
def headPosted (id : QueueId) : Op × ℕ → Option ℕ
  | (.ringStore other .usedElemId _ _ head, _) => if other = id then some head else none
  | _ => none

/-- The ids posted to the used ring of a queue, oldest first. -/
def postedHeads (id : QueueId) (w : World) : List ℕ := (walkLog w).filterMap (headPosted id)

theorem publishedHeads_exec (id : QueueId) (op : Op) (w : World) :
    publishedHeads id (exec op w).2 = publishedHeads id w := by
  unfold publishedHeads
  rw [log_exec]
  simp [publication]

variable {s t : World}

section Account

variable (view : QueueView)

/-- The heads of the pending entries. -/
def pendingHeads (w : World) : List ℕ :=
  (List.range (pending view w)).map fun k ↦ (pendingEntry view w k).head

/-- The account of a queue between calls. -/
structure Ledger (w : World) : Prop where
  taken_eq : takenHeads view.id w ++ pendingHeads view w = publishedHeads view.id w
  posted_eq : postedHeads view.id w = takenHeads view.id w

/-- From `s` to `t` the cursor passed the heads `heads`, and what was published meanwhile is
pending. -/
def Moved (heads : List ℕ) (s t : World) : Prop :=
  ∃ new, publishedHeads view.id t = publishedHeads view.id s ++ new ∧
    heads ++ pendingHeads view t = pendingHeads view s ++ new

/-- From `s` to `t` the entries with these heads were taken, posted and passed. -/
structure Processed (heads : List ℕ) (s t : World) : Prop where
  taken_eq : takenHeads view.id t = takenHeads view.id s ++ heads
  posted_eq : postedHeads view.id t = postedHeads view.id s ++ heads
  moved : Moved view heads s t

/-- From `s` to `t` the first `count` pending entries went and the others stayed. -/
structure Shifted (count : ℕ) (s t : World) : Prop where
  pending_eq : pending view t + count = pending view s
  entry_eq : ∀ k, pendingEntry view t k = pendingEntry view s (k + count)

variable {view} {heads heads' : List ℕ} {u : World}

theorem moved_refl (s : World) : Moved view [] s s := by
  refine ⟨[], ?_, ?_⟩
  · rw [append_nil]
  · rw [nil_append, append_nil]

theorem Moved.trans (h : Moved view heads s t) (h' : Moved view heads' t u) :
    Moved view (heads ++ heads') s u := by
  obtain ⟨new, hpub, hpend⟩ := h
  obtain ⟨new', hpub', hpend'⟩ := h'
  refine ⟨new ++ new', ?_, ?_⟩
  · rw [hpub', hpub, append_assoc]
  · rw [append_assoc, hpend', ← append_assoc, hpend, append_assoc]

theorem Processed.ledger (h : Processed view heads s t) (hs : Ledger view s) : Ledger view t := by
  obtain ⟨new, hpub, hpend⟩ := h.moved
  constructor
  · rw [h.taken_eq, append_assoc, hpend, ← append_assoc, hs.taken_eq, hpub]
  · rw [h.posted_eq, h.taken_eq, hs.posted_eq]

/-- With nothing pending, everything published was taken. -/
theorem Ledger.taken_eq_published (h : Ledger view s) (hzero : pending view s = 0) :
    takenHeads view.id s = publishedHeads view.id s := by
  rw [← h.taken_eq, pendingHeads, hzero, range_zero, map_nil, append_nil]

theorem Ledger.taken_prefix_published (h : Ledger view s) :
    takenHeads view.id s <+: publishedHeads view.id s := by
  rw [← h.taken_eq]
  exact prefix_append _ _

theorem shifted_zero (hpend : pending view t = pending view s)
    (hentry : ∀ k, pendingEntry view t k = pendingEntry view s k) : Shifted view 0 s t where
  pending_eq := by rw [Nat.add_zero, hpend]
  entry_eq := hentry

theorem Shifted.pending_eq_of_zero (h : Shifted view 0 s t) : pending view t = pending view s := by
  rw [← h.pending_eq, Nat.add_zero]

theorem Shifted.moved_zero (h : Shifted view 0 s t)
    (hpub : publishedHeads view.id t = publishedHeads view.id s) : Moved view [] s t := by
  refine ⟨[], by rw [hpub, append_nil], ?_⟩
  rw [nil_append, append_nil, pendingHeads, pendingHeads, h.pending_eq_of_zero]
  exact map_congr_left fun k _ ↦ congrArg AvailEntry.head (h.entry_eq k)

theorem Shifted.moved_one (h : Shifted view 1 s t)
    (hpub : publishedHeads view.id t = publishedHeads view.id s) :
    Moved view [(pendingEntry view s 0).head] s t := by
  refine ⟨[], by rw [hpub, append_nil], ?_⟩
  rw [append_nil, pendingHeads, pendingHeads, ← h.pending_eq, range_succ_eq_map,
    map_cons, map_map, singleton_append]
  refine congrArg _ (map_congr_left fun k _ ↦ ?_)
  exact congrArg AvailEntry.head (h.entry_eq k)

theorem Moved.head_eq {head : ℕ} (h : Moved view [head] s t) (hpos : 0 < pending view s) :
    head = (pendingEntry view s 0).head := by
  obtain ⟨new, -, hpend⟩ := h
  obtain ⟨rest, hrest⟩ := Nat.exists_eq_add_of_le' hpos
  have hfirst : pendingHeads view s = (pendingEntry view s 0).head ::
      ((range rest).map Nat.succ).map fun k ↦ (pendingEntry view s k).head := by
    rw [pendingHeads, hrest, range_succ_eq_map, map_cons]
  rw [hfirst, singleton_append, cons_append, cons.injEq] at hpend
  exact hpend.1

end Account

/-! ### Logs of calls -/

section Logs

variable {view : QueueView} (h : ∀ entry ∈ log, ∀ id, entry.1.queue? = some id → id = view.id)
include h

theorem filterMap_headTaken_self : log.filterMap (headTaken view.id) = headsTaken log := by
  refine filterMap_congr fun entry hmem ↦ ?_
  obtain ⟨op, answer⟩ := entry
  have hid := h _ hmem
  cases op with
  | ringLoad id part addr size => cases part <;> simp [headTaken, hid id rfl]
  | _ => rfl

theorem filterMap_headPosted_self : log.filterMap (headPosted view.id) = idsPosted log := by
  refine filterMap_congr fun entry hmem ↦ ?_
  obtain ⟨op, answer⟩ := entry
  have hid := h _ hmem
  cases op with
  | ringStore id part addr size value => cases part <;> simp [headPosted, hid id rfl]
  | _ => rfl

theorem filterMap_headTaken_other (hne : other ≠ view.id) :
    log.filterMap (headTaken other) = [] := by
  refine filterMap_eq_nil_iff.mpr fun entry hmem ↦ ?_
  obtain ⟨op, answer⟩ := entry
  have hid := h _ hmem
  cases op with
  | ringLoad id part addr size => cases part <;> simp [headTaken, hid id rfl, Ne.symm hne]
  | _ => rfl

theorem filterMap_headPosted_other (hne : other ≠ view.id) :
    log.filterMap (headPosted other) = [] := by
  refine filterMap_eq_nil_iff.mpr fun entry hmem ↦ ?_
  obtain ⟨op, answer⟩ := entry
  have hid := h _ hmem
  cases op with
  | ringStore id part addr size value => cases part <;> simp [headPosted, hid id rfl, Ne.symm hne]
  | _ => rfl

end Logs

/-! ### Queues that do not get in each other's way -/

/-- The used rings overlap no queue's descriptor table or avail ring, and slot and index tell the
queues apart. -/
structure Arranged (queues : List QueueView) : Prop where
  used_apart : ∀ view ∈ queues, ∀ other ∈ queues, other.id.l2cpu = view.id.l2cpu →
    view.UsedApartFrom other
  eq_of_id : ∀ view ∈ queues, ∀ other ∈ queues, other.id.slot = view.id.slot →
    other.id.queue = view.id.queue → other = view

/-- No buffer of a pending entry overlaps a ring, and every pending chain is well formed. -/
structure Tidy (queues : List QueueView) (w : World) : Prop where
  buffers : ∀ view ∈ queues, ∀ k < pending view w, ∀ d ∈ (pendingEntry view w k).chain,
    view.inRange d = true → ∀ other ∈ queues, other.id.l2cpu = view.id.l2cpu → BufferApart other d
  formed : ∀ view ∈ queues, ∀ k < pending view w,
    wellFormed view (pendingEntry view w k).chain = true
  cursor_lt : ∀ view ∈ queues, view.cursor w < 2 ^ 16

/-- A step of everything outside the daemon, in which the drivers meet their obligations. -/
structure SystemStep (queues : List QueueView) (s s' : World) : Prop where
  interferes : Interferes s s'
  obliged : Tidy queues s → Tidy queues s' ∧ ∀ view ∈ queues, DriverStep view s s'
  moved : ∀ view ∈ queues, Moved view [] s s'

section System

variable {queues : List QueueView} {view other : QueueView} {cursors : ℕ → ℕ → ℕ} {op : Op}
  {s' : World}

theorem Tidy.buffersApart (h : Tidy queues s) (hview : view ∈ queues) : BuffersApart view s :=
  fun k hk d hmem hrange ↦ h.buffers view hview k hk d hmem hrange view hview rfl

theorem Tidy.of_shifted (h : Tidy queues s)
    (hshifted : ∀ view ∈ queues, ∃ count, Shifted view count s t)
    (hcur : ∀ view ∈ queues, view.cursor t < 2 ^ 16) : Tidy queues t where
  buffers := by
    intro view hview k hk d hmem
    obtain ⟨count, hshift⟩ := hshifted view hview
    have hpend := hshift.pending_eq
    rw [hshift.entry_eq k] at hmem
    exact h.buffers view hview (k + count) (by omega) d hmem
  formed := by
    intro view hview k hk
    obtain ⟨count, hshift⟩ := hshifted view hview
    have hpend := hshift.pending_eq
    rw [hshift.entry_eq k]
    exact h.formed view hview (k + count) (by omega)
  cursor_lt := hcur

theorem shifted_of_dram_eq (view : QueueView) (hdram : t.dram = s.dram)
    (hproc : t.processed = s.processed) : Shifted view 0 s t := by
  have hcur : view.cursor t = view.cursor s := cursor_eq_of_processed_eq hproc
  have hmemory : view.memory t = view.memory s := congrFun hdram _
  refine shifted_zero ?_ fun k ↦ ?_
  · rw [pending, hcur, hmemory, pending]
  · rw [pendingEntry, hcur, hmemory, pendingEntry]

theorem Tidy.of_dram_eq (h : Tidy queues s) (hdram : t.dram = s.dram)
    (hproc : t.processed = s.processed) : Tidy queues t := by
  refine h.of_shifted (fun view _ ↦ ⟨0, shifted_of_dram_eq view hdram hproc⟩) fun view hview ↦ ?_
  rw [cursor, hproc]
  exact h.cursor_lt view hview

/-- A step that leaves guest memory alone and publishes nothing. -/
theorem systemStep_of_dram_eq (hinterferes : Interferes s s') (hdram : s'.dram = s.dram)
    (hpub : ∀ id, publishedHeads id s' = publishedHeads id s) : SystemStep queues s s' := by
  have hshifted : ∀ view : QueueView, Shifted view 0 s s' := fun view ↦
    shifted_of_dram_eq view hdram hinterferes.processed_eq
  refine ⟨hinterferes, fun htidy ↦ ?_, fun view _ ↦ (hshifted view).moved_zero (hpub _)⟩
  have htidy' : Tidy queues s' := htidy.of_dram_eq hdram hinterferes.processed_eq
  refine ⟨htidy', fun view hview ↦ ⟨?_, ?_, ?_, htidy'.buffersApart hview⟩⟩
  · intro a _ _
    exact congrFun (congrFun hdram _) a
  · exact (hshifted view).pending_eq_of_zero.ge
  · exact fun k _ ↦ (hshifted view).entry_eq k

theorem SystemStep.refl (s : World) : SystemStep queues s s :=
  systemStep_of_dram_eq (Interferes.refl s) rfl fun _ ↦ rfl

theorem SystemStep.trans (h : SystemStep queues s s') (h' : SystemStep queues s' t) :
    SystemStep queues s t := by
  refine ⟨h.interferes.trans h'.interferes, fun htidy ↦ ?_, fun view hview ↦ ?_⟩
  · obtain ⟨htidy', hstep⟩ := h.obliged htidy
    obtain ⟨htidy'', hstep'⟩ := h'.obliged htidy'
    refine ⟨htidy'', fun view hview ↦ ⟨?_, ?_, ?_, htidy''.buffersApart hview⟩⟩
    · intro a hlow hhigh
      rw [(hstep' view hview).used_eq a hlow hhigh, (hstep view hview).used_eq a hlow hhigh]
    · exact (hstep view hview).pending_le.trans (hstep' view hview).pending_le
    · intro k hk
      have hk' := hk.trans_le (hstep view hview).pending_le
      rw [(hstep' view hview).entry_eq k hk', (hstep view hview).entry_eq k hk]
  · exact (h.moved view hview).trans (h'.moved view hview)

theorem Processed.of_systemStep (h : SystemStep queues s t) (hview : view ∈ queues) :
    Processed view [] s t := by
  have hlog := walkLog_of_interferes h.interferes
  refine ⟨?_, ?_, h.moved view hview⟩
  · rw [takenHeads, hlog, append_nil, takenHeads]
  · rw [postedHeads, hlog, append_nil, postedHeads]

theorem advanceCursor_ne {view : QueueView} {cursors : ℕ → ℕ → ℕ} :
    advanceCursor view cursors ≠ cursors := by
  intro heq
  have hmoved := congrFun₂ heq view.id.slot view.id.queue
  simp only [advanceCursor, update_self] at hmoved
  omega

theorem advanceCursor_other (harr : Arranged queues) (hview : view ∈ queues)
    (hother : other ∈ queues) (hne : other ≠ view) :
    advanceCursor view cursors other.id.slot other.id.queue =
      cursors other.id.slot other.id.queue := by
  unfold advanceCursor
  by_cases hslot : other.id.slot = view.id.slot
  · have hqueue : other.id.queue ≠ view.id.queue := fun hqueue ↦
      hne (harr.eq_of_id view hview other hother hslot hqueue)
    rw [hslot, update_self, update_of_ne hqueue]
  · rw [update_of_ne hslot]

section

variable (h : Touches view cursors op s)
include h

variable (harr : Arranged queues)
include harr

variable (htidy : Tidy queues s)
include htidy

variable (hview : view ∈ queues)
include hview

theorem Touches.sourceAgree_of_tidy (hother : other ∈ queues) :
    SourceAgree other (other.memory (exec op s).2) (other.memory s) :=
  h.sourceAgree (harr.used_apart view hview other hother) fun hcpu hpos d hmem hrange ↦
    htidy.buffers view hview 0 hpos d hmem hrange other hother hcpu

/-- An operation of a call leaves the pending entries of the other queues alone. -/
theorem Touches.shifted_other (hother : other ∈ queues) (hne : other ≠ view) :
    other.cursor (exec op s).2 = other.cursor s ∧ Shifted other 0 s (exec op s).2 := by
  have hagree := h.sourceAgree_of_tidy harr htidy hview hother
  have hcur : other.cursor (exec op s).2 = other.cursor s := by
    unfold cursor
    rw [exec_snd, record_processed, h.processed_eq]
    rcases h.processed with hsame | ⟨-, -, hadvance⟩
    · rw [hsame]
    · rw [hadvance, advanceCursor_other harr hview hother hne]
  exact ⟨hcur, shifted_zero (pending_eq_of_agree hagree hcur)
    (pendingEntry_eq_of_agree hagree hcur)⟩

/-- It leaves the pending entries of its own queue alone too, or is the move over the first one. -/
theorem Touches.shifted_self :
    ((exec op s).2.processed = cursors ∧ Shifted view 0 s (exec op s).2) ∨
      ((exec op s).2.processed = advanceCursor view cursors ∧ 0 < pending view s ∧
        Shifted view 1 s (exec op s).2) := by
  have hagree := h.sourceAgree_of_tidy harr htidy hview hview
  have hcursors := h.processed_eq
  subst hcursors
  rcases h.processed with hsame | ⟨hpos, hdram, hadvance⟩
  · have hcur : view.cursor (exec op s).2 = view.cursor s := cursor_eq_of_processed_eq hsame
    exact .inl ⟨hsame, shifted_zero (pending_eq_of_agree hagree hcur)
      (pendingEntry_eq_of_agree hagree hcur)⟩
  · obtain ⟨hpend, hentry⟩ := pending_advance hpos (congrFun hdram _) hadvance
    exact .inr ⟨hadvance, hpos, hpend, hentry⟩

end

theorem Tidy.touches (htidy : Tidy queues s) (harr : Arranged queues) (hview : view ∈ queues)
    (h : Touches view cursors op s) : Tidy queues (exec op s).2 := by
  refine htidy.of_shifted (fun other hother ↦ ?_) fun other hother ↦ ?_
  · by_cases heq : other = view
    · subst heq
      rcases h.shifted_self harr htidy hview with ⟨-, hshifted⟩ | ⟨-, -, hshifted⟩
      · exact ⟨0, hshifted⟩
      · exact ⟨1, hshifted⟩
    · exact ⟨0, (h.shifted_other harr htidy hview hother heq).2⟩
  · by_cases heq : other = view
    · subst heq
      have hlt := htidy.cursor_lt other hview
      rw [cursor, h.processed_eq] at hlt
      rcases h.shifted_self harr htidy hview with ⟨hsame, -⟩ | ⟨hadvance, -, -⟩
      · rwa [cursor, hsame]
      · rw [cursor, hadvance]
        simp only [advanceCursor, update_self]
        exact Nat.mod_lt _ (by norm_num)
    · rw [(h.shifted_other harr htidy hview hother heq).1]
      exact htidy.cursor_lt other hother

/-! ### A call -/

/-- What holds of the accounts during a call that started from `s`: the other queues' cursors have
not moved, and the queue's own has moved at most once. -/
structure MidCall (queues : List QueueView) (view : QueueView) (s t : World) : Prop where
  self : (t.processed = s.processed ∧ Moved view [] s t) ∨
    (t.processed = advanceCursor view s.processed ∧ ∃ head, Moved view [head] s t)
  others : ∀ other ∈ queues, other ≠ view → Moved other [] s t

theorem midCall_refl (s : World) : MidCall queues view s s :=
  ⟨.inl ⟨rfl, moved_refl s⟩, fun _ _ _ ↦ moved_refl s⟩

theorem MidCall.rely {t' : World} (h : MidCall queues view s t) (hview : view ∈ queues)
    (hrely : SystemStep queues t t') : MidCall queues view s t' := by
  have hproc := hrely.interferes.processed_eq
  have hmoved := hrely.moved view hview
  refine ⟨?_, fun other hother hne ↦ (h.others other hother hne).trans (hrely.moved other hother)⟩
  rcases h.self with ⟨hsame, hself⟩ | ⟨hadvance, head, hself⟩
  · exact .inl ⟨hproc.trans hsame, hself.trans hmoved⟩
  · exact .inr ⟨hproc.trans hadvance, head, hself.trans hmoved⟩

theorem MidCall.touches (h : MidCall queues view s t) (harr : Arranged queues)
    (hview : view ∈ queues) (htidy : Tidy queues t)
    (hop : Touches view s.processed op t) : MidCall queues view s (exec op t).2 := by
  -- The cursor is still where it was, since no operation follows the one that moves it.
  have hself : Moved view [] s t := by
    rcases h.self with ⟨-, hself⟩ | ⟨hadvance, -⟩
    · exact hself
    · rw [hop.processed_eq] at hadvance
      exact absurd hadvance.symm advanceCursor_ne
  refine ⟨?_, fun other hother hne ↦ ?_⟩
  · rcases hop.shifted_self harr htidy hview with ⟨hsame, hshifted⟩ | ⟨hadvance, -, hshifted⟩
    · exact .inl ⟨hsame, hself.trans (hshifted.moved_zero (publishedHeads_exec _ _ _))⟩
    · exact .inr ⟨hadvance, _, hself.trans (hshifted.moved_one (publishedHeads_exec _ _ _))⟩
  · have hshifted := (hop.shifted_other harr htidy hview hother hne).2
    exact (h.others other hother hne).trans (hshifted.moved_zero (publishedHeads_exec _ _ _))

section

variable (hids : ∀ entry ∈ log, ∀ id, entry.1.queue? = some id → id = view.id)
  (hlog : walkLog t = walkLog s ++ log)
include hids hlog

/-- The log of a call takes and posts nothing on another queue. -/
theorem processed_other (hne : other.id ≠ view.id) (hmoved : Moved other [] s t) :
    Processed other [] s t := by
  refine ⟨?_, ?_, hmoved⟩
  · rw [takenHeads, hlog, filterMap_append, filterMap_headTaken_other hids hne, takenHeads]
  · rw [postedHeads, hlog, filterMap_append, filterMap_headPosted_other hids hne, postedHeads]

/-- On its own queue it takes and posts what the unfiltered log says. -/
theorem processed_self {heads : List ℕ} (hheads : headsTaken log = heads)
    (hposted : idsPosted log = heads) (hmoved : Moved view heads s t) :
    Processed view heads s t := by
  refine ⟨?_, ?_, hmoved⟩
  · rw [takenHeads, hlog, filterMap_append, filterMap_headTaken_self hids, hheads, takenHeads]
  · rw [postedHeads, hlog, filterMap_append, filterMap_headPosted_self hids, hposted, postedHeads]

end

variable {D : Type} {device : VirtioDevice D}

/-- A call from the moment it has read `avail.idx`. Assumes: drivers that meet their obligations and
a device model that is always ready and writes only inside its buffers. The call found nothing
pending and processed nothing, or it posted and processed the entry at the cursor; the accounts of
the other queues moved only by what was published. -/
theorem takeEntry_processed (harr : Arranged queues) (hview : view ∈ queues)
    (hdev : WritesInside device) (hready : Answers device (· = true)) (queueHeaderSize : ℕ)
    (state : D) (htidy : Tidy queues s) :
    Ensures exec (SystemStep queues) (fun op t ↦ Touches view s.processed op t ∧ Tidy queues t)
      (fun reply t ↦ Tidy queues t ∧
        (∀ other ∈ queues, other ≠ view → Processed other [] s t) ∧
        ((pending view s = 0 ∧ reply.2 = false ∧ Processed view [] s t) ∨
          (reply.2 = true ∧ ∃ head, Processed view [head] s t)))
      (takeEntry device view queueHeaderSize state (availIdx view (view.memory s))) s := by
  have hcur := htidy.cursor_lt view hview
  have hlayout : view.UsedApart := harr.used_apart view hview view hview rfl
  have hresting : Resting view s.processed (view.memory s) s :=
    ⟨rfl, fun _ _ _ ↦ rfl, htidy.buffersApart hview⟩
  have hkept := takeEntry_kept hlayout hdev hready queueHeaderSize state hcur hresting
  have htidied := (hkept.restrict fun a b (h : Tidy queues a ∧ SystemStep queues a b) ↦
    ⟨h.2.interferes, fun _ ↦ (h.2.obliged h.1).2 view hview⟩).assuming htidy
    (fun _ _ ha hstep ↦ (hstep.obliged ha).1) fun _ _ ha hop ↦ ha.touches harr hview hop
  have hmid := htidied.withInvariant (MidCall queues view s) (midCall_refl s) (fun _ _ ha hstep ↦
    ha.rely hview hstep) fun _ _ ha hop ↦ ha.touches harr hview hop.2 hop.1
  have havail : availIdx view (view.memory s) < 2 ^ 16 := readLE_lt _ _ 2
  have hlogged := takeEntry_ensures device view queueHeaderSize state havail s
  refine (hmid.and (hlogged.restrict fun _ _ hstep ↦ hstep.interferes)).imp
    (fun _ _ hop ↦ hop.1.1) ?_
  rintro reply t ⟨⟨⟨houtcome, htidy'⟩, hmid⟩, log, consumed, hcall, hlog, -⟩
  have hids : ∀ entry ∈ log, ∀ id, entry.1.queue? = some id → id = view.id :=
    fun entry hmem ↦ hcall.queue_eq view entry (mem_cons_of_mem _ hmem)
  refine ⟨htidy', fun other hother hne ↦ ?_, ?_⟩
  · refine processed_other hids hlog (fun hid ↦ hne ?_) (hmid.others other hother hne)
    exact harr.eq_of_id view hview other hother (by rw [hid]) (by rw [hid])
  have hheads_append : headsTaken (walkLog t) = headsTaken (walkLog s) ++ headsTaken log := by
    rw [hlog, headsTaken_append]
  have hexact := hcall.exactLog
  rcases houtcome with ⟨hidle, hposted, hrest, hheads, -⟩ | ⟨hpos, hconsumed⟩
  · have hzero : pending view s = 0 := by
      rcases hidle with hzero | hnever
      · exact hzero
      · exact absurd hnever Bool.false_ne_true
    have hmoved : Moved view [] s t := by
      rcases hmid.self with ⟨-, hmoved⟩ | ⟨hadvance, -⟩
      · exact hmoved
      · rw [hrest.processed_eq] at hadvance
        exact absurd hadvance.symm advanceCursor_ne
    have hnone : headsTaken log = [] := by
      rw [hheads_append] at hheads
      simpa using hheads
    refine .inl ⟨hzero, hposted, processed_self hids hlog hnone ?_ hmoved⟩
    rcases hexact.walk with ⟨-, -, hnothing⟩ | ⟨head, hhead, -⟩
    · exact hnothing
    · change headsTaken log = [head] at hhead
      rw [hnone] at hhead
      exact absurd hhead (cons_ne_nil _ _).symm
  · have hposted : reply.2 = true := by
      rw [hconsumed.posted_eq]
      exact htidy.formed view hview 0 hpos
    obtain ⟨head, hmoved⟩ : ∃ head, Moved view [head] s t := by
      rcases hmid.self with ⟨hsame, -⟩ | ⟨-, hmoved⟩
      · rw [hconsumed.processed_eq] at hsame
        exact absurd hsame advanceCursor_ne
      · exact hmoved
    have hhead := hmoved.head_eq hpos
    have hone : headsTaken log = [head] := by
      have happend := hconsumed.headsTaken_eq
      rw [hheads_append, append_cancel_left_eq, ← hhead] at happend
      exact happend
    refine .inr ⟨hposted, head, processed_self hids hlog hone ?_ hmoved⟩
    rcases hexact.walk with ⟨hempty, -⟩ | ⟨head', hhead', -, hpost, -⟩
    · change headsTaken log = [] at hempty
      rw [hone] at hempty
      exact absurd hempty (cons_ne_nil _ _)
    · change headsTaken log = [head'] at hhead'
      rw [hone, cons.injEq] at hhead'
      rw [hhead'.1]
      exact hpost (hexact.posted_iff.mp hposted)

end System

end Bhx.Virtqueue
