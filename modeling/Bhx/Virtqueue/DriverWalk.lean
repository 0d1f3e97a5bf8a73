import Bhx.Virtqueue.AvailRing

/-!
# The walk next to an obedient driver

While a driver meets its obligations, the entry at the daemon's cursor reads the same at every
moment of a call, so what the call does can be stated of guest memory instead of the descriptors as
they are visited. `Kept` is the invariant: the entry at the cursor, the contents of the used ring
and the absence of overlap. The driver keeps it (`Kept.rely`), and so does a device model whose
callbacks write guest memory only inside the buffer they are handed (`WritesInside`).

`walkChain_kept` says that the walk visits the chain of the entry. Besides, no operation of the walk
changes anything but the used ring, the buffers of the entry and the queue's own cursor (`Touches`),
which is what other queues and other parts of the daemon rely on.
-/

set_option autoImplicit false

namespace Bhx.Virtqueue

open SharedMemory Machine List Function

variable {w : World} {cursors : ℕ → ℕ → ℕ} {d : VringDesc} {op : Op}

/-! ### Device models that write inside their buffer -/

/-- An operation of a device model that, when it stores to guest memory, stores inside the
buffer. -/
def StoresInside (addr len : ℕ) : Op → World → Prop
  | .device _ _ (.store a size _), _ => Inside a size addr len
  | .device _ _ _, _ => True
  | _, _ => False

/-- Next to any interference, a program of a device model stores to guest memory only inside a
buffer. -/
def ProgramStoresInside {α : Type} (program : DevProg α) (addr len : ℕ) : Prop :=
  ∀ slot l2cpu w, Ensures exec (fun _ _ ↦ True) (StoresInside addr len) (fun _ _ ↦ True)
    (program.embed (Op.device slot l2cpu)) w

/-- The callbacks of a device model write guest memory only inside the buffer they are handed. -/
structure WritesInside {D : Type} (device : VirtioDevice D) : Prop where
  start : ∀ state queueIdx addr len,
    ProgramStoresInside (device.processQueueStart state queueIdx addr len) addr len
  data : ∀ state queueIdx addr len,
    ProgramStoresInside (device.processQueueData state queueIdx addr len) addr len
  complete : ∀ state queueIdx addr len,
    ProgramStoresInside (device.processQueueComplete state queueIdx addr len) addr len
  hasData : ∀ state queueIdx, ProgramStoresInside (device.queueHasData state queueIdx) 0 0

/-- A device model that takes every buffer, touches none and is always ready. -/
def sinkDevice : VirtioDevice Unit where
  numQueues := fun _ ↦ 1
  queueHeaderSize := fun _ ↦ 0
  processQueueStart := fun _ _ _ _ ↦ pure ()
  processQueueData := fun _ _ _ _ ↦ pure ()
  processQueueComplete := fun _ _ _ len ↦ pure ((), len)
  queueHasData := fun _ _ ↦ pure true

theorem writesInside_sinkDevice : WritesInside sinkDevice :=
  ⟨fun _ _ _ _ _ _ _ ↦ trivial, fun _ _ _ _ _ _ _ ↦ trivial, fun _ _ _ _ _ _ _ ↦ trivial,
    fun _ _ _ _ _ ↦ trivial⟩

section Kept

variable (view : QueueView)

/-! ### The invariant of a call -/

/-- The cursors are `cursors`, the entry at the cursor is pending and reads `entry`, the used ring
reads as in `used`, and no pending buffer overlaps a ring. -/
structure Kept (cursors : ℕ → ℕ → ℕ) (entry : AvailEntry) (used : Bytes) (w : World) : Prop where
  processed_eq : w.processed = cursors
  pending_pos : 0 < pending view w
  entry_eq : pendingEntry view w 0 = entry
  used_eq : ∀ a, view.usedQ ≤ a → a < view.usedQ + (4 + 8 * view.queueNum) →
    view.memory w a = used a
  buffers : BuffersApart view w

/-- What an operation of a call may change while the cursors are `cursors`: in guest memory only the
used ring and the buffers of the pending entry at the cursor, of the cursors only the queue's own,
which moves over a pending entry, and nothing in L1. -/
structure Touches (cursors : ℕ → ℕ → ℕ) (op : Op) (w : World) : Prop where
  dram : ∀ l2cpu a, (op.apply w).dram l2cpu a ≠ w.dram l2cpu a → l2cpu = view.id.l2cpu ∧
    ((view.usedQ ≤ a ∧ a < view.usedQ + (4 + 8 * view.queueNum)) ∨
      (0 < pending view w ∧ ∃ d ∈ (pendingEntry view w 0).chain,
        view.inRange d = true ∧ d.addr ≤ a ∧ a < d.addr + d.len))
  l1 : (op.apply w).l1 = w.l1
  processed_eq : w.processed = cursors
  processed : (op.apply w).processed = cursors ∨
    (0 < pending view w ∧ (op.apply w).dram = w.dram ∧
      (op.apply w).processed = advanceCursor view cursors)

theorem touches_of_apply_eq (h : op.apply w = w) (hproc : w.processed = cursors) :
    Touches view cursors op w where
  dram := fun l2cpu a hne ↦ absurd (by rw [h]) hne
  l1 := by rw [h]
  processed_eq := hproc
  processed := .inl (by rw [h, hproc])

/-- An operation of a call keeps the descriptor table and the avail ring of every queue that the
used ring and the buffers of the entry at the cursor do not overlap. -/
theorem Touches.sourceAgree {view other : QueueView} (h : Touches view cursors op w)
    (hused : other.id.l2cpu = view.id.l2cpu → view.UsedApartFrom other)
    (hbuffers : other.id.l2cpu = view.id.l2cpu → 0 < pending view w →
      ∀ d ∈ (pendingEntry view w 0).chain, view.inRange d = true → BufferApart other d) :
    SourceAgree other (other.memory (exec op w).2) (other.memory w) := by
  have hkeeps : ∀ ring ∈ other.rings, (other.id.l2cpu = view.id.l2cpu → Apart view.usedQ
      (4 + 8 * view.queueNum) ring.1 ring.2) → ∀ a,
      ring.1 ≤ a → a < ring.1 + ring.2 → other.memory (exec op w).2 a = other.memory w a := by
    intro ring hring hapart a hlow hhigh
    by_contra hne
    obtain ⟨hcpu, hin | ⟨hpos, d, hmem, hrange, hbuffer⟩⟩ := h.dram _ a hne
    · have hused := hapart hcpu
      unfold Apart at hused
      omega
    · have hbuffer' := hbuffers hcpu hpos d hmem hrange ring hring
      unfold Apart at hbuffer'
      omega
  refine ⟨hkeeps (other.descQ, 16 * other.queueNum) ?_ fun hcpu ↦ (hused hcpu).1,
    hkeeps (other.availQ, 4 + 2 * other.queueNum) ?_ fun hcpu ↦ (hused hcpu).2⟩
  · exact mem_cons_self
  · exact mem_cons_of_mem _ mem_cons_self

variable {entry : AvailEntry} {used : Bytes}

section Preservation

variable {view} {used' : Bytes} {w' : World}

variable (h : Kept view cursors entry used w)
include h

theorem Kept.rely (hrely : DriverRely view w w') : Kept view cursors entry used w' := by
  obtain ⟨hinterferes, hdriver⟩ := hrely
  have hstep := hdriver h.buffers
  refine ⟨hinterferes.processed_eq.trans h.processed_eq, ?_, ?_, ?_, hstep.buffers⟩
  · exact lt_of_lt_of_le h.pending_pos hstep.pending_le
  · rw [hstep.entry_eq 0 h.pending_pos, h.entry_eq]
  · intro a hlow hhigh
    rw [hstep.used_eq a hlow hhigh, h.used_eq a hlow hhigh]

/-- A change of memory that keeps the descriptor table and the avail ring. -/
theorem Kept.of_agree (hagree : SourceAgree view (view.memory w') (view.memory w))
    (hcur : w'.processed = w.processed)
    (hused : ∀ a, view.usedQ ≤ a → a < view.usedQ + (4 + 8 * view.queueNum) →
      view.memory w' a = used' a) : Kept view cursors entry used' w' where
  processed_eq := hcur.trans h.processed_eq
  pending_pos := by
    rw [pending_eq_of_agree hagree (cursor_eq_of_processed_eq hcur)]
    exact h.pending_pos
  entry_eq := by
    rw [pendingEntry_eq_of_agree hagree (cursor_eq_of_processed_eq hcur), h.entry_eq]
  used_eq := hused
  buffers := buffersApart_of_agree hagree (cursor_eq_of_processed_eq hcur) h.buffers

theorem Kept.of_memory_eq (hmemory : view.memory w' = view.memory w)
    (hcur : w'.processed = w.processed) : Kept view cursors entry used w' := by
  refine h.of_agree ?_ hcur ?_
  · rw [hmemory]
    exact ⟨fun _ _ _ ↦ rfl, fun _ _ _ ↦ rfl⟩
  · rw [hmemory]
    exact h.used_eq

/-- A store inside a buffer that overlaps no ring. -/
theorem Kept.store {addr len a size value : ℕ}
    (hbuffer : ∀ ring ∈ view.rings, Apart addr len ring.1 ring.2)
    (hinside : Inside a size addr len)
    (hmemory : view.memory w' = writeLE (view.memory w) a size value)
    (hcur : w'.processed = w.processed) : Kept view cursors entry used w' := by
  have hapart : ∀ ring ∈ view.rings, Apart a size ring.1 ring.2 := fun ring hring ↦
    (hbuffer ring hring).of_inside hinside
  simp only [QueueView.rings, forall_mem_cons] at hapart
  obtain ⟨hdesc, havail, husedRing, -⟩ := hapart
  refine h.of_agree ?_ hcur ?_
  · rw [hmemory]
    exact sourceAgree_writeLE hdesc havail
  · intro b hlow hhigh
    unfold Apart at husedRing
    rw [hmemory, writeLE_apply_of_not_mem (by omega), h.used_eq b hlow hhigh]

theorem Kept.storeUsed (hlayout : view.UsedApart) {a size value : ℕ}
    (hinside : Inside a size view.usedQ (4 + 8 * view.queueNum))
    (hmemory : view.memory w' = writeLE (view.memory w) a size value)
    (hcur : w'.processed = w.processed) :
    Kept view cursors entry (writeLE used a size value) w' := by
  refine h.of_agree ?_ hcur ?_
  · rw [hmemory]
    exact sourceAgree_writeLE (hlayout.1.of_inside hinside) (hlayout.2.of_inside hinside)
  · intro b hlow hhigh
    rw [hmemory]
    unfold writeLE
    rw [h.used_eq b hlow hhigh]

theorem Kept.chain_eq : chainFrom view (view.memory w) view.queueNum entry.head = entry.chain := by
  rw [← h.entry_eq]
  rfl

/-- What is left of the entry's chain is what memory holds where the walk is. -/
theorem Kept.chainFrom_eq {steps : ℕ} {front rest : List VringDesc}
    (hchain : entry.chain = front ++ rest) (hpasses : ∀ d ∈ front, view.passes d = true)
    (hsteps : front.length + steps = view.queueNum) :
    chainFrom view (view.memory w) steps (nextIdx entry.head front) = rest := by
  refine chainFrom_nextIdx view hpasses ?_
  rw [hsteps, h.chain_eq, hchain]

theorem Kept.bufferApart (hmem : d ∈ entry.chain) (hrange : view.inRange d = true) :
    BufferApart view d := by
  rw [← h.entry_eq] at hmem
  exact h.buffers 0 h.pending_pos d hmem hrange

end Preservation

/-! ### The walk -/

section Walk

variable {view} {D : Type} {device : VirtioDevice D}

/-- The bytes `[addr, addr + len)` lie in buffers that the entry hands on. -/
def Covered (view : QueueView) (entry : AvailEntry) (addr len : ℕ) : Prop :=
  ∀ a, addr ≤ a → a < addr + len →
    ∃ d ∈ entry.chain, view.inRange d = true ∧ d.addr ≤ a ∧ a < d.addr + d.len

theorem kept_deviceOp {addr len : ℕ} (h : Kept view cursors entry used w)
    (hbuffer : ∀ ring ∈ view.rings, Apart addr len ring.1 ring.2)
    (hop : StoresInside addr len op w) : Kept view cursors entry used (exec op w).2 := by
  cases op with
  | device slot l2cpu op =>
    cases op with
    | store a size value =>
      by_cases hcpu : l2cpu = view.id.l2cpu
      · subst hcpu
        have hmemory : view.memory (exec (.device slot view.id.l2cpu (.store a size value)) w).2 =
            writeLE (view.memory w) a size value := update_self ..
        exact h.store hbuffer hop hmemory rfl
      · refine h.of_memory_eq ?_ rfl
        exact update_of_ne (Ne.symm hcpu) ..
    | load | hostLoad | hostStore | call => exact h.of_memory_eq rfl rfl
  | _ => exact hop.elim

/-- A device model's operation inside a buffer of the entry touches only that. -/
theorem touches_deviceOp {op : DevOp} {addr len : ℕ} (h : Kept view cursors entry used w)
    (hcovered : Covered view entry addr len)
    (hop : StoresInside addr len (.device view.id.slot view.id.l2cpu op) w) :
    Touches view cursors (.device view.id.slot view.id.l2cpu op) w where
  processed_eq := h.processed_eq
  dram := by
    intro l2cpu a hne
    cases op with
    | store b size value =>
      by_cases hcpu : l2cpu = view.id.l2cpu
      · refine ⟨hcpu, .inr ?_⟩
        subst hcpu
        have hmemory : ((Op.device view.id.slot view.id.l2cpu (.store b size value)).apply w).dram
            view.id.l2cpu = writeLE (view.memory w) b size value := update_self ..
        have hrange : b ≤ a ∧ a < b + size := by
          by_contra hout
          rw [hmemory, writeLE_apply_of_not_mem hout] at hne
          exact hne rfl
        unfold StoresInside Inside at hop
        rw [h.entry_eq]
        exact ⟨h.pending_pos, hcovered a (by omega) (by omega)⟩
      · exact absurd (congrFun (update_of_ne hcpu ..) a) hne
    | load | hostLoad | hostStore | call => exact absurd rfl hne
  l1 := DevOp.apply_l1 _ _ _ _
  processed := .inl ((DevOp.apply_processed _ _ _ _).trans h.processed_eq)

/-- A program keeps to the steps of a walk, next to a driver that keeps to the rules. -/
abbrev Behaves {α : Type} (view : QueueView) (cursors : ℕ → ℕ → ℕ) (post : α → World → Prop)
    (program : Prog α) (w : World) : Prop :=
  Ensures exec (DriverRely view) (Touches view cursors) post program w

theorem onDevice_kept {α : Type} {program : DevProg α} {addr len : ℕ}
    (hprog : ProgramStoresInside program addr len)
    (hbuffer : ∀ ring ∈ view.rings, Apart addr len ring.1 ring.2)
    (hcovered : Covered view entry addr len) (hkept : Kept view cursors entry used w) :
    Behaves view cursors
      (fun _ s ↦ Kept view cursors entry used s ∧ Logged w [] s) (onDevice view program) w := by
  have hlogged : Ensures exec (DriverRely view) anyOp (fun _ s ↦ Logged w [] s)
    (onDevice view program) w := (onDevice_ensures view program w).restrict fun _ _ hrely ↦ hrely.1
  have hstores : Ensures exec (DriverRely view) (StoresInside addr len) (fun _ _ ↦ True) (onDevice
    view program) w := (hprog view.id.slot view.id.l2cpu w).restrict fun _ _ _ ↦ trivial
  have hinvariant := hstores.withInvariant (Kept view cursors entry used) hkept
    (fun _ _ h hrely ↦ h.rely hrely) fun _ _ h hop ↦ kept_deviceOp h hbuffer hop
  have hall := (hinvariant.and hlogged).and (ensures_onDevice view program w)
  refine hall.imp ?_ ?_
  · rintro op s ⟨⟨⟨hop, hs⟩, -⟩, devOp, rfl⟩
    exact touches_deviceOp hs hcovered hop
  · rintro - s ⟨⟨⟨-, hs⟩, hlog⟩, -⟩
    exact ⟨hs, hlog⟩

theorem ensures_ringLoad_kept (part : RingPart) {addr size : ℕ}
    (hkept : Kept view cursors entry used w) :
    Behaves view cursors (fun answer s ↦ Kept view cursors entry used s ∧
        Logged w [(.ringLoad view.id part addr size, answer)] s ∧
        answer = readLE (view.memory s) addr size)
      (Program.perform (.ringLoad view.id part addr size)) w := by
  intro w' hrely
  have hkept' := hkept.rely hrely
  exact ⟨touches_of_apply_eq view rfl hkept'.processed_eq, hkept'.of_memory_eq rfl rfl,
    logged_exec hrely.1 rfl rfl, rfl⟩

/-- A callback boundary changes neither memory nor cursors. -/
theorem ensures_boundary_kept (hstep : ∀ answer, walkStep (.did op answer) = some (op, answer))
    (happly : ∀ w', op.apply w' = w') (hsilent : ∀ w' : World, op.answer w' = 0)
    (hkept : Kept view cursors entry used w) :
    Behaves view cursors
      (fun _ s ↦ Kept view cursors entry used s ∧ Logged w [(op, 0)] s) (Program.perform op) w := by
  intro w' hrely
  have hkept' := hkept.rely hrely
  have hlogged := logged_exec hrely.1 (hstep (op.answer w')) (by rw [happly])
  rw [hsilent w'] at hlogged
  refine ⟨touches_of_apply_eq view (happly w') hkept'.processed_eq,
    hkept'.of_memory_eq ?_ ?_, hlogged⟩
  · rw [exec_snd, happly]
    rfl
  · rw [exec_snd, happly, record_processed]

theorem handTo_kept {β : Type} {callback : Callback} {body : DevProg β} {value : β → ℕ}
    (hbody : ProgramStoresInside body d.addr d.len) (hmem : d ∈ entry.chain)
    (hrange : view.inRange d = true) (hkept : Kept view cursors entry used w) :
    Behaves view cursors (fun reply s ↦ Kept view cursors entry used s ∧
        Logged w [enterStep view callback d, (.leave view.id callback (value reply), 0)] s)
      (handTo view callback body value d) w := by
  refine (ensures_boundary_kept (fun _ ↦ rfl) (fun _ ↦ rfl) (fun _ ↦ rfl) hkept).bind
    fun _ s ⟨hkept, hentered⟩ ↦ ?_
  have hcovered : Covered view entry d.addr d.len := fun a hlow hhigh ↦
    ⟨d, hmem, hrange, hlow, hhigh⟩
  refine (onDevice_kept hbody (hkept.bufferApart hmem hrange) hcovered hkept).bind
    fun reply t ⟨hkept, hran⟩ ↦ ?_
  refine (ensures_boundary_kept (fun _ ↦ rfl) (fun _ ↦ rfl) (fun _ ↦ rfl) hkept).bind
    fun _ u ⟨hkept, hleft⟩ ↦ ?_
  exact ⟨hkept, (hentered.trans hran).trans hleft⟩

theorem forward_kept {queueHeaderSize numBytesWritten : ℕ} {state : D}
    (hdev : WritesInside device) (hmem : d ∈ entry.chain) (hrange : view.inRange d = true)
    (hkept : Kept view cursors entry used w) :
    Behaves view cursors (fun _ s ↦ Kept view cursors entry used s ∧ Logged w
        [enterStep view (forwardCallback queueHeaderSize numBytesWritten) d,
          (.leave view.id (forwardCallback queueHeaderSize numBytesWritten) 0, 0)] s)
      (forward device view queueHeaderSize numBytesWritten state d) w := by
  unfold forward forwardCallback
  split_ifs with hheader
  · exact handTo_kept (hdev.start _ _ _ _) hmem hrange hkept
  · exact handTo_kept (hdev.data _ _ _ _) hmem hrange hkept

/-- The walk visits the rest of the entry's chain: `front` has been passed, `rest` is left. -/
theorem walkChain_kept (hdev : WritesInside device) (queueHeaderSize : ℕ) {stepsLeft : ℕ}
    (numBytesWritten : ℕ) (state : D) (front rest : List VringDesc)
    (hchain : entry.chain = front ++ rest) (hpasses : ∀ d ∈ front, view.passes d = true)
    (hsteps : front.length + stepsLeft = view.queueNum) (hkept : Kept view cursors entry used w) :
    Behaves view cursors (fun _ s ↦ Kept view cursors entry used s ∧
        ∃ log, Logged w log s ∧ (visited log).map Prod.snd = rest)
      (walkChain device view queueHeaderSize stepsLeft (nextIdx entry.head front) numBytesWritten
        state) w := by
  induction stepsLeft generalizing numBytesWritten state front rest w with
  | zero =>
    have hrest := hkept.chainFrom_eq hchain hpasses hsteps
    exact ⟨hkept, [], ⟨by rw [append_nil], rfl⟩, hrest⟩
  | succ stepsLeft ih =>
    refine (ensures_ringLoad_kept .desc hkept).bind ?_
    rintro raw s ⟨hkept, hread, hraw⟩
    -- The descriptor just read is the next one of the chain.
    have hrest := hkept.chainFrom_eq hchain hpasses hsteps
    have hdesc : descAt view (view.memory s) (nextIdx entry.head front) = .ofRaw raw := by
      rw [hraw]
      rfl
    rw [chainFrom, hdesc] at hrest
    have hmem : VringDesc.ofRaw raw ∈ entry.chain := by
      rw [hchain, ← hrest]
      exact mem_append_right _ mem_cons_self
    by_cases hrange : view.inRange (.ofRaw raw) = true
    · rw [if_pos hrange]
      by_cases hnext : (VringDesc.ofRaw raw).hasNext = true
      · have hpass : view.passes (.ofRaw raw) = true := by
          rw [QueueView.passes, hrange, hnext, Bool.and_self]
        rw [if_pos hnext]
        refine (forward_kept hdev hmem hrange hkept).bind ?_
        rintro state' t ⟨hkept, hforwarded⟩
        have hrec := ih ((numBytesWritten + (VringDesc.ofRaw raw).len) % 2 ^ 64) state'
          (front ++ [.ofRaw raw]) _ (by rw [hchain, ← hrest, append_cons]) (by
            intro d hd
            rcases mem_append.mp hd with hd | hd
            · exact hpasses d hd
            · rw [mem_singleton.mp hd]
              exact hpass)
          (by
            rw [length_append, length_singleton]
            omega) hkept
        rw [nextIdx_append_singleton] at hrec
        refine hrec.weaken ?_
        rintro _ u ⟨hkept, log, hlogged, hvis⟩
        refine ⟨hkept, _, (hread.trans hforwarded).trans hlogged, ?_⟩
        rw [← hrest, ← hvis]
        rfl
      · have hpass : view.passes (.ofRaw raw) = false := by
          rw [QueueView.passes, Bool.eq_false_of_not_eq_true hnext, Bool.and_false]
        rw [if_neg (by rw [hpass]; exact Bool.false_ne_true)] at hrest
        rw [if_neg hnext]
        refine (handTo_kept (hdev.complete _ _ _ _) hmem hrange hkept).bind ?_
        rintro reply t ⟨hkept, hlogged⟩
        refine ⟨hkept, _, hread.trans hlogged, ?_⟩
        rw [← hrest]
        rfl
    · have hpass : view.passes (.ofRaw raw) = false := by
        rw [QueueView.passes, Bool.eq_false_of_not_eq_true hrange, Bool.false_and]
      rw [if_neg (by rw [hpass]; exact Bool.false_ne_true)] at hrest
      rw [if_neg hrange]
      refine ⟨hkept, _, hread, ?_⟩
      rw [← hrest]
      rfl

end Walk

end Kept

end Bhx.Virtqueue
