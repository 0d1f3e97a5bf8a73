import Bhx.Virtqueue.ChainAcceptance

/-!
# The avail ring and what a driver owes it

What the rings of a queue say at one moment, read off guest memory: the published entries
(`entryAt`, a head and the chain of descriptors that starts there), how many of them the daemon has
not consumed (`pending`), and the elements of the used ring. `chainFrom` is the chain a walk would
visit if the memory stood still, and `wellFormed` says that it is one to post: every descriptor in
range, the last one without the `NEXT` flag.

A virtio driver owes the device that it never writes the used ring, that a published entry stays
published and keeps its head and its descriptors until the device is done with it, and that no
buffer overlaps the rings. `DriverStep` is that obligation for one step of the guest, relative to
the daemon's cursor; everything not mentioned in it the guest may change, in particular the free
descriptors, the unpublished slots, `avail.idx` and all buffers.
-/

set_option autoImplicit false

namespace Bhx.Virtqueue

open SharedMemory Machine QueueView

section Memory

variable (view : QueueView)

/-! ### Reading the rings -/

/-- The guest memory that holds the queue. -/
def QueueView.memory (w : World) : Bytes := w.dram view.id.l2cpu

/-- The daemon's cursor of the queue. -/
def QueueView.cursor (w : World) : ℕ := w.processed view.id.slot view.id.queue

/-- The descriptor at an index of the table. -/
def descAt (m : Bytes) (descIdx : ℕ) : VringDesc := .ofRaw (readLE m (view.descAddr descIdx) 16)

/-- A walk goes on after this descriptor. -/
def QueueView.passes (d : VringDesc) : Bool := view.inRange d && d.hasNext

/-- The chain from an index of the table: at most `steps` descriptors, up to and with the first one
that is out of range or has no successor. -/
def chainFrom (m : Bytes) : (steps descIdx : ℕ) → List VringDesc
  | 0, _ => []
  | steps + 1, descIdx =>
    descAt view m descIdx ::
      if view.passes (descAt view m descIdx) then
        chainFrom m steps (descAt view m descIdx).next
      else []

/-- A published entry: its head and its chain. -/
structure AvailEntry where
  head : ℕ
  chain : List VringDesc
deriving DecidableEq, Repr

/-- The entry at an index of the avail ring. -/
def entryAt (m : Bytes) (idx : ℕ) : AvailEntry where
  head := readLE m (view.availRingAddr idx) 2
  chain := chainFrom view m view.queueNum (readLE m (view.availRingAddr idx) 2)

/-- A chain to post: every descriptor is in range and the last one has no successor. -/
def wellFormed (chain : List VringDesc) : Bool :=
  chain.all view.inRange && chain.getLast?.any fun last ↦ !last.hasNext

/-- `avail.idx`. -/
def availIdx (m : Bytes) : ℕ := readLE m view.availIdxAddr 2

/-- `used.idx`. -/
def usedIdx (m : Bytes) : ℕ := readLE m view.usedIdxAddr 2

/-- The number of published entries that the daemon has not consumed. -/
def pending (w : World) : ℕ :=
  (availIdx view (view.memory w) + 2 ^ 16 - view.cursor w) % 2 ^ 16

/-- The entry that is `k` places behind the cursor. -/
def pendingEntry (w : World) (k : ℕ) : AvailEntry :=
  entryAt view (view.memory w) ((view.cursor w + k) % 2 ^ 16)

/-! ### Obligations of the driver -/

/-- The byte ranges of the descriptor table, the avail ring and the used ring. -/
def QueueView.rings : List (ℕ × ℕ) :=
  [(view.descQ, 16 * view.queueNum), (view.availQ, 4 + 2 * view.queueNum),
    (view.usedQ, 4 + 8 * view.queueNum)]

/-- The used ring overlaps neither the avail ring nor the descriptor table. -/
def QueueView.UsedApart : Prop :=
  Apart view.usedQ (4 + 8 * view.queueNum) view.descQ (16 * view.queueNum) ∧
    Apart view.usedQ (4 + 8 * view.queueNum) view.availQ (4 + 2 * view.queueNum)

/-- The used ring overlaps neither the avail ring nor the descriptor table of another queue. -/
def QueueView.UsedApartFrom (other : QueueView) : Prop :=
  Apart view.usedQ (4 + 8 * view.queueNum) other.descQ (16 * other.queueNum) ∧
    Apart view.usedQ (4 + 8 * view.queueNum) other.availQ (4 + 2 * other.queueNum)

instance (other : QueueView) : Decidable (view.UsedApartFrom other) :=
  inferInstanceAs (Decidable (_ ∧ _))

instance : Decidable view.UsedApart := inferInstanceAs (Decidable (_ ∧ _))

/-- The buffer of a descriptor overlaps no ring. -/
def BufferApart (d : VringDesc) : Prop :=
  ∀ ring ∈ view.rings, Apart d.addr d.len ring.1 ring.2

instance (d : VringDesc) : Decidable (BufferApart view d) :=
  inferInstanceAs (Decidable (∀ ring ∈ view.rings, Apart d.addr d.len ring.1 ring.2))

/-- No buffer that a walk over a pending entry hands on overlaps a ring. -/
def BuffersApart (w : World) : Prop :=
  ∀ k < pending view w, ∀ d ∈ (pendingEntry view w k).chain, view.inRange d = true →
    BufferApart view d

instance (w : World) : Decidable (BuffersApart view w) :=
  inferInstanceAs (Decidable (∀ k < pending view w, ∀ d ∈ (pendingEntry view w k).chain,
    view.inRange d = true → BufferApart view d))

/-- What a step of the guest leaves alone, and what it owes new entries. -/
structure DriverStep (w w' : World) : Prop where
  used_eq : ∀ a, view.usedQ ≤ a → a < view.usedQ + (4 + 8 * view.queueNum) →
    view.memory w' a = view.memory w a
  pending_le : pending view w ≤ pending view w'
  entry_eq : ∀ k < pending view w, pendingEntry view w' k = pendingEntry view w k
  buffers : BuffersApart view w'

/-- The interference of a guest that meets its obligations. -/
def DriverRely (w w' : World) : Prop :=
  Interferes w w' ∧ (BuffersApart view w → DriverStep view w w')

theorem driverStep_refl {w : World} (hbuffers : BuffersApart view w) : DriverStep view w w :=
  ⟨fun _ _ _ ↦ rfl, le_rfl, fun _ _ ↦ rfl, hbuffers⟩

/-! ### What the readings depend on -/

/-- Two memories agree on the descriptor table and the avail ring. -/
structure SourceAgree (m m' : Bytes) : Prop where
  desc : ∀ a, view.descQ ≤ a → a < view.descQ + 16 * view.queueNum → m a = m' a
  avail : ∀ a, view.availQ ≤ a → a < view.availQ + (4 + 2 * view.queueNum) → m a = m' a

section Congruence

variable {view} {m m' : Bytes}

section

variable (h : SourceAgree view m m')
include h

theorem SourceAgree.descAt_eq (descIdx : ℕ) : descAt view m descIdx = descAt view m' descIdx := by
  have hslot : descIdx % view.queueNum < view.queueNum := Nat.mod_lt _ view.queueNum_pos
  have hraw : readLE m (view.descAddr descIdx) 16 = readLE m' (view.descAddr descIdx) 16 := by
    refine readLE_congr fun a hlow hhigh ↦ h.desc a ?_ ?_
    · unfold descAddr at hlow
      omega
    · unfold descAddr at hhigh
      omega
  unfold descAt
  rw [hraw]

theorem SourceAgree.chainFrom_eq (steps descIdx : ℕ) :
    chainFrom view m steps descIdx = chainFrom view m' steps descIdx := by
  induction steps generalizing descIdx with
  | zero => rfl
  | succ steps ih => simp only [chainFrom, h.descAt_eq descIdx, ih]

theorem SourceAgree.availIdx_eq : availIdx view m = availIdx view m' := by
  refine readLE_congr fun a hlow hhigh ↦ h.avail a ?_ ?_
  · unfold availIdxAddr at hlow
    omega
  · unfold availIdxAddr at hhigh
    omega

theorem SourceAgree.entryAt_eq (idx : ℕ) : entryAt view m idx = entryAt view m' idx := by
  have hslot : idx % view.queueNum < view.queueNum := Nat.mod_lt _ view.queueNum_pos
  have hhead : readLE m (view.availRingAddr idx) 2 = readLE m' (view.availRingAddr idx) 2 := by
    refine readLE_congr fun a hlow hhigh ↦ h.avail a ?_ ?_
    · unfold availRingAddr at hlow
      omega
    · unfold availRingAddr at hhigh
      omega
  unfold entryAt
  rw [hhead, h.chainFrom_eq]

end

/-- A store that meets neither the descriptor table nor the avail ring keeps both. -/
theorem sourceAgree_writeLE {m : Bytes} {addr size value : ℕ}
    (hdesc : Apart addr size view.descQ (16 * view.queueNum))
    (havail : Apart addr size view.availQ (4 + 2 * view.queueNum)) :
    SourceAgree view (writeLE m addr size value) m where
  desc := by
    intro a hlow hhigh
    unfold Apart at hdesc
    exact writeLE_apply_of_not_mem (by omega)
  avail := by
    intro a hlow hhigh
    unfold Apart at havail
    exact writeLE_apply_of_not_mem (by omega)

variable {w w' : World}

theorem cursor_eq_of_processed_eq (h : w'.processed = w.processed) :
    view.cursor w' = view.cursor w :=
  congrFun₂ h _ _

variable (h : SourceAgree view (view.memory w') (view.memory w))
include h

variable (hcur : view.cursor w' = view.cursor w)
include hcur

theorem pending_eq_of_agree : pending view w' = pending view w := by
  unfold pending
  rw [h.availIdx_eq, hcur]

theorem pendingEntry_eq_of_agree (k : ℕ) : pendingEntry view w' k = pendingEntry view w k := by
  unfold pendingEntry
  rw [h.entryAt_eq, hcur]

theorem buffersApart_of_agree (hbuffers : BuffersApart view w) : BuffersApart view w' := by
  intro k hk d hmem hrange
  rw [pending_eq_of_agree h hcur] at hk
  rw [pendingEntry_eq_of_agree h hcur] at hmem
  exact hbuffers k hk d hmem hrange

end Congruence

/-! ### Positions on a chain -/

/-- The table index a walk is at after passing the descriptors `front` from `descIdx`. -/
def nextIdx : (descIdx : ℕ) → (front : List VringDesc) → ℕ
  | descIdx, [] => descIdx
  | _, d :: front => nextIdx d.next front

theorem nextIdx_append_singleton (descIdx : ℕ) (front : List VringDesc) (d : VringDesc) :
    nextIdx descIdx (front ++ [d]) = d.next := by
  induction front generalizing descIdx with
  | nil => rfl
  | cons first _ ih => exact ih first.next

/-- After passing `front`, what is left of the chain is the chain from where the walk is. -/
theorem chainFrom_nextIdx {m : Bytes} {steps descIdx : ℕ} {front rest : List VringDesc}
    (hpasses : ∀ d ∈ front, view.passes d = true)
    (hchain : chainFrom view m (front.length + steps) descIdx = front ++ rest) :
    chainFrom view m steps (nextIdx descIdx front) = rest := by
  induction front generalizing descIdx with
  | nil => simpa [nextIdx] using hchain
  | cons d front ih =>
    rw [List.length_cons, Nat.add_right_comm, chainFrom, List.cons_append,
      List.cons.injEq] at hchain
    obtain ⟨hd, htail⟩ := hchain
    rw [hd, if_pos (hpasses d List.mem_cons_self)] at htail
    exact ih (fun d' hmem ↦ hpasses d' (List.mem_cons_of_mem d hmem)) htail

end Memory

end Bhx.Virtqueue
