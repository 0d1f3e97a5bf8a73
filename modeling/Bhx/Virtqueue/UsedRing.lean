import Mathlib.Data.List.Basic
import Mathlib.Data.List.Induction
import Bhx.Virtqueue.ConsumeEntry

/-!
# The used ring over many calls

Any number of successive calls of `processOneChainForQueue` on one queue (`calls`), next to a guest
that publishes entries while they run. `ledger` is what the guest asked for: for every call that
consumed an avail entry, that entry as guest memory showed it when the call looked, with its place
in the avail ring and the value `process_queue_complete` returned for it. Nothing in the ledger
comes from what the walk read or wrote except that returned value.

`usedRing_exact` compares the two. The cursor moves over the ledger, `used.idx` over its well-formed
part, and the walk's stores to guest memory are exactly the elements of the well-formed part, in
avail order, each with `used.idx` advanced behind it. All three indices wrap modulo `2 ^ 16` and the
slots modulo `queue_num`; because a power of two below `2 ^ 16` divides it, the last `queue_num`
elements posted are still in the ring.
-/

set_option autoImplicit false

namespace Bhx.Virtqueue

open SharedMemory Machine List

section UsedRing

variable (view : QueueView) (m : Bytes) {w : World}

/-! ### Appending elements -/

/-- An avail entry that a call consumed. -/
structure Completion where
  /-- The index of the entry in the avail ring. -/
  position : ℕ
  entry : AvailEntry
  /-- What `process_queue_complete` returned. -/
  returned : ℕ
deriving DecidableEq, Repr

/-- The length posted for a completion. -/
def Completion.len (completion : Completion) : ℕ :=
  (frontBytes completion.entry.chain + completion.returned) % 2 ^ 32

/-- The stores that append completions from `usedIdx` on. -/
def appendStores (usedIdx : ℕ) (completions : List Completion) : List Op :=
  completions.zipIdx.flatMap fun numbered ↦
    postStores view ((usedIdx + numbered.2) % 2 ^ 16) numbered.1.entry.head numbered.1.len

/-- Memory after completions are appended to the used ring. -/
def appendBytes (used : Bytes) (completions : List Completion) : Bytes :=
  completions.foldl (fun m completion ↦ postedBytes view m completion.entry.head completion.len)
    used

/-- The used element of an index, as id and length. -/
def usedElem (m : Bytes) (idx : ℕ) : ℕ × ℕ :=
  (readLE m (view.usedElemAddr idx) 4, readLE m (view.usedElemAddr idx + 4) 4)

theorem appendStores_cons {u : ℕ} {completion : Completion} {rest : List Completion}
    (hu : u < 2 ^ 16) :
    appendStores view u (completion :: rest) =
      postStores view u completion.entry.head completion.len ++
        appendStores view ((u + 1) % 2 ^ 16) rest := by
  unfold appendStores
  rw [zipIdx_cons', flatMap_cons, flatMap_map, Nat.add_zero, Nat.mod_eq_of_lt hu]
  refine congrArg _ (flatMap_congr fun numbered _ ↦ ?_)
  have hindex : (u + (numbered.2 + 1)) % 2 ^ 16 = ((u + 1) % 2 ^ 16 + numbered.2) % 2 ^ 16 := by
    omega
  rw [← hindex]
  rfl

theorem usedIdx_lt : usedIdx view m < 2 ^ 16 := readLE_lt _ _ 2

theorem usedIdx_postedBytes (head len : ℕ) :
    usedIdx view (postedBytes view m head len) = (usedIdx view m + 1) % 2 ^ 16 := by
  have hself := readLE_writeLE_self (writeLE (writeLE m (view.usedElemAddr (usedIdx view m)) 4 head)
    (view.usedElemAddr (usedIdx view m) + 4) 4 len) view.usedIdxAddr 2
    ((usedIdx view m + 1) % 2 ^ 16)
  refine hself.trans ?_
  omega

theorem usedIdx_appendBytes (completions : List Completion) :
    usedIdx view (appendBytes view m completions) =
      (usedIdx view m + completions.length) % 2 ^ 16 := by
  induction completions generalizing m with
  | nil => exact (Nat.mod_eq_of_lt (usedIdx_lt view m)).symm
  | cons completion rest ih =>
    have h := ih (postedBytes view m completion.entry.head completion.len)
    rw [usedIdx_postedBytes] at h
    refine h.trans ?_
    rw [length_cons]
    omega

/-- The element just posted reads back; one in another slot is kept. -/
theorem usedElem_postedBytes (head len idx : ℕ) :
    usedElem view (postedBytes view m head len) idx =
      if idx % view.queueNum = usedIdx view m % view.queueNum then (head % 2 ^ 32, len % 2 ^ 32)
      else usedElem view m idx := by
  unfold usedElem postedBytes
  generalize usedIdx view m = u
  -- The store of `used.idx` meets no element.
  have hidx : ∀ bytes value addr, view.usedQ + 4 ≤ addr →
      readLE (writeLE bytes view.usedIdxAddr 2 value) addr 4 = readLE bytes addr 4 := by
    intro bytes value addr haddr
    refine readLE_writeLE_of_apart (.inl ?_)
    unfold QueueView.usedIdxAddr
    omega
  have hbase : view.usedQ + 4 ≤ view.usedElemAddr idx := Nat.le_add_right _ _
  rw [hidx _ _ _ hbase, hidx _ _ _ (by omega)]
  by_cases hsame : idx % view.queueNum = u % view.queueNum
  · have haddr : view.usedElemAddr idx = view.usedElemAddr u := by
      unfold QueueView.usedElemAddr
      rw [hsame]
    rw [if_pos hsame, haddr, readLE_writeLE_of_apart (.inr le_rfl), readLE_writeLE_self,
      readLE_writeLE_self]
    rfl
  · have hapart : Apart (view.usedElemAddr u) 8 (view.usedElemAddr idx) 8 := by
      unfold Apart QueueView.usedElemAddr
      omega
    have hword : ∀ bytes value addr base, Inside addr 4 (view.usedElemAddr u) 8 →
        Inside base 4 (view.usedElemAddr idx) 8 →
        readLE (writeLE bytes addr 4 value) base 4 = readLE bytes base 4 := by
      intro bytes value addr base haddr hbase
      refine readLE_writeLE_of_apart ?_
      unfold Apart Inside at *
      omega
    have hfirst : ∀ addr, Inside addr 4 addr 8 := fun addr ↦ ⟨le_rfl, by omega⟩
    have hsecond : ∀ addr, Inside (addr + 4) 4 addr 8 := fun addr ↦ ⟨by omega, by omega⟩
    rw [if_neg hsame, hword _ _ _ _ (hsecond _) (hfirst _), hword _ _ _ _ (hfirst _) (hfirst _),
      hword _ _ _ _ (hsecond _) (hsecond _), hword _ _ _ _ (hfirst _) (hsecond _)]

variable {completions : List Completion}

/-- The last `queue_num` elements appended are in the ring. -/
theorem usedElem_appendBytes (hdvd : view.queueNum ∣ 2 ^ 16) {m : Bytes}
    (hheads : ∀ c ∈ completions, c.entry.head < 2 ^ 16) {k : ℕ} {completion : Completion}
    (hk : completions[k]? = some completion) (hlast : completions.length ≤ k + view.queueNum) :
    usedElem view (appendBytes view m completions) ((usedIdx view m + k) % 2 ^ 16) =
      (completion.entry.head, completion.len) := by
  induction completions using List.reverseRecOn generalizing k with
  | nil => simp at hk
  | append_singleton front last ih =>
    have happend : appendBytes view m (front ++ [last]) =
        postedBytes view (appendBytes view m front) last.entry.head last.len := by
      unfold appendBytes
      rw [List.foldl_append]
      rfl
    rw [happend, usedElem_postedBytes, usedIdx_appendBytes, Nat.mod_mod_of_dvd _ hdvd,
      Nat.mod_mod_of_dvd _ hdvd]
    have hlen : k < front.length + 1 := by
      have hlt := (List.getElem?_eq_some_iff.mp hk).1
      rwa [List.length_append, List.length_singleton] at hlt
    by_cases hnew : k = front.length
    · subst hnew
      rw [if_pos rfl]
      rw [List.getElem?_concat_length, Option.some.injEq] at hk
      subst hk
      have hhead := hheads last (by simp)
      refine Prod.ext (Nat.mod_eq_of_lt (by omega)) ?_
      exact Nat.mod_mod _ _
    · -- The slots differ, because the two indices differ by less than `queue_num`.
      have hslots : (usedIdx view m + k) % view.queueNum ≠
          (usedIdx view m + front.length) % view.queueNum := by
        intro hmod
        have hdiff : view.queueNum ∣ front.length - k := by
          have hmodEq : usedIdx view m + k ≡ usedIdx view m + front.length [MOD view.queueNum] :=
            hmod
          have h := (Nat.modEq_iff_dvd' (by omega)).mp hmodEq
          rwa [Nat.add_sub_add_left] at h
        rw [List.length_append, List.length_singleton] at hlast
        have hle := Nat.le_of_dvd (by omega) hdiff
        omega
      rw [if_neg hslots]
      rw [List.getElem?_append_left (by omega)] at hk
      rw [List.length_append, List.length_singleton] at hlast
      exact ih (fun c hc ↦ hheads c (List.mem_append_left _ hc)) hk (by omega)

/-! ### What the elements depend on -/

/-- Two memories agree on the used ring. -/
def UsedAgree (m m' : Bytes) : Prop :=
  ∀ a, view.usedQ ≤ a → a < view.usedQ + (4 + 8 * view.queueNum) → m a = m' a

section Agree

variable {view} {m m' : Bytes}

variable (h : UsedAgree view m m')
include h

theorem UsedAgree.readLE_eq {addr size : ℕ}
    (hinside : Inside addr size view.usedQ (4 + 8 * view.queueNum)) :
    readLE m addr size = readLE m' addr size := by
  unfold Inside at hinside
  exact readLE_congr fun a hlow hhigh ↦ h a (by omega) (by omega)

theorem UsedAgree.usedIdx_eq : usedIdx view m = usedIdx view m' :=
  h.readLE_eq (inside_usedIdx view)

theorem UsedAgree.usedElem_eq (idx : ℕ) : usedElem view m idx = usedElem view m' idx := by
  have hinside := inside_usedElem view idx
  unfold Inside at hinside
  unfold usedElem
  rw [h.readLE_eq ⟨by omega, by omega⟩, h.readLE_eq ⟨by omega, by omega⟩]

theorem UsedAgree.postedBytes (head len : ℕ) :
    UsedAgree view (postedBytes view m head len) (postedBytes view m' head len) := by
  intro a hlow hhigh
  unfold Virtqueue.postedBytes writeLE
  rw [h.usedIdx_eq, h a hlow hhigh]

theorem UsedAgree.appendBytes (completions : List Completion) :
    UsedAgree view (appendBytes view m completions) (appendBytes view m' completions) := by
  induction completions generalizing m m' with
  | nil => exact h
  | cons completion _ ih => exact ih (h.postedBytes completion.entry.head completion.len)

end Agree

/-! ### Successive calls -/

section Calls

variable {D : Type} (device : VirtioDevice D) (queueHeaderSize : ℕ) (guest : Interference)

/-- Successive calls of `process_one_chain_for_queue`. -/
def calls : (count : ℕ) → D → Prog D
  | 0, state => pure state
  | count + 1, state => do
    let reply ← processOneChainForQueue device view queueHeaderSize state
    calls count reply.1

/-- The avail entries that successive calls consume, as guest memory shows them when each call reads
`avail.idx`. -/
def ledger : (count : ℕ) → D → (clock : ℕ) → World → List Completion
  | 0, _, _, _ => []
  | count + 1, state, clock, w =>
    let out := (processOneChainForQueue device view queueHeaderSize state).run exec guest.act
      clock w
    let rest := ledger count out.result.1 out.clock out.state
    if view.cursor out.state = view.cursor w then rest
    else ⟨view.cursor w, pendingEntry view (guest.act clock w) 0, lastReturned out.state⟩ :: rest

/-- The completions whose chains are well formed. -/
def postedPart (completions : List Completion) : List Completion :=
  completions.filter fun completion ↦ wellFormed view completion.entry.chain

/-- The guest meets its obligations at every moment. -/
def Obliging : Prop :=
  ∀ clock w, BuffersApart view w → DriverStep view w (guest.act clock w)

/-- What calls from `w` to `s` that consumed `completions` have done. -/
structure Appended (w : World) (completions : List Completion) (s : World) : Prop where
  cursor_eq : view.cursor s = (view.cursor w + completions.length) % 2 ^ 16
  position_eq : completions.map Completion.position =
    (List.range completions.length).map fun k ↦ (view.cursor w + k) % 2 ^ 16
  head_lt : ∀ completion ∈ completions, completion.entry.head < 2 ^ 16
  ringStores_eq : ringStores (walkLog s) = ringStores (walkLog w) ++
    appendStores view (usedIdx view (view.memory w)) (postedPart view completions)
  used_eq : UsedAgree view (view.memory s)
    (appendBytes view (view.memory w) (postedPart view completions))

section Steps

variable {view device guest}

/-- One call: it leaves the queue as it was, or consumes the entry the guest's memory showed. -/
theorem call_outcome (hlayout : view.UsedApart) (hdevice : WritesInside device)
    (hguest : Obliging view guest) (state : D) (clock : ℕ) (hcursor : view.cursor w < 2 ^ 16)
    (hbuffers : BuffersApart view w) :
    let out := (processOneChainForQueue device view queueHeaderSize state).run exec guest.act
      clock w
    (Resting view w.processed (view.memory w) out.state ∧
        ringStores (walkLog out.state) = ringStores (walkLog w)) ∨
      Consumed view w.processed (pendingEntry view (guest.act clock w) 0) (view.memory w) w
        out.result.2 out.state := by
  have hrely : ∀ clock s, DriverRely view s (guest.act clock s) := fun clock s ↦
    ⟨guest.interferes_act clock s, hguest clock s⟩
  have hresting : Resting view w.processed (view.memory w) w := ⟨rfl, fun _ _ _ ↦ rfl, hbuffers⟩
  set load := Op.ringLoad view.id .availIdx view.availIdxAddr 2
  set seen := (exec load (guest.act clock w)).2
  have hlogged : Logged w [(load, load.answer (guest.act clock w))] seen :=
    logged_exec (guest.interferes_act clock w) rfl rfl
  have hseen : Resting view w.processed (view.memory w) seen :=
    (hresting.rely (hrely clock w)).of_eq rfl rfl
  have htrue : Answers device fun _ ↦ True := fun _ _ _ _ _ ↦ ensures_true _ _
  have houtcome := (takeEntry_kept hlayout hdevice htrue queueHeaderSize state hcursor hseen).run
    hrely (clock + 1)
  rcases houtcome with ⟨-, -, hrest, -, hstores⟩ | ⟨-, hconsumed⟩
  · refine .inl ⟨hrest, hstores.trans ?_⟩
    rw [hlogged.walkLog_eq, ringStores_append]
    exact append_nil _
  · exact .inr (hconsumed.after hlogged rfl rfl)

theorem appended_refl (hcursor : view.cursor w < 2 ^ 16) : Appended view w [] w where
  cursor_eq := (Nat.mod_eq_of_lt hcursor).symm
  position_eq := rfl
  head_lt := fun _ hmem ↦ absurd hmem not_mem_nil
  ringStores_eq := (append_nil _).symm
  used_eq := fun _ _ _ ↦ rfl

theorem Appended.after_idle {s t : World} (h : Appended view s completions t)
    (hrest : Resting view w.processed (view.memory w) s)
    (hstores : ringStores (walkLog s) = ringStores (walkLog w)) :
    Appended view w completions t where
  cursor_eq := by
    have hcursor : view.cursor s = view.cursor w := congrFun₂ hrest.processed_eq _ _
    rw [h.cursor_eq, hcursor]
  position_eq := by
    have hcursor : view.cursor s = view.cursor w := congrFun₂ hrest.processed_eq _ _
    rw [h.position_eq, hcursor]
  head_lt := h.head_lt
  ringStores_eq := by
    have hagree : UsedAgree view (view.memory s) (view.memory w) := hrest.used_eq
    rw [h.ringStores_eq, hstores, hagree.usedIdx_eq]
  used_eq := by
    have hagree : UsedAgree view (view.memory s) (view.memory w) := hrest.used_eq
    intro a hlow hhigh
    rw [h.used_eq a hlow hhigh, hagree.appendBytes _ a hlow hhigh]

theorem positions_cons {c : ℕ} (hc : c < 2 ^ 16) (n : ℕ) :
    (range (n + 1)).map (fun k ↦ (c + k) % 2 ^ 16) =
      c :: (range n).map fun k ↦ ((c + 1) % 2 ^ 16 + k) % 2 ^ 16 := by
  rw [range_succ_eq_map, map_cons, map_map, Nat.add_zero, Nat.mod_eq_of_lt hc]
  refine congrArg _ (map_congr_left fun k _ ↦ ?_)
  change (c + (k + 1)) % 2 ^ 16 = _
  omega

theorem Appended.after_consumed {s t : World} {entry : AvailEntry} {posted : Bool}
    (h : Appended view s completions t) (hcursor : view.cursor w < 2 ^ 16)
    (hhead : entry.head < 2 ^ 16)
    (hconsumed : Consumed view w.processed entry (view.memory w) w posted s) :
    Appended view w (⟨view.cursor w, entry, lastReturned s⟩ :: completions) t := by
  have hmoved : view.cursor s = (view.cursor w + 1) % 2 ^ 16 := hconsumed.cursor_eq
  set completion : Completion := ⟨view.cursor w, entry, lastReturned s⟩
  have hstores := hconsumed.ringStores_eq
  have hused : UsedAgree view (view.memory s) _ := hconsumed.used_eq
  -- What the call appended, and what the later calls append behind it.
  have happend : ringStores (walkLog t) = ringStores (walkLog w) ++ appendStores view (usedIdx view
      (view.memory w)) (postedPart view (completion :: completions)) ∧ UsedAgree view (view.memory
      t) (appendBytes view (view.memory w) (postedPart view (completion :: completions))) := by
    by_cases hposted : wellFormed view entry.chain = true
    · have hpart : postedPart view (completion :: completions) =
          completion :: postedPart view completions := filter_cons_of_pos hposted
      rw [hconsumed.posted_eq, hposted, if_pos rfl] at hstores hused
      have hidx := hused.usedIdx_eq
      rw [usedIdx_postedBytes] at hidx
      refine ⟨?_, ?_⟩
      · rw [h.ringStores_eq, hstores, hpart, appendStores_cons view (usedIdx_lt view _), hidx,
          append_assoc]
        rfl
      · intro a hlow hhigh
        rw [h.used_eq a hlow hhigh, hpart]
        exact hused.appendBytes _ a hlow hhigh
    · have hpart : postedPart view (completion :: completions) = postedPart view completions :=
        filter_cons_of_neg hposted
      rw [hconsumed.posted_eq, if_neg hposted] at hstores hused
      refine ⟨?_, ?_⟩
      · rw [h.ringStores_eq, hstores, hpart, append_nil, hused.usedIdx_eq]
      · intro a hlow hhigh
        rw [h.used_eq a hlow hhigh, hpart]
        exact hused.appendBytes _ a hlow hhigh
  refine ⟨?_, ?_, ?_, happend.1, happend.2⟩
  · rw [h.cursor_eq, hmoved, length_cons]
    omega
  · rw [map_cons, length_cons, positions_cons hcursor, h.position_eq, hmoved]
  · intro c hc
    rcases mem_cons.mp hc with rfl | hc
    · exact hhead
    · exact h.head_lt c hc

/-- Any number of calls append the well-formed part of what they consume. -/
theorem calls_appended (hlayout : view.UsedApart) (hdevice : WritesInside device)
    (hguest : Obliging view guest) (count : ℕ) (state : D) (clock : ℕ)
    (hcursor : view.cursor w < 2 ^ 16) (hbuffers : BuffersApart view w) :
    Appended view w (ledger view device queueHeaderSize guest count state clock w)
      ((calls view device queueHeaderSize count state).run exec guest.act clock w).state := by
  induction count generalizing state clock w with
  | zero => exact appended_refl hcursor
  | succ count ih =>
    have hcall := call_outcome queueHeaderSize hlayout hdevice hguest state clock hcursor hbuffers
    rw [calls, Program.run_bind, ledger]
    set out := (processOneChainForQueue device view queueHeaderSize state).run exec guest.act
      clock w
    rcases hcall with ⟨hrest, hstores⟩ | hconsumed
    · have hsame : view.cursor out.state = view.cursor w := congrFun₂ hrest.processed_eq _ _
      rw [if_pos hsame]
      exact (ih _ _ (hsame.trans_lt hcursor) hrest.buffers).after_idle hrest hstores
    · have hmoved : view.cursor out.state = (view.cursor w + 1) % 2 ^ 16 := hconsumed.cursor_eq
      have hne : view.cursor out.state ≠ view.cursor w := by
        omega
      rw [if_neg hne]
      exact (ih _ _ (by rw [hmoved]; omega) hconsumed.buffers).after_consumed hcursor
        (readLE_lt _ _ 2) hconsumed

/-- Used-ring exactness. Assumes: a power-of-two queue size, a used ring apart from the other two
rings, a device model that writes guest memory only inside the buffers it is handed, a driver that
keeps what it has published and never writes the used ring, and buffers apart from the rings. Then
for every memory, cursor and number of calls, the consumed entries are the avail entries from the
cursor on, in order; the cursor moves by their number and `used.idx` by the number of well-formed
ones, both modulo `2 ^ 16`; the walk's stores to guest memory are exactly the used elements of the
well-formed ones, in avail order, with `used.idx` advanced after each; and the last `queue_num`
elements stand in the ring with their head and length. -/
theorem usedRing_exact (hpow : ∃ e, view.queueNum = 2 ^ e) (hlayout : view.UsedApart)
    (hdevice : WritesInside device) (hguest : Obliging view guest) (count : ℕ) (state : D)
    (clock : ℕ) (w : World) (hcursor : view.cursor w < 2 ^ 16) (hbuffers : BuffersApart view w) :
    let out := (calls view device queueHeaderSize count state).run exec guest.act clock w
    let consumed := ledger view device queueHeaderSize guest count state clock w
    let posted := postedPart view consumed
    let used := usedIdx view (view.memory w)
    consumed.map Completion.position =
        (List.range consumed.length).map (fun k ↦ (view.cursor w + k) % 2 ^ 16) ∧
      view.cursor out.state = (view.cursor w + consumed.length) % 2 ^ 16 ∧
      usedIdx view (view.memory out.state) = (used + posted.length) % 2 ^ 16 ∧
      ringStores (walkLog out.state) = ringStores (walkLog w) ++ appendStores view used posted ∧
      ∀ k completion, posted[k]? = some completion → posted.length ≤ k + view.queueNum →
        usedElem view (view.memory out.state) ((used + k) % 2 ^ 16) =
          (completion.entry.head, completion.len) := by
  intro out consumed posted used
  have happended :=
    calls_appended queueHeaderSize hlayout hdevice hguest count state clock hcursor hbuffers
  have hdvd : view.queueNum ∣ 2 ^ 16 := by
    obtain ⟨e, he⟩ := hpow
    have hlt := view.queueNum_lt
    rw [he] at hlt ⊢
    exact pow_dvd_pow 2 (Nat.le_of_lt ((Nat.pow_lt_pow_iff_right (by omega)).mp hlt))
  refine ⟨happended.position_eq, happended.cursor_eq, ?_, happended.ringStores_eq, ?_⟩
  · rw [happended.used_eq.usedIdx_eq, usedIdx_appendBytes]
  · intro k completion hk hlast
    rw [happended.used_eq.usedElem_eq]
    exact usedElem_appendBytes view hdvd
      (fun c hc ↦ happended.head_lt c (mem_filter.mp hc).1) hk hlast

end Steps

end Calls

end UsedRing

/-! ### A queue with one good and one bad entry -/

/-- A queue of four entries, its rings at the bottom of a 60 KiB window. -/
def sampleView : QueueView where
  id := ⟨0, 0, 0⟩
  descQ := 0x1000
  availQ := 0x2000
  usedQ := 0x3000
  queueNum := 4
  startingAddress := 0x1000
  memEnd := 0x10000
  queueNum_pos := four_entries_pos
  queueNum_lt := four_entries_lt

/-- Two published entries around the wrap of all indices: the entry at `65535` is a chain of two
descriptors, the one at `0` starts at a descriptor outside the window. -/
def sampleWorld : World where
  l1 := fun _ ↦ 0
  dram := fun _ ↦ memoryWith
    [(0x1000, 16, VringDesc.toRaw ⟨0x5000, 16, 1, 1⟩),
      (0x1010, 16, VringDesc.toRaw ⟨0x6000, 32, 0, 0⟩),
      (0x1020, 16, VringDesc.toRaw ⟨0x0, 32, 0, 0⟩), (0x2002, 2, 1), (0x2004, 2, 2), (0x200a, 2, 0),
      (0x3002, 2, 65535)]
  host := fun _ _ ↦ 0
  processed := fun _ _ ↦ 65535
  outside := fun _ _ ↦ 0
  history := []

theorem obliging_none (view : QueueView) : Obliging view .none := fun _ _ hbuffers ↦
  driverStep_refl view hbuffers

theorem usedRing_exact_sample :
    let out := (calls sampleView sinkDevice 0 3 ()).run exec Interference.none.act 0 sampleWorld
    sampleView.cursor out.state = 1 ∧ usedIdx sampleView (sampleView.memory out.state) = 0 ∧
      usedElem sampleView (sampleView.memory out.state) 65535 = (0, 48) := by
  obtain ⟨-, hcursor, hused, -, helems⟩ := usedRing_exact 0 ⟨2, rfl⟩ (by decide)
    writesInside_sinkDevice (obliging_none sampleView) 3 () 0 sampleWorld (by decide)
    (by decide +kernel)
  exact ⟨hcursor, hused, helems 0 _ rfl (by decide)⟩

end Bhx.Virtqueue
