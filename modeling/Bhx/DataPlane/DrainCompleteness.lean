import Bhx.DataPlane.DispatchChain
import Bhx.Virtqueue.ConsumeEntry

/-!
# How far a drain gets

A dispatch is meant to drain the avail ring fully, so that no published entry waits for another
notify. `processOneChainForQueue` answers `false` both when nothing is left and when the chain it
consumed was malformed, and the drain loop ends on either. With a driver that meets its obligations
and leaves `avail.idx` alone, the loop therefore ends at the first malformed entry or at the end of
the ring, whichever comes first (`drainQueue_ends`).

`dispatchChain_drains_iff` states when a dispatch is complete: exactly when every pending entry but
the last is well formed. `dispatchChain_not_drained` is a ring of two entries, the first malformed,
that a dispatch leaves half consumed.

The invariant is `Progress`: relative to the start of the dispatch, the cursor has moved over some
number of entries and the rest is as it was.
-/

set_option autoImplicit false

namespace Bhx.DataPlane

open SharedMemory Machine L1Layout Virtqueue

variable {w : World}

variable {D : Type} {device : VirtioDevice D}

section Progress

variable (view : QueueView)

/-- From `base` on the cursor has moved over `count` entries and the pending ones are the rest. -/
structure Progress (base : World) (count : ℕ) (s : World) : Prop where
  cursor_eq : view.cursor s = (view.cursor base + count) % 2 ^ 16
  pending_eq : pending view s + count = pending view base
  entry_eq : ∀ k < pending view s, pendingEntry view s k = pendingEntry view base (k + count)
  buffers : BuffersApart view s

/-- Interference that keeps the driver's obligations and `avail.idx`. -/
def FrozenRely (w w' : World) : Prop :=
  DriverRely view w w' ∧ availIdx view (view.memory w') = availIdx view (view.memory w)

variable {base : World} {count : ℕ}

section Preservation

variable {view} {s s' : World}

theorem progress_refl (hcursor : view.cursor base < 2 ^ 16) (hbuffers : BuffersApart view base) :
    Progress view base 0 base where
  cursor_eq := (Nat.mod_eq_of_lt hcursor).symm
  pending_eq := rfl
  entry_eq := fun _ _ ↦ rfl
  buffers := hbuffers

theorem Progress.rely (h : Progress view base count s) (hrely : FrozenRely view s s') :
    Progress view base count s' := by
  obtain ⟨⟨hinterferes, hdriver⟩, havail⟩ := hrely
  have hstep := hdriver h.buffers
  have hcursor : view.cursor s' = view.cursor s := congrFun₂ hinterferes.processed_eq _ _
  have hpending : pending view s' = pending view s := by
    unfold pending
    rw [havail, hcursor]
  refine ⟨hcursor.trans h.cursor_eq, ?_, ?_, hstep.buffers⟩
  · rw [hpending, h.pending_eq]
  · intro k hk
    rw [hpending] at hk
    rw [hstep.entry_eq k hk, h.entry_eq k hk]

theorem Progress.touches (hlayout : view.UsedApart) (h : Progress view base count s) {op : Op}
    {cursors : ℕ → ℕ → ℕ} (htouches : Touches view cursors op s) :
    ∃ count', Progress view base count' (exec op s).2 := by
  have hagree : SourceAgree view (view.memory (exec op s).2) (view.memory s) :=
    htouches.sourceAgree (fun _ ↦ hlayout) fun _ hpos ↦ h.buffers 0 hpos
  have hcursors := htouches.processed_eq
  subst hcursors
  rcases htouches.processed with hsame | ⟨hpos, hdram, hadvance⟩
  · have hcursor : view.cursor (exec op s).2 = view.cursor s := cursor_eq_of_processed_eq hsame
    refine ⟨count, hcursor.trans h.cursor_eq, ?_, ?_,
      buffersApart_of_agree hagree hcursor h.buffers⟩
    · rw [pending_eq_of_agree hagree hcursor, h.pending_eq]
    · intro k hk
      rw [pending_eq_of_agree hagree hcursor] at hk
      rw [pendingEntry_eq_of_agree hagree hcursor, h.entry_eq k hk]
  · have hmemory : view.memory (exec op s).2 = view.memory s := congrFun hdram _
    obtain ⟨hpending, hentry⟩ := pending_advance hpos hmemory hadvance
    refine ⟨count + 1, ?_, ?_, ?_, buffersApart_advance hpos hmemory hadvance h.buffers⟩
    · have hmoved : view.cursor (exec op s).2 = (view.cursor s + 1) % 2 ^ 16 := by
        unfold QueueView.cursor
        rw [exec_snd, record_processed, hadvance]
        simp [advanceCursor]
      rw [hmoved, h.cursor_eq]
      omega
    · rw [← h.pending_eq, ← hpending]
      omega
    · intro k hk
      rw [hentry k, h.entry_eq (k + 1) (by omega), Nat.add_right_comm, Nat.add_assoc]

theorem Progress.of_eq (h : Progress view base count s) (hmemory : view.memory s' = view.memory s)
    (hproc : s'.processed = s.processed) : Progress view base count s' := by
  have hagree : SourceAgree view (view.memory s') (view.memory s) := by
    rw [hmemory]
    exact ⟨fun _ _ _ ↦ rfl, fun _ _ _ ↦ rfl⟩
  have hcursor : view.cursor s' = view.cursor s := cursor_eq_of_processed_eq hproc
  refine ⟨hcursor.trans h.cursor_eq, ?_, ?_, buffersApart_of_agree hagree hcursor h.buffers⟩
  · rw [pending_eq_of_agree hagree hcursor, h.pending_eq]
  · intro k hk
    rw [pending_eq_of_agree hagree hcursor] at hk
    rw [pendingEntry_eq_of_agree hagree hcursor, h.entry_eq k hk]

theorem pending_lt (w : World) : pending view w < 2 ^ 16 := Nat.mod_lt _ (by norm_num)

theorem Progress.cursor_lt (h : Progress view base count s) : view.cursor s < 2 ^ 16 := by
  rw [h.cursor_eq]
  exact Nat.mod_lt _ (by norm_num)

/-- The number of entries passed is settled by the cursor. -/
theorem Progress.count_eq (h : Progress view base count s) {k : ℕ} (hk : k ≤ pending view base)
    (hcursor : view.cursor s = (view.cursor base + k) % 2 ^ 16) : count = k := by
  have hbase : pending view base < 2 ^ 16 := pending_lt base
  have hle := h.pending_eq
  have heq := h.cursor_eq.symm.trans hcursor
  omega

end Preservation

/-! ### One pass of the loop -/

section Pass

variable {view}

/-- A pass finds the ring empty, or consumes the next entry and reports whether it was well
formed. -/
theorem processOneChainForQueue_progress (hlayout : view.UsedApart)
    (hdevice : WritesInside device) (hready : Answers device (· = true)) (queueHeaderSize : ℕ)
    (state : D) (h : Progress view base count w) :
    Ensures exec (FrozenRely view) anyOp
      (fun reply t ↦
        (reply.2 = false ∧ Progress view base count t ∧ count = pending view base) ∨
        (reply.2 = wellFormed view (pendingEntry view base count).chain ∧
          Progress view base (count + 1) t ∧ count < pending view base))
      (processOneChainForQueue device view queueHeaderSize state) w := by
  intro w' hrely
  refine ⟨trivial, ?_⟩
  set load := Op.ringLoad view.id .availIdx view.availIdxAddr 2
  set s := (exec load w').2
  have hs : Progress view base count s := (h.rely hrely).of_eq rfl rfl
  have hresting : Resting view s.processed (view.memory s) s := ⟨rfl, fun _ _ _ ↦ rfl, hs.buffers⟩
  have htake := takeEntry_kept hlayout hdevice hready queueHeaderSize state hs.cursor_lt hresting
  have hboth := (htake.restrict fun _ _ (hfrozen : FrozenRely view _ _) ↦ hfrozen.1).withInvariant
    (fun t ↦ ∃ count', Progress view base count' t) ⟨count, hs⟩ (fun _ _ ⟨count',
    ht⟩ hfrozen ↦ ⟨count', ht.rely hfrozen⟩) fun _ _ ⟨_, ht⟩ htouches ↦ ht.touches hlayout htouches
  refine hboth.mono (fun _ _ hfrozen ↦ hfrozen) (fun _ _ _ ↦ trivial) ?_
  rintro reply t ⟨houtcome, count', ht⟩
  rcases houtcome with ⟨hidle, hfalse, hrest, -, -⟩ | ⟨hpos, hconsumed⟩
  · have hsame : view.cursor t = view.cursor s := congrFun₂ hrest.processed_eq _ _
    have hle := hs.pending_eq
    have hcount := ht.count_eq (by omega) (hsame.trans hs.cursor_eq)
    subst hcount
    refine .inl ⟨hfalse, ht, ?_⟩
    rcases hidle with hzero | hnever
    · omega
    · exact absurd hnever Bool.false_ne_true
  · have hmoved : view.cursor t = (view.cursor base + (count + 1)) % 2 ^ 16 := by
      have hcursor : view.cursor t = (view.cursor s + 1) % 2 ^ 16 := hconsumed.cursor_eq
      rw [hcursor, hs.cursor_eq]
      omega
    have hle := hs.pending_eq
    have hcount := ht.count_eq (by omega) hmoved
    subst hcount
    refine .inr ⟨?_, ht, by omega⟩
    rw [hconsumed.posted_eq, hs.entry_eq 0 hpos, Nat.zero_add]

/-- The loop passes well-formed entries and ends at the end of the ring or behind a malformed
entry. -/
theorem drainQueue_ends (hlayout : view.UsedApart) (hdevice : WritesInside device)
    (hready : Answers device (· = true)) (queueHeaderSize : ℕ) {passes : ℕ} (posted : Bool)
    (state : D) (h : Progress view base count w) (hpasses : pending view base < count + passes)
    (hformed : ∀ k < count, wellFormed view (pendingEntry view base k).chain = true) :
    Ensures exec (FrozenRely view) anyOp
      (fun drained t ↦ drained.2.1 = true ∧ ∃ count', Progress view base count' t ∧
        (∀ k, k + 1 < count' → wellFormed view (pendingEntry view base k).chain = true) ∧
        (count' < pending view base →
          ∃ k, k + 1 = count' ∧ wellFormed view (pendingEntry view base k).chain = false))
      (drainQueue device view queueHeaderSize passes posted state) w := by
  induction passes generalizing count posted state w with
  | zero =>
    have hle := h.pending_eq
    omega
  | succ passes ih =>
    refine (processOneChainForQueue_progress hlayout hdevice hready queueHeaderSize state h).bind ?_
    rintro ⟨state', posted'⟩ t (⟨hfalse, ht, hend⟩ | ⟨hposted, ht, _⟩)
    · subst hfalse
      exact ⟨rfl, count, ht, fun k hk ↦ hformed k (by omega), fun hlt ↦ absurd hlt (by omega)⟩
    · subst hposted
      by_cases hentry : wellFormed view (pendingEntry view base count).chain = true
      · rw [hentry, if_pos rfl]
        refine ih true state' ht (by omega) fun k hk ↦ ?_
        by_cases hlast : k = count
        · rw [hlast, hentry]
        · exact hformed k (by omega)
      · rw [if_neg hentry]
        refine ⟨rfl, count + 1, ht, fun k hk ↦ hformed k (by omega), fun _ ↦ ⟨count, rfl, ?_⟩⟩
        exact Bool.eq_false_of_not_eq_true hentry

/-- An operation that changes neither guest memory nor the cursors. -/
theorem ensures_perform_progress {op : Op} (hdram : ∀ s, (op.apply s).dram = s.dram)
    (hproc : ∀ s, (op.apply s).processed = s.processed) (h : Progress view base count w) :
    Ensures exec (FrozenRely view) anyOp (fun _ t ↦ Progress view base count t)
      (Program.perform op) w := by
  intro w' hrely
  exact ⟨trivial, (h.rely hrely).of_eq (congrFun (hdram w') _) (hproc w')⟩

theorem announce_progress (entry : RegEntry D) (drained : D × Bool × Bool)
    (h : Progress view base count w) :
    Ensures exec (FrozenRely view) anyOp
      (fun dispatched t ↦ dispatched.returned = drained.2.1 ∧ Progress view base count t)
      (announce entry view drained) w := by
  unfold announce
  split_ifs with hdrained
  · refine (ensures_perform_progress (fun _ ↦ rfl) (fun _ ↦ rfl) h).bind fun _ s hs ↦ ?_
    refine (ensures_perform_progress (fun _ ↦ rfl) (fun _ ↦ rfl) hs).bind fun _ t ht ↦ ?_
    refine (ensures_perform_progress (fun _ ↦ rfl) (fun _ ↦ rfl) ht).bind fun _ u hu ↦ ?_
    refine (ensures_perform_progress (fun _ ↦ rfl) (fun _ ↦ rfl) hu).bind fun _ v hv ↦ ?_
    refine (ensures_perform_progress (fun _ ↦ rfl) (fun _ ↦ rfl) hv).bind fun _ x hx ↦ ?_
    rw [Bool.and_eq_true] at hdrained
    exact ⟨hdrained.1.symm, hx⟩
  · exact ⟨rfl, h⟩

end Pass

end Progress

/-! ### The dispatch -/

/-- Interference that keeps the driver's obligations, `avail.idx` and the queue's shadow. -/
def QuietRely (view : QueueView) (w w' : World) : Prop :=
  FrozenRely view w w' ∧ ShadowKept view.id.slot view.id.queue w w'

/-- The guest keeps to such interference. -/
def QuietGuest (view : QueueView) (guest : Interference) : Prop :=
  ∀ clock w, QuietRely view w (guest.act clock w)

/-- A dispatch of an accepted configuration passes well-formed entries and ends at the end of the
ring or behind a malformed entry. -/
theorem dispatchChain_ends (hdevice : WritesInside device) (hready : Answers device (· = true))
    {entry : RegEntry D} {queueIdx : ℕ} (hqueue : queueIdx < entry.numQueues) {view : QueueView}
    (hview : configure entry.slot entry.l2cpu queueIdx (shadowWords w.l1 entry.slot queueIdx) =
      some view) (hlayout : view.UsedApart) (hcursor : view.cursor w < 2 ^ 16)
    (hbuffers : BuffersApart view w) {passes : ℕ} (hpasses : pending view w < passes) :
    Ensures exec (QuietRely view) anyOp
      (fun dispatched t ↦ dispatched.returned = true ∧ ∃ count, Progress view w count t ∧
        (∀ k, k + 1 < count → wellFormed view (pendingEntry view w k).chain = true) ∧
        (count < pending view w →
          ∃ k, k + 1 = count ∧ wellFormed view (pendingEntry view w k).chain = false))
      (dispatchChain device passes entry queueIdx) w := by
  have hid := (configure_spec hview).id_eq
  have hshadow : ∀ s s', QuietRely view s s' → ShadowKept entry.slot queueIdx s s' := by
    intro s s' hquiet
    have hkept := hquiet.2
    rwa [hid] at hkept
  refine dispatchChain_ensures hqueue hview hshadow (fun _ _ h hquiet ↦ h.rely hquiet.1)
    (fun _ _ _ h ↦ h.of_eq rfl rfl) (fun _ _ _ ↦ trivial) (progress_refl hcursor hbuffers) ?_
  intro s hs
  refine Ensures.restrict ?_ fun _ _ h ↦ h.1
  refine (drainQueue_ends hlayout hdevice hready _ false entry.device hs (by omega)
    fun k hk ↦ absurd hk (Nat.not_lt_zero k)).bind ?_
  rintro drained t ⟨hended, count, ht, hpassed, hstopped⟩
  refine (announce_progress entry drained ht).weaken ?_
  rintro dispatched u ⟨hreturned, hu⟩
  exact ⟨hreturned.trans hended, count, hu, hpassed, hstopped⟩

/-- Drain completeness. Assumes: a queue configuration that the dispatch accepts, a used ring apart
from the other rings, buffers apart from the rings, a device model that is always ready and writes
only inside its buffers, and a driver that meets its obligations and leaves `avail.idx` and the
shadow alone. Then the dispatch returns, and it leaves no published entry behind if and only if
every pending entry but the last is well formed. -/
theorem dispatchChain_drains_iff (hdevice : WritesInside device)
    (hready : Answers device (· = true)) {entry : RegEntry D} {queueIdx : ℕ}
    (hqueue : queueIdx < entry.numQueues) {w : World} {view : QueueView}
    (hview : configure entry.slot entry.l2cpu queueIdx (shadowWords w.l1 entry.slot queueIdx) =
      some view)
    (hlayout : view.UsedApart) (hcursor : view.cursor w < 2 ^ 16) (hbuffers : BuffersApart view w)
    {guest : Interference} (hguest : QuietGuest view guest) {passes : ℕ}
    (hpasses : pending view w < passes) (clock : ℕ) :
    let out := (dispatchChain device passes entry queueIdx).run exec guest.act clock w
    out.result.returned = true ∧
      (view.cursor out.state = availIdx view (view.memory out.state) ↔
        ∀ k, k + 1 < pending view w → wellFormed view (pendingEntry view w k).chain = true) := by
  intro out
  obtain ⟨hreturned, count, hprogress, hpassed, hstopped⟩ :=
    (dispatchChain_ends hdevice hready hqueue hview hlayout hcursor hbuffers hpasses).run
      hguest clock
  refine ⟨hreturned, ?_⟩
  rw [← pending_eq_zero_iff hprogress.cursor_lt]
  have hcount := hprogress.pending_eq
  refine ⟨fun hzero k hk ↦ hpassed k (by omega), fun hformed ↦ ?_⟩
  by_contra hleft
  obtain ⟨k, hk, hmalformed⟩ := hstopped (by omega)
  rw [hformed k (by omega)] at hmalformed
  exact absurd hmalformed (by decide)

/-! ### A ring of two entries -/

/-- A device in slot 0 of the first L2CPU. -/
def pairEntry : RegEntry Unit := ⟨0, L2Cpu.ofIdx 0, (), 5, .block, 1⟩

/-- A queue of four entries in the window of the first L2CPU. -/
def pairView : QueueView where
  id := ⟨0, 0, 0⟩
  descQ := 0x400030001000
  availQ := 0x400030002000
  usedQ := 0x400030003000
  queueNum := 4
  startingAddress := 0x400030000000
  memEnd := 0x400130000000
  queueNum_pos := four_entries_pos
  queueNum_lt := four_entries_lt

/-- The shadow of `pairView` and two published entries, the second at descriptor 1. Descriptor 0 is
outside the window, descriptors 1 and 2 are buffers of 16 bytes. -/
def pairWorld (first : ℕ) : World where
  l1 := memoryWith
    [(shadowQueueAddr 0 0 shadowQOffDescLo, 4, 0x30001000),
      (shadowQueueAddr 0 0 shadowQOffDescHi, 4, 0x4000),
      (shadowQueueAddr 0 0 shadowQOffDriverLo, 4, 0x30002000),
      (shadowQueueAddr 0 0 shadowQOffDriverHi, 4, 0x4000),
      (shadowQueueAddr 0 0 shadowQOffDeviceLo, 4, 0x30003000),
      (shadowQueueAddr 0 0 shadowQOffDeviceHi, 4, 0x4000),
      (shadowQueueAddr 0 0 shadowQOffNum, 4, 4)]
  dram := fun _ ↦ memoryWith
    [(0x400030001000, 16, VringDesc.toRaw ⟨0, 16, 0, 0⟩),
      (0x400030001010, 16, VringDesc.toRaw ⟨0x400030005000, 16, 0, 0⟩),
      (0x400030001020, 16, VringDesc.toRaw ⟨0x400030006000, 16, 0, 0⟩), (0x400030002002, 2, 2),
      (0x400030002004, 2, first), (0x400030002006, 2, 1)]
  host := fun _ _ ↦ 0
  processed := fun _ _ ↦ 0
  outside := fun _ _ ↦ 0
  history := []

/-- With the malformed chain first, the dispatch returns with the second entry still pending. -/
theorem dispatchChain_not_drained :
    let out := (dispatchChain sinkDevice 8 pairEntry 0).run exec Interference.none.act 0
      (pairWorld 0)
    configure 0 (L2Cpu.ofIdx 0) 0 (shadowWords (pairWorld 0).l1 0 0) = some pairView ∧
      pairView.UsedApart ∧ BuffersApart pairView (pairWorld 0) ∧ out.result.returned = true ∧
      availIdx pairView (pairView.memory out.state) = 2 ∧ pairView.cursor out.state = 1 := by
  decide +kernel

theorem quietGuest_none (view : QueueView) : QuietGuest view .none := fun _ w ↦
  ⟨⟨⟨Interferes.refl w, driverStep_refl view⟩, rfl⟩, fun _ _ _ ↦ rfl⟩

/-- With two well-formed chains the dispatch drains the ring. -/
theorem dispatchChain_drains_pair :
    let out := (dispatchChain sinkDevice 8 pairEntry 0).run exec Interference.none.act 0
      (pairWorld 2)
    pending pairView (pairWorld 2) = 2 ∧ out.result.returned = true ∧
      pairView.cursor out.state = availIdx pairView (pairView.memory out.state) := by
  have hpending : pending pairView (pairWorld 2) = 2 := by decide +kernel
  have hformed : wellFormed pairView (pendingEntry pairView (pairWorld 2) 0).chain = true := by
    decide +kernel
  obtain ⟨hreturned, hdrained⟩ := dispatchChain_drains_iff writesInside_sinkDevice
    answers_sinkDevice (show 0 < pairEntry.numQueues by decide)
    (show configure 0 (L2Cpu.ofIdx 0) 0 (shadowWords (pairWorld 2).l1 0 0) = some pairView by
      decide +kernel)
    (by decide) (by decide) (by decide +kernel) (quietGuest_none pairView)
    (show pending pairView (pairWorld 2) < 8 by omega) 0
  refine ⟨hpending, hreturned, hdrained.mpr fun k hk ↦ ?_⟩
  have hfirst : k = 0 := by omega
  rw [hfirst, hformed]

end Bhx.DataPlane
