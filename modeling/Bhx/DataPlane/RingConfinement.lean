import Bhx.DataPlane.DispatchChain
import Bhx.Virtqueue.DriverWalk
import Bhx.Virtqueue.WalkBound

/-!
# Where a dispatch finds the rings

The guest chooses the addresses and the size of its rings. A dispatch checks that the first
descriptor, the first four bytes of the avail ring and the first four bytes of the used ring lie in
the window of the L2CPU, and then reaches entries up to `queue_num - 1` of each.

`dispatchChain_confined_iff` states what that check is worth: for the L1 contents at hand, every
access to the rings stays in the window, for every device model, every guest memory and every
interference, if and only if the dispatch refuses the configuration or the three rings end in the
window for the full `queue_num` (`RingsFit`). The last entry of each ring is reached by some guest
memory (`RingsConfined.lastAvailSlot`, `RingsConfined.lastDescriptor`,
`RingsConfined.lastUsedElement`). `dispatchChain_leaves_window` is a configuration that is accepted
and stores a used element behind the end of the window.
-/

set_option autoImplicit false

namespace Bhx.DataPlane

open SharedMemory Machine L1Layout Virtqueue Program QueueView

/-- An operation that, when it reads or writes a ring, stays in the L2CPU's window. -/
def InWindow (l2cpu : L2Cpu) : Op → Prop
  | .ringLoad _ _ addr size | .ringStore _ _ addr size _ =>
    l2cpu.startingAddress ≤ addr ∧ addr + size ≤ l2cpu.memEnd
  | _ => True

/-- The three rings end in the window, the last entries of `queue_num` included. -/
structure RingsFit (view : QueueView) : Prop where
  desc : view.descQ + 16 * view.queueNum ≤ view.memEnd
  avail : view.availQ + (4 + 2 * view.queueNum) ≤ view.memEnd
  used : view.usedQ + (4 + 8 * view.queueNum) ≤ view.memEnd

/-! ### Rings that fit -/

variable {l2cpu : L2Cpu} {slot queueIdx : ℕ} {view : QueueView}

section Fit

variable {D : Type} (device : VirtioDevice D) {words : ShadowWords}

/-- Where each access of the walk lies, given that the rings fit. -/
structure Fitted (l2cpu : L2Cpu) (view : QueueView) : Prop where
  desc : ∀ id idx, InWindow l2cpu (.ringLoad id .desc (view.descAddr idx) 16)
  availIdx : ∀ id, InWindow l2cpu (.ringLoad id .availIdx view.availIdxAddr 2)
  availRing : ∀ id idx, InWindow l2cpu (.ringLoad id .availRing (view.availRingAddr idx) 2)
  usedIdx : ∀ id, InWindow l2cpu (.ringLoad id .usedIdx view.usedIdxAddr 2)
  usedElem : ∀ idx, l2cpu.startingAddress ≤ view.usedElemAddr idx ∧
    view.usedElemAddr idx + 8 ≤ l2cpu.memEnd

theorem ConfigureSpec.fitted (h : ConfigureSpec slot l2cpu queueIdx words view)
    (hfit : RingsFit view) : Fitted l2cpu view := by
  obtain ⟨hdescLow, -⟩ := (l2cpu.inRange_iff _ _).mp h.desc_inRange
  obtain ⟨havailLow, havailHigh⟩ := (l2cpu.inRange_iff _ _).mp h.avail_inRange
  obtain ⟨husedLow, husedHigh⟩ := (l2cpu.inRange_iff _ _).mp h.used_inRange
  obtain ⟨hdesc, havail, hused⟩ := hfit
  rw [h.memEnd_eq] at hdesc havail hused
  have hmod : ∀ idx, idx % view.queueNum < view.queueNum := fun idx ↦
    Nat.mod_lt idx view.queueNum_pos
  constructor
  · intro _ idx
    have hidx := hmod idx
    simp only [InWindow, descAddr]
    omega
  · intro _
    simp only [InWindow, availIdxAddr]
    omega
  · intro _ idx
    have hidx := hmod idx
    simp only [InWindow, availRingAddr]
    omega
  · intro _
    simp only [InWindow, usedIdxAddr]
    omega
  · intro idx
    have hidx := hmod idx
    simp only [usedElemAddr]
    omega

variable {device} (hfit : Fitted l2cpu view)

include hfit

/-- A device model does not reach for the rings: its accesses are payload. -/
theorem Fitted.inWindow {op : Op} (h : WalkOp view (fun _ ↦ True) op) : InWindow l2cpu op := by
  cases h with
  | desc idx => exact hfit.desc view.id idx
  | availIdx => exact hfit.availIdx view.id
  | availRing idx => exact hfit.availRing view.id idx
  | usedIdx | advance => exact hfit.usedIdx view.id
  | elemId idx =>
    obtain ⟨hlow, hhigh⟩ := hfit.usedElem idx
    exact ⟨hlow, by omega⟩
  | elemLen idx =>
    obtain ⟨hlow, hhigh⟩ := hfit.usedElem idx
    exact ⟨by omega, by omega⟩
  | _ => trivial

theorem always_processOneChainForQueue (queueHeaderSize : ℕ) (state : D) :
    (processOneChainForQueue device view queueHeaderSize state).Performs (InWindow l2cpu) :=
  (callbacksKeep_true.processOneChainForQueue queueHeaderSize trivial).allow fun _ ↦ hfit.inWindow

theorem always_drainQueue {queueHeaderSize : ℕ} (passes : ℕ) (posted : Bool) (state : D) :
    (drainQueue device view queueHeaderSize passes posted state).Performs (InWindow l2cpu) := by
  induction passes generalizing posted state with
  | zero => trivial
  | succ passes ih =>
    refine (always_processOneChainForQueue hfit queueHeaderSize state).bind fun reply _ ↦ ?_
    split_ifs
    · exact ih true reply.1
    · trivial

theorem always_announce (entry : RegEntry D) (drained : D × Bool × Bool) :
    (announce entry view drained).Performs (InWindow l2cpu) := by
  unfold announce
  split_ifs
  · exact ⟨trivial, fun _ ↦ ⟨trivial, fun _ ↦ ⟨trivial, fun _ ↦ ⟨trivial, fun _ ↦
      ⟨hfit.usedIdx _, fun _ ↦ trivial⟩⟩⟩⟩⟩
  · trivial

end Fit

/-! ### Rings that do not fit -/

/-- Interference that leaves a queue's shadow alone. -/
def ShadowRely (slot queueIdx : ℕ) (w w' : World) : Prop :=
  Interferes w w' ∧ ShadowKept slot queueIdx w w'

theorem shadowRely_refl (slot queueIdx : ℕ) (w : World) : ShadowRely slot queueIdx w w :=
  ⟨Interferes.refl w, fun _ _ _ ↦ rfl⟩

/-- With these contents of L1 every access of a dispatch to the rings stays in the window, for every
device model, every guest memory, every cursor and every interference. -/
def RingsConfined (slot queueIdx : ℕ) (l2cpu : L2Cpu) (l1 : Bytes) : Prop :=
  ∀ (D : Type) (device : VirtioDevice D) (entry : RegEntry D) (passes : ℕ) (w : World),
    entry.slot = slot → entry.l2cpu = l2cpu → w.l1 = l1 →
    Ensures exec (ShadowRely slot queueIdx) (fun op _ ↦ InWindow l2cpu op) (fun _ _ ↦ True)
      (dispatchChain device passes entry queueIdx) w

/-- Whoever moves the shadow words, the program stays in the window. -/
abbrev StaysIn (slot queueIdx : ℕ) (l2cpu : L2Cpu) {α : Type} (program : Prog α) (w : World) :
    Prop :=
  Ensures exec (ShadowRely slot queueIdx) (fun op _ ↦ InWindow l2cpu op) (fun _ _ ↦ True) program w

section Reach

variable {l1 : Bytes}

/-- Every guest memory and every cursor is that of some call made by a confined dispatch. -/
theorem RingsConfined.call (h : RingsConfined slot queueIdx l2cpu l1)
    (hview : configure slot l2cpu queueIdx (shadowWords l1 slot queueIdx) = some view)
    (memory : Bytes) (cursor : ℕ) :
    ∃ s : World, (∀ l2cpu, s.dram l2cpu = memory) ∧
      (∀ slot queue, s.processed slot queue = cursor) ∧
      StaysIn slot queueIdx l2cpu
        (processOneChainForQueue sinkDevice view 0 ()) s := by
  set w : World := ⟨l1, fun _ ↦ memory, fun _ _ ↦ 0, fun _ _ ↦ cursor, fun _ _ ↦ 0, []⟩
  set entry : RegEntry Unit := ⟨slot, l2cpu, (), 5, .block, queueIdx + 1⟩
  have hdispatch := h Unit sinkDevice entry 1 w rfl rfl rfl
  rw [dispatchChain, if_neg (show ¬ entry.numQueues ≤ queueIdx from Nat.not_succ_le_self _)]
    at hdispatch
  have hdrain := hdispatch.after (fun _ s ↦ s) (fun _ s ↦ shadowRely_refl slot queueIdx s) 0
  set out := (readShadow entry.slot queueIdx).run exec (fun _ s ↦ s) 0 w
  have hwords : out.result = shadowWords l1 slot queueIdx := rfl
  rw [hwords, hview] at hdrain
  exact ⟨out.state, fun _ ↦ rfl, fun _ _ ↦ rfl, hdrain.first.first⟩

/-- The same for the part of a call that consumes an entry. -/
theorem RingsConfined.entry (h : RingsConfined slot queueIdx l2cpu l1)
    (hview : configure slot l2cpu queueIdx (shadowWords l1 slot queueIdx) = some view)
    {memory : Bytes} {cursor : ℕ} (hpend : cursor ≠ availIdx view memory) :
    ∃ s : World, (∀ l2cpu, s.dram l2cpu = memory) ∧
      StaysIn slot queueIdx l2cpu
        (consumeEntry sinkDevice view 0 cursor ()) s := by
  obtain ⟨s, hmemory, hcur, hcall⟩ := h.call hview memory cursor
  have htake : StaysIn slot queueIdx l2cpu
    (takeEntry sinkDevice view 0 () (availIdx view (s.dram view.id.l2cpu))) (exec (.ringLoad
    view.id .availIdx view.availIdxAddr 2) s).2 := (hcall s (shadowRely_refl slot queueIdx s)).2
  set t := (exec (.ringLoad view.id .availIdx view.availIdxAddr 2) s).2
  rw [takeEntry, perform_bind] at htake
  have hbody := (htake t (shadowRely_refl slot queueIdx t)).2
  have hproc : (exec (.getProcessed view.id.slot view.id.queue) t).1 = cursor := hcur _ _
  rw [hproc, hmemory] at hbody
  beta_reduce at hbody
  rw [if_neg hpend] at hbody
  exact ⟨(exec (.getProcessed view.id.slot view.id.queue) t).2, hmemory, hbody⟩

/-- Memory in which `avail.idx` reads `idx`. -/
def published (view : QueueView) (idx : ℕ) : Bytes := writeLE (fun _ ↦ 0) view.availIdxAddr 2 idx

theorem availIdx_published {idx : ℕ} (hidx : idx < 2 ^ 16) :
    availIdx view (published view idx) = idx := by
  rw [availIdx, published, readLE_writeLE_self]
  exact Nat.mod_eq_of_lt hidx

section

variable (h : RingsConfined slot queueIdx l2cpu l1)
include h

variable (hview : configure slot l2cpu queueIdx (shadowWords l1 slot queueIdx) = some view)
include hview

/-- A confined dispatch reads the avail slot of the last index. -/
theorem RingsConfined.lastAvailSlot : view.availQ + (4 + 2 * view.queueNum) ≤ l2cpu.memEnd := by
  have hpos := view.queueNum_pos
  have hpend : view.queueNum - 1 ≠ availIdx view (published view view.queueNum) := by
    rw [availIdx_published view.queueNum_lt]
    omega
  obtain ⟨s, -, hentry⟩ := h.entry hview hpend
  have hslot := (hentry s (shadowRely_refl slot queueIdx s)).1.2
  rw [availRingAddr, Nat.mod_eq_of_lt (by omega)] at hslot
  omega

/-- The walk of the entry at cursor `0`, from the read of its first descriptor on. -/
theorem RingsConfined.walk {memory : Bytes} (hpend : 0 ≠ availIdx view memory) :
    ∃ (s : World) (stepsLeft : ℕ), StaysIn slot queueIdx l2cpu
      (do
        let walked ← walkChain sinkDevice view 0 (stepsLeft + 1)
          (readLE memory (view.availRingAddr 0) 2) 0 ()
        let posted ← settle view (readLE memory (view.availRingAddr 0) 2) walked.2
        let _ ← perform (.setProcessed view.id.slot view.id.queue 1)
        pure (walked.1, posted)) s := by
  obtain ⟨stepsLeft, hsteps⟩ := Nat.exists_eq_succ_of_ne_zero view.queueNum_pos.ne'
  obtain ⟨s, hmemory, hentry⟩ := h.entry hview hpend
  have hwalk := (hentry s (shadowRely_refl slot queueIdx s)).2
  have hhead : (exec (.ringLoad view.id .availRing (view.availRingAddr 0) 2) s).1 =
      readLE memory (view.availRingAddr 0) 2 := by
    rw [exec_fst, Op.answer, hmemory]
  rw [hhead, hsteps] at hwalk
  exact ⟨_, stepsLeft, hwalk⟩

/-- A confined dispatch reads the descriptor of the last index. -/
theorem RingsConfined.lastDescriptor : view.descQ + 16 * view.queueNum ≤ l2cpu.memEnd := by
  have hpos := view.queueNum_pos
  have hlt := view.queueNum_lt
  set memory := writeLE (published view 1) (view.availRingAddr 0) 2 (view.queueNum - 1) with hmemory
  have hapart : Apart (view.availRingAddr 0) 2 view.availIdxAddr 2 := by
    unfold Apart availRingAddr availIdxAddr
    omega
  have hpend : 0 ≠ availIdx view memory := by
    have hread : availIdx view memory = availIdx view (published view 1) :=
      readLE_writeLE_of_apart hapart
    rw [hread, availIdx_published (by norm_num)]
    exact zero_ne_one
  have hhead : readLE memory (view.availRingAddr 0) 2 = view.queueNum - 1 := by
    rw [hmemory, readLE_writeLE_self]
    exact Nat.mod_eq_of_lt (by omega)
  obtain ⟨s, stepsLeft, hwalk⟩ := h.walk hview hpend
  have hdesc := (hwalk s (shadowRely_refl slot queueIdx s)).1.2
  rw [hhead, descAddr, Nat.mod_eq_of_lt (by omega)] at hdesc
  omega

end

/-- Guests overwrite their memories with one word. -/
def overwritten (w : World) (addr size value : ℕ) : World :=
  { w with dram := fun _ ↦ memoryWith [(addr, size, value)] }

theorem shadowRely_overwritten (w : World) (addr size value : ℕ) :
    ShadowRely slot queueIdx w (overwritten w addr size value) :=
  ⟨⟨rfl, (Interferes.refl w).history_eq⟩, fun _ _ _ ↦ rfl⟩

theorem ringLoad_overwritten {id : QueueId} {part : RingPart} {w : World} {addr size value : ℕ}
    (hvalue : value < 256 ^ size) :
    (exec (.ringLoad id part addr size) (overwritten w addr size value)).1 = value := by
  have hread := readLE_writeLE_self (fun _ ↦ 0) addr size value
  rw [Nat.mod_eq_of_lt hvalue] at hread
  exact hread

/-- A descriptor of the empty buffer at the start of the window. -/
def emptyDesc (l2cpu : L2Cpu) : VringDesc := ⟨l2cpu.startingAddress, 0, 0, 0⟩

theorem ofRaw_startingAddress (l2cpu : L2Cpu) :
    VringDesc.ofRaw l2cpu.startingAddress = emptyDesc l2cpu := by
  have hwindow := l2cpu.window_lt
  simp only [VringDesc.ofRaw, emptyDesc, VringDesc.mk.injEq]
  omega

theorem ConfigureSpec.inRange_emptyDesc {words : ShadowWords}
    (h : ConfigureSpec slot l2cpu queueIdx words view) : view.inRange (emptyDesc l2cpu) = true := by
  obtain ⟨hlow, hhigh⟩ := (l2cpu.inRange_iff _ _).mp h.desc_inRange
  have hwindow : l2cpu.memEnd < 2 ^ 64 - 1 := l2cpu.window_lt
  rw [inRange_iff, h.startingAddress_eq, h.memEnd_eq, emptyDesc]
  dsimp only
  omega

/-- A confined dispatch writes the used element of the last index: between the two reads the guest
may store a descriptor of the empty buffer at the start of the window, and the largest
`used.idx`. -/
theorem RingsConfined.lastUsedElement (h : RingsConfined slot queueIdx l2cpu l1)
    (hview : configure slot l2cpu queueIdx (shadowWords l1 slot queueIdx) = some view) :
    view.usedQ + (4 + 8 * view.queueNum) ≤ l2cpu.memEnd := by
  have hpos := view.queueNum_pos
  have hlt := view.queueNum_lt
  have hpend : 0 ≠ availIdx view (published view 1) := by
    rw [availIdx_published (by norm_num)]
    exact zero_ne_one
  obtain ⟨s, stepsLeft, hwalk⟩ := h.walk hview hpend
  set head := readLE (published view 1) (view.availRingAddr 0) 2
  rw [walkChain, perform_bind, step_bind] at hwalk
  have hwindow := l2cpu.window_lt
  -- The guest stores the descriptor right before it is read.
  have hlast := (hwalk _ (shadowRely_overwritten s (view.descAddr head) 16 l2cpu.startingAddress)).2
  have hnext : ¬ (emptyDesc l2cpu).hasNext = true := by simp [emptyDesc, VringDesc.hasNext]
  rw [ringLoad_overwritten (by omega)] at hlast
  dsimp only at hlast
  rw [ofRaw_startingAddress, if_pos (configure_spec hview).inRange_emptyDesc, if_neg hnext] at hlast
  have hsettle := (hlast.after (fun _ t ↦ t) (fun _ t ↦ shadowRely_refl slot queueIdx t) 0).first
  set out := run exec (fun _ t ↦ t) (handLast sinkDevice view () (emptyDesc l2cpu) >>=
    fun reply ↦ pure (reply.1, some ((0 + reply.2) % 2 ^ 64))) 0 _
  have hpost : StaysIn slot queueIdx l2cpu (postUsed view head 0) out.state := hsettle.first
  -- It stores `used.idx` right before that is read.
  have hstores := (hpost _ (shadowRely_overwritten out.state view.usedIdxAddr 2
    (view.queueNum - 1))).2
  rw [ringLoad_overwritten (by omega)] at hstores
  have hlen := ((hstores _ (shadowRely_refl slot queueIdx _)).2 _
    (shadowRely_refl slot queueIdx _)).1.2
  rw [usedElemAddr, Nat.mod_eq_of_lt (by omega)] at hlen
  omega

/-- Confinement of the rings. For all contents of L1, every access of a dispatch to the descriptor
table, the avail ring and the used ring stays in the window if and only if the dispatch refuses the
configuration or the rings end in the window. -/
theorem dispatchChain_confined_iff (slot queueIdx : ℕ) (l2cpu : L2Cpu) (l1 : Bytes) :
    RingsConfined slot queueIdx l2cpu l1 ↔
      ∀ view, configure slot l2cpu queueIdx (shadowWords l1 slot queueIdx) = some view →
        RingsFit view := by
  constructor
  · intro h view hview
    have hend := (configure_spec hview).memEnd_eq
    constructor
    · rw [hend]
      exact h.lastDescriptor hview
    · rw [hend]
      exact h.lastAvailSlot hview
    · rw [hend]
      exact h.lastUsedElement hview
  · rintro hfit D device entry passes w rfl rfl rfl
    unfold dispatchChain
    split_ifs with hqueue
    · trivial
    · have hread : Ensures exec (ShadowRely entry.slot queueIdx) (fun op _ ↦ ∃ addr size,
        op = .l1Load addr size) (fun words _ ↦ words = shadowWords w.l1 entry.slot queueIdx ∧ True)
        (readShadow entry.slot queueIdx) w := readShadow_ensures (fun _ _ h ↦ h.2) (fun _ _ _ _ ↦
        trivial) (fun _ _ _ _ ↦ trivial) trivial
      refine (hread.mono (fun _ _ h ↦ h) ?_ fun _ _ h ↦ h).bind ?_
      · rintro op _ ⟨addr, size, rfl⟩
        trivial
      · rintro words s ⟨rfl, -⟩
        cases hview : configure entry.slot entry.l2cpu queueIdx
            (shadowWords w.l1 entry.slot queueIdx) with
        | none => trivial
        | some view =>
          have hfitted := (configure_spec hview).fitted (hfit view hview)
          exact Ensures.ofAlways ((always_drainQueue hfitted _ _ _).bind fun drained _ ↦
            always_announce hfitted entry drained) s

end Reach

/-! ### A used ring at the end of the window -/

/-- A queue of four entries whose used ring starts four bytes before the end of the window, and one
published entry. -/
def edgeWorld : World where
  l1 := memoryWith
    [(shadowQueueAddr 0 0 shadowQOffDescLo, 4, 0x30001000),
      (shadowQueueAddr 0 0 shadowQOffDescHi, 4, 0x4000),
      (shadowQueueAddr 0 0 shadowQOffDriverLo, 4, 0x30002000),
      (shadowQueueAddr 0 0 shadowQOffDriverHi, 4, 0x4000),
      (shadowQueueAddr 0 0 shadowQOffDeviceLo, 4, 0x2ffffffc),
      (shadowQueueAddr 0 0 shadowQOffDeviceHi, 4, 0x4001),
      (shadowQueueAddr 0 0 shadowQOffNum, 4, 4)]
  dram := fun _ ↦ memoryWith
    [(0x400030001000, 16, VringDesc.toRaw ⟨0x400030005000, 16, 0, 0⟩), (0x400030002002, 2, 1)]
  host := fun _ _ ↦ 0
  processed := fun _ _ ↦ 0
  outside := fun _ _ ↦ 0
  history := []

/-- The dispatch stores a used element at the first address behind the window. -/
theorem dispatchChain_leaves_window :
    let out := (dispatchChain sinkDevice 8 ⟨0, L2Cpu.ofIdx 0, (), 5, .block, 1⟩ 0).run exec
      Interference.none.act 0 edgeWorld
    .did (.ringStore ⟨0, 0, 0⟩ .usedElemId (L2Cpu.ofIdx 0).memEnd 4 0) 0 ∈ out.state.history := by
  decide +kernel

end Bhx.DataPlane
