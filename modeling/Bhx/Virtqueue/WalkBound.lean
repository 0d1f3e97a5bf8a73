import Bhx.SharedMemory.Fallible
import Bhx.Virtqueue.ChainWalk

/-!
# Bounds on a walk

The walk of a chain makes accesses of its own (`WalkOp`) and those of the device model's callbacks.
When every callback keeps a property of the device model's state and performs allowed operations
only (`CallbacksKeep`), so does every chain that is taken from a queue, whatever guest memory
answers and wherever the walk gives up (`CallbacksKeep.processOneChainForQueue`), and any number of
them on any queues (`CallbacksKeep.serveChains`).
-/

set_option autoImplicit false

namespace Bhx.Virtqueue

open SharedMemory Machine

/-- The accesses of a walk whose device model performs allowed operations. -/
inductive WalkOp (view : QueueView) (allowed : DevOp → Prop) : Op → Prop
  | desc (idx : ℕ) : WalkOp view allowed (.ringLoad view.id .desc (view.descAddr idx) 16)
  | availIdx : WalkOp view allowed (.ringLoad view.id .availIdx view.availIdxAddr 2)
  | availRing (idx : ℕ) :
      WalkOp view allowed (.ringLoad view.id .availRing (view.availRingAddr idx) 2)
  | usedIdx : WalkOp view allowed (.ringLoad view.id .usedIdx view.usedIdxAddr 2)
  | elemId (idx value : ℕ) :
      WalkOp view allowed (.ringStore view.id .usedElemId (view.usedElemAddr idx) 4 value)
  | elemLen (idx value : ℕ) :
      WalkOp view allowed (.ringStore view.id .usedElemLen (view.usedElemAddr idx + 4) 4 value)
  | advance (value : ℕ) :
      WalkOp view allowed (.ringStore view.id .usedIdx view.usedIdxAddr 2 value)
  | enter (kind : Callback) (addr len : ℕ) : WalkOp view allowed (.enter view.id kind addr len)
  | leave (kind : Callback) (value : ℕ) : WalkOp view allowed (.leave view.id kind value)
  | getProcessed : WalkOp view allowed (.getProcessed view.id.slot view.id.queue)
  | setProcessed (value : ℕ) : WalkOp view allowed (.setProcessed view.id.slot view.id.queue value)
  | device (op : DevOp) (h : allowed op) :
      WalkOp view allowed (.device view.id.slot view.id.l2cpu op)

/-- The callbacks keep a property of the state and perform allowed operations only. -/
structure CallbacksKeep {D : Type} (device : VirtioDevice D) (keeps : D → Prop)
    (allowed : DevOp → Prop) : Prop where
  start : ∀ state queueIdx addr len, keeps state →
    (device.processQueueStart state queueIdx addr len).Always allowed keeps
  data : ∀ state queueIdx addr len, keeps state →
    (device.processQueueData state queueIdx addr len).Always allowed keeps
  complete : ∀ state queueIdx addr len, keeps state →
    (device.processQueueComplete state queueIdx addr len).Always allowed fun reply ↦ keeps reply.1
  hasData : ∀ state queueIdx, keeps state →
    (device.queueHasData state queueIdx).Always allowed fun _ ↦ True

/-- Chains taken one after the other, each from a queue of its own. -/
def serveChains {D : Type} (device : VirtioDevice D) : List QueueView → D → Prog D
  | [], state => pure state
  | view :: views, state => do
    let reply ← processOneChainForQueue device view (device.queueHeaderSize state) state
    serveChains device views reply.1

section Walk

variable {D : Type} {device : VirtioDevice D} {keeps : D → Prop} {allowed : DevOp → Prop}
  {view : QueueView} {state : D}

theorem callbacksKeep_true : CallbacksKeep device (fun _ ↦ True) fun _ ↦ True := by
  have hprog : ∀ {α : Type} (program : DevProg α), program.Performs (fun _ ↦ True) := by
    intro α program
    induction program with
    | done _ => trivial
    | step op next ih => exact ⟨trivial, ih⟩
  exact ⟨fun _ _ _ _ _ ↦ hprog _, fun _ _ _ _ _ ↦ hprog _, fun _ _ _ _ _ ↦ hprog _,
    fun _ _ _ ↦ hprog _⟩

theorem walkOp_handTo {β : Type} {kind : Callback} {body : DevProg β} {value : β → ℕ}
    {d : VringDesc} {post : β → Prop} (h : body.Always allowed post) :
    (handTo view kind body value d).Always (WalkOp view allowed) post :=
  ⟨.enter kind d.addr d.len, fun _ ↦ (h.embed fun op hop ↦ .device op hop).bind fun reply hreply ↦
    ⟨.leave kind (value reply), fun _ ↦ hreply⟩⟩

theorem walkOp_settle (head : ℕ) (written : Option ℕ) :
    (settle view head written).Performs (WalkOp view allowed) := by
  cases written with
  | none => trivial
  | some numBytesWritten =>
    exact ⟨.usedIdx, fun usedIdx ↦ ⟨.elemId _ _, fun _ ↦ ⟨.elemLen _ _, fun _ ↦
      ⟨.advance _, fun _ ↦ trivial⟩⟩⟩⟩

variable (h : CallbacksKeep device keeps allowed)

include h

theorem CallbacksKeep.walkChain (queueHeaderSize stepsLeft descIdx numBytesWritten : ℕ)
    (hstate : keeps state) :
    (walkChain device view queueHeaderSize stepsLeft descIdx numBytesWritten state).Always
      (WalkOp view allowed) fun reply ↦ keeps reply.1 := by
  induction stepsLeft generalizing descIdx numBytesWritten state with
  | zero => exact hstate
  | succ stepsLeft ih =>
    rw [walkChain, Program.perform_bind]
    refine ⟨.desc _, fun raw ↦ ?_⟩
    dsimp only
    split_ifs with hrange hnext
    · have hforward : (forward device view queueHeaderSize numBytesWritten state
          (VringDesc.ofRaw raw)).Always (WalkOp view allowed) keeps := by
        unfold forward
        split_ifs
        · exact walkOp_handTo (h.start _ _ _ _ hstate)
        · exact walkOp_handTo (h.data _ _ _ _ hstate)
      exact hforward.bind fun _ hstate' ↦ ih _ _ hstate'
    · exact (walkOp_handTo (h.complete _ _ _ _ hstate)).bind fun _ hreply ↦ hreply
    · exact hstate

theorem CallbacksKeep.processOneChainForQueue (queueHeaderSize : ℕ) (hstate : keeps state) :
    (processOneChainForQueue device view queueHeaderSize state).Always (WalkOp view allowed)
      fun reply ↦ keeps reply.1 := by
  refine ⟨.availIdx, fun availIdx ↦ ?_⟩
  change (takeEntry device view queueHeaderSize state availIdx).Always _ _
  rw [takeEntry, Program.perform_bind]
  refine ⟨.getProcessed, fun processed ↦ ?_⟩
  dsimp only
  split_ifs
  · exact hstate
  · refine ((h.hasData _ _ hstate).embed fun op hop ↦ .device op hop).bind fun ready _ ↦ ?_
    split_ifs
    · refine ⟨.availRing _, fun head ↦ ?_⟩
      refine (h.walkChain _ _ _ _ hstate).bind fun walked hwalked ↦ ?_
      exact (walkOp_settle head walked.2).bind fun posted _ ↦ ⟨.setProcessed _, fun _ ↦ hwalked⟩
    · exact hstate

theorem CallbacksKeep.serveChains {bound : Op → Prop} (views : List QueueView)
    (hbound : ∀ view op, WalkOp view allowed op → bound op) (hstate : keeps state) :
    (serveChains device views state).Always bound keeps := by
  induction views generalizing state with
  | nil => exact hstate
  | cons view views ih =>
    refine ((h.processOneChainForQueue _ hstate).allow (hbound view)).bind fun reply hreply ↦ ?_
    exact ih hreply

end Walk

end Bhx.Virtqueue
