import Mathlib.Logic.Function.Basic
import Bhx.SharedMemory.ByteMemory
import Bhx.SharedMemory.RelyGuarantee

/-!
# The machine the engine runs on

The daemon, the BRISC firmware and the guests share memories. `World` holds them: the L1 of the
Tensix engine, the DRAM of each L2CPU at guest-physical addresses, the host memory each device
model maps or owns, the `processed` cursors that the daemon keeps for every registered queue, and
the way host code outside the repository would answer a call right now (`outside`). Every atomic
access is an operation (`Op`), and `exec` performs one and records it, newest first, in the
history. Nothing reads the history; statements do.

A device model does not see the world. It is a program over its own operations (`DevOp`): loads and
stores of guest memory through the pointers it is handed, loads and stores of its own host memory,
and calls into host code. `Op.device` embeds them, with the slot and the L2CPU the model is
attached to, so an access made by a device model and one made by the chain walk are different
operations.

`Interference` is what everything outside a program does right before one of its operations. It
may change any memory and the answers of host code; it leaves the cursors alone, which only the
daemon writes, and adds to the history only events of its own.

Scope. Accesses are sequentially consistent and a volatile access of any width is one operation.
Log output and metric counters are not modelled.
-/

set_option autoImplicit false

namespace Bhx.Machine

open SharedMemory List

/-- Calls of the device models into host code outside the repository. -/
inductive HostCall
  /-- `select` on the slirp socket, with a zero timeout. -/
  | slirpReady
  /-- `vdeslirp_recv` into the packet buffer: the length received, `0` for none or an error. -/
  | slirpRecv (limit : ℕ)
  /-- `vdeslirp_send` from the packet buffer. -/
  | slirpSend (len : ℕ)
  /-- Whether the console's keystroke queue holds a byte. -/
  | inputReady
  /-- `pop_front` of the console's keystroke queue: `0` for none, else one more than the byte. -/
  | inputPop
  /-- `push_chip_output` to the console hub. -/
  | hubPush (bytes : List UInt8)
  /-- `getrandom`: the low nine bits are the number of bytes, `0` for an error, and the bits above
  are the bytes as a little-endian word. -/
  | getrandom (len : ℕ)
  /-- A read through a null pointer. -/
  | nullRead
deriving DecidableEq, Repr

/-- `u64::saturating_add`. -/
def saturatingAdd (a b : ℕ) : ℕ := min (a + b) (2 ^ 64 - 1)

/-- Operations of a device model. -/
inductive DevOp
  /-- A read of guest memory. -/
  | load (addr size : ℕ)
  /-- A write of guest memory. -/
  | store (addr size value : ℕ)
  /-- A read of the model's own host memory. -/
  | hostLoad (addr size : ℕ)
  /-- A write of the model's own host memory. -/
  | hostStore (addr size value : ℕ)
  | call (request : HostCall)
deriving DecidableEq, Repr

/-- A queue of a registered device: the slot, the queue index and the L2CPU whose DRAM holds its
rings. -/
structure QueueId where
  slot : ℕ
  queue : ℕ
  l2cpu : ℕ
deriving DecidableEq, Repr

/-- The parts of a virtqueue in guest memory. -/
inductive RingPart
  | availIdx | availRing | desc | usedIdx | usedElemId | usedElemLen
deriving DecidableEq, Repr

/-- The callbacks a chain walk makes into a device model. -/
inductive Callback
  | processQueueStart | processQueueData | processQueueComplete
deriving DecidableEq, Repr

/-- Atomic operations of the daemon and the firmware. -/
inductive Op
  /-- A volatile read of a virtqueue in guest memory. -/
  | ringLoad (id : QueueId) (part : RingPart) (addr size : ℕ)
  /-- A volatile write of a virtqueue in guest memory. -/
  | ringStore (id : QueueId) (part : RingPart) (addr size value : ℕ)
  | l1Load (addr size : ℕ)
  | l1Store (addr size value : ℕ)
  /-- A write of the PLIC source register of an L2CPU. -/
  | plicStore (l2cpu value : ℕ)
  /-- A read of the daemon's `processed` cursor of a queue. -/
  | getProcessed (slot queue : ℕ)
  | setProcessed (slot queue value : ℕ)
  /-- The chain walk hands a buffer to a device callback. -/
  | enter (id : QueueId) (callback : Callback) (addr len : ℕ)
  /-- A device callback returns. -/
  | leave (id : QueueId) (callback : Callback) (value : ℕ)
  /-- An operation of the device model in a slot. -/
  | device (slot l2cpu : ℕ) (op : DevOp)
deriving DecidableEq, Repr

/-- Acts of a guest that the history records. -/
inductive GuestAct
  /-- The driver publishes the avail entry with this head by advancing `avail.idx`. -/
  | publish (slot queue head : ℕ)
  /-- A store to a virtio-mmio register of a slot. -/
  | register (slot offset value : ℕ)
deriving DecidableEq, Repr

/-- An entry of the history. -/
inductive Event
  | did (op : Op) (answer : ℕ)
  | guest (act : GuestAct)
deriving DecidableEq, Repr

/-- The memories, the daemon's cursors, the host code's answers and the history. -/
structure World where
  l1 : Bytes
  /-- The DRAM of each L2CPU, at guest-physical addresses. -/
  dram : ℕ → Bytes
  /-- The host memory of the device model in each slot. -/
  host : ℕ → Bytes
  /-- The `processed` cursor of each slot and queue. -/
  processed : ℕ → ℕ → ℕ
  /-- How host code would answer a call from the device model in a slot now. -/
  outside : ℕ → HostCall → ℕ
  /-- What happened, newest first. -/
  history : List Event

/-- Programs of the daemon and the firmware. -/
abbrev Prog (α : Type) := Program Op ℕ α

/-- Programs of a device model. -/
abbrev DevProg (α : Type) := Program DevOp ℕ α

/-! ### Operations -/

/-- The answer of a device model's operation. -/
def DevOp.answer (slot l2cpu : ℕ) (w : World) : DevOp → ℕ
  | .load addr size => readLE (w.dram l2cpu) addr size
  | .hostLoad addr size => readLE (w.host slot) addr size
  | .call request => w.outside slot request
  | .store _ _ _ | .hostStore _ _ _ => 0

/-- The effect of a device model's operation on the memories. -/
def DevOp.apply (slot l2cpu : ℕ) (w : World) : DevOp → World
  | .store addr size value =>
    { w with dram := Function.update w.dram l2cpu (writeLE (w.dram l2cpu) addr size value) }
  | .hostStore addr size value =>
    { w with host := Function.update w.host slot (writeLE (w.host slot) addr size value) }
  | .load _ _ | .hostLoad _ _ | .call _ => w

/-- The answer of an operation. -/
def Op.answer (w : World) : Op → ℕ
  | .ringLoad id _ addr size => readLE (w.dram id.l2cpu) addr size
  | .l1Load addr size => readLE w.l1 addr size
  | .getProcessed slot queue => w.processed slot queue
  | .device slot l2cpu op => op.answer slot l2cpu w
  | .ringStore _ _ _ _ _ | .l1Store _ _ _ | .plicStore _ _ | .setProcessed _ _ _ |
    .enter _ _ _ _ | .leave _ _ _ => 0

/-- The effect of an operation on the memories and the cursors. -/
def Op.apply (w : World) : Op → World
  | .ringStore id _ addr size value =>
    { w with dram := Function.update w.dram id.l2cpu (writeLE (w.dram id.l2cpu) addr size value) }
  | .l1Store addr size value => { w with l1 := writeLE w.l1 addr size value }
  | .setProcessed slot queue value =>
    { w with
      processed := Function.update w.processed slot
        (Function.update (w.processed slot) queue value) }
  | .device slot l2cpu op => op.apply slot l2cpu w
  | .ringLoad _ _ _ _ | .l1Load _ _ | .plicStore _ _ | .getProcessed _ _ | .enter _ _ _ _ |
    .leave _ _ _ => w

/-- The queue whose rings or callbacks an operation of a chain walk is about. -/
def Op.queue? : Op → Option QueueId
  | .ringLoad id _ _ _ | .ringStore id _ _ _ _ | .enter id _ _ _ | .leave id _ _ => some id
  | .l1Load _ _ | .l1Store _ _ _ | .plicStore _ _ | .getProcessed _ _ | .setProcessed _ _ _ |
    .device _ _ _ => none

/-- Puts an event on the history. -/
def World.record (w : World) (event : Event) : World := { w with history := event :: w.history }

/-- Performs an operation and records it. -/
def exec (op : Op) (w : World) : ℕ × World :=
  (op.answer w, (op.apply w).record (.did op (op.answer w)))

variable (w : World) (op : Op)

@[simp]
theorem exec_fst (w : World) : (exec op w).1 = op.answer w := rfl

@[simp]
theorem exec_snd (w : World) : (exec op w).2 = (op.apply w).record (.did op (op.answer w)) := rfl

variable (event : Event)

@[simp]
theorem record_processed : (w.record event).processed = w.processed := rfl

@[simp]
theorem record_history : (w.record event).history = event :: w.history := rfl

@[simp]
theorem DevOp.apply_history (slot l2cpu : ℕ) (w : World) (op : DevOp) :
    (op.apply slot l2cpu w).history = w.history := by
  cases op <;> rfl

@[simp]
theorem DevOp.apply_processed (slot l2cpu : ℕ) (w : World) (op : DevOp) :
    (op.apply slot l2cpu w).processed = w.processed := by
  cases op <;> rfl

@[simp]
theorem DevOp.apply_l1 (slot l2cpu : ℕ) (w : World) (op : DevOp) :
    (op.apply slot l2cpu w).l1 = w.l1 := by
  cases op <;> rfl

@[simp]
theorem Op.apply_history : (op.apply w).history = w.history := by
  cases op <;> simp [Op.apply]

/-- An operation on a word of guest memory answers less than its width allows. -/
theorem ringLoad_answer_lt (id : QueueId) (part : RingPart) (addr size : ℕ) (w : World) :
    (Op.ringLoad id part addr size).answer w < 256 ^ size :=
  readLE_lt _ _ _

/-! ### Interference and logs -/

/-- Events that interference may add: acts of guests and accesses of L1, which the firmware makes
too. -/
def Event.foreign : Event → Bool
  | .guest _ => true
  | .did (.l1Load _ _) _ | .did (.l1Store _ _ _) _ => true
  | .did _ _ => false

/-- What may happen between two operations of the daemon: memories and the answers of host code
change, the cursors stay, and the history grows by foreign events. -/
structure Interferes (w w' : World) : Prop where
  processed_eq : w'.processed = w.processed
  history_eq : ∃ events : List Event, (∀ event ∈ events, event.foreign = true) ∧
    w'.history = events ++ w.history

theorem Interferes.refl : Interferes w w :=
  ⟨rfl, [], by simp, rfl⟩

theorem Interferes.trans {w w' w'' : World} (h : Interferes w w') (h' : Interferes w' w'') :
    Interferes w w'' := by
  obtain ⟨events, hforeign, hhistory⟩ := h.history_eq
  obtain ⟨events', hforeign', hhistory'⟩ := h'.history_eq
  refine ⟨h'.processed_eq.trans h.processed_eq, events' ++ events, ?_, ?_⟩
  · intro event hmem
    rcases mem_append.mp hmem with hmem | hmem
    · exact hforeign' event hmem
    · exact hforeign event hmem
  · rw [hhistory', hhistory, append_assoc]

/-- Everything outside a program, acting right before each of its operations. -/
structure Interference where
  act : ℕ → World → World
  interferes_act : ∀ clock w, Interferes w (act clock w)

/-- Nothing happens between the operations. -/
def Interference.none : Interference where
  act := fun _ w ↦ w
  interferes_act := fun _ w ↦ Interferes.refl w

theorem history_suffix_run {α : Type} (program : Prog α) (interference : Interference) (clock : ℕ)
    (w : World) : w.history <:+ (program.run exec interference.act clock w).state.history := by
  induction program generalizing clock w with
  | done _ => exact suffix_refl _
  | step op next ih =>
    obtain ⟨events, -, hhistory⟩ := (interference.interferes_act clock w).history_eq
    refine List.IsSuffix.trans ?_ (ih _ (clock + 1) _)
    rw [exec_snd, record_history, Op.apply_history, hhistory]
    exact suffix_append (_ :: events) w.history

/-- The selected events of the history, oldest first. -/
def World.log {β : Type} (w : World) (select : Event → Option β) : List β :=
  (w.history.filterMap select).reverse

/-- A selection that takes no foreign event. -/
def Native {β : Type} (select : Event → Option β) : Prop :=
  ∀ event : Event, event.foreign = true → select event = none

section Log

variable {β : Type} {select : Event → Option β}

theorem log_record : (w.record event).log select = w.log select ++ (select event).toList := by
  unfold World.log
  cases h : select event with
  | none => simp [h]
  | some value => simp [h]

theorem log_exec (w : World) :
    (exec op w).2.log select = w.log select ++ (select (.did op (op.answer w))).toList := by
  rw [exec_snd, log_record]
  simp [World.log]

theorem log_eq_of_interferes (hnative : Native select) {w w' : World} (h : Interferes w w') :
    w'.log select = w.log select := by
  obtain ⟨events, hforeign, hhistory⟩ := h.history_eq
  have hnone : events.filterMap select = [] :=
    filterMap_eq_nil_iff.mpr fun event hmem ↦ hnative event (hforeign event hmem)
  unfold World.log
  rw [hhistory, filterMap_append, hnone, nil_append]

end Log

end Bhx.Machine
