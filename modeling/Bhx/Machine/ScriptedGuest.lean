import Bhx.Machine.World
import Bhx.SharedMemory.Trace

/-!
# Interference that follows a script

Guests own the memory that the daemon reads, and host code its answers, so between them they can
give every answer that fits the width of a read. `scripted` is the interference that does so for a
list of operations and answers, and `scripted_trace` says that a program that can follow the list
does follow it next to this interference. A statement about all runs is thus one about all traces
with answers that fit (`Op.Admits`).
-/

set_option autoImplicit false

namespace Bhx.Machine

open SharedMemory

/-- Answers that some state of memory and host code gives to an operation of a device model. -/
def DevOp.Admits : DevOp → ℕ → Prop
  | .load _ size, answer | .hostLoad _ size, answer => answer < 256 ^ size
  | .call _, _ => True
  | .store _ _ _, answer | .hostStore _ _ _, answer => answer = 0

/-- Answers that interference can bring about. It does not reach the cursors. -/
def Op.Admits : Op → ℕ → Prop
  | .ringLoad _ _ _ size, answer | .l1Load _ size, answer => answer < 256 ^ size
  | .device _ _ op, answer => op.Admits answer
  | .getProcessed _ _, _ => False
  | .ringStore _ _ _ _ _, answer | .l1Store _ _ _, answer | .plicStore _ _, answer
  | .setProcessed _ _ _, answer | .enter _ _ _ _, answer | .leave _ _ _, answer => answer = 0

/-- Brings about an answer to an operation of a device model. -/
def DevOp.provide (slot l2cpu answer : ℕ) (w : World) : DevOp → World
  | .load addr size =>
    { w with dram := Function.update w.dram l2cpu (writeLE (w.dram l2cpu) addr size answer) }
  | .hostLoad addr size =>
    { w with host := Function.update w.host slot (writeLE (w.host slot) addr size answer) }
  | .call _ => { w with outside := fun _ _ ↦ answer }
  | .store _ _ _ | .hostStore _ _ _ => w

/-- Brings about an answer to an operation. -/
def Op.provide (answer : ℕ) (w : World) : Op → World
  | .ringLoad id _ addr size =>
    { w with dram := Function.update w.dram id.l2cpu (writeLE (w.dram id.l2cpu) addr size answer) }
  | .l1Load addr size => { w with l1 := writeLE w.l1 addr size answer }
  | .device slot l2cpu op => op.provide slot l2cpu answer w
  | .getProcessed _ _ | .ringStore _ _ _ _ _ | .l1Store _ _ _ | .plicStore _ _
  | .setProcessed _ _ _ | .enter _ _ _ _ | .leave _ _ _ => w

theorem DevOp.answer_provide {op : DevOp} {answer : ℕ} (h : op.Admits answer) (slot l2cpu : ℕ)
    (w : World) : op.answer slot l2cpu (op.provide slot l2cpu answer w) = answer := by
  cases op with
  | load addr size =>
    simp only [DevOp.answer, DevOp.provide, Function.update_self, readLE_writeLE_self]
    exact Nat.mod_eq_of_lt h
  | hostLoad addr size =>
    simp only [DevOp.answer, DevOp.provide, Function.update_self, readLE_writeLE_self]
    exact Nat.mod_eq_of_lt h
  | call request => rfl
  | store addr size value => exact Eq.symm h
  | hostStore addr size value => exact Eq.symm h

theorem Op.answer_provide {op : Op} {answer : ℕ} (h : op.Admits answer) (w : World) :
    op.answer (op.provide answer w) = answer := by
  cases op with
  | ringLoad id part addr size =>
    simp only [Op.answer, Op.provide, Function.update_self, readLE_writeLE_self]
    exact Nat.mod_eq_of_lt h
  | l1Load addr size =>
    simp only [Op.answer, Op.provide, readLE_writeLE_self]
    exact Nat.mod_eq_of_lt h
  | device slot l2cpu op => exact DevOp.answer_provide h slot l2cpu w
  | getProcessed slot queue => exact absurd h not_false
  | ringStore | l1Store | plicStore | setProcessed | enter | leave => exact Eq.symm h

theorem Op.interferes_provide (answer : ℕ) (w : World) (op : Op) :
    Interferes w (op.provide answer w) := by
  have hsame : (op.provide answer w).processed = w.processed ∧
      (op.provide answer w).history = w.history := by
    cases op with
    | device slot l2cpu op => cases op <;> exact ⟨rfl, rfl⟩
    | _ => exact ⟨rfl, rfl⟩
  exact ⟨hsame.1, [], by simp, hsame.2⟩

/-- The interference that brings about the answers of a list, one at each time. -/
def scripted (entries : List (Op × ℕ)) : Interference where
  act := fun clock w ↦
    match entries[clock]? with
    | some (op, answer) => op.provide answer w
    | none => w
  interferes_act := by
    intro clock w
    cases h : entries[clock]? with
    | none => exact Interferes.refl w
    | some entry => exact Op.interferes_provide _ _ _

/-- A program that can follow a list of operations with answers that fit follows it next to the
scripted interference. -/
theorem scripted_trace {α : Type} {program : Prog α} {entries : List (Op × ℕ)} {result : α}
    (h : program.Follows entries result) (hadmits : ∀ entry ∈ entries, entry.1.Admits entry.2)
    (w : World) : program.trace exec (scripted entries).act 0 w = entries := by
  refine h.trace_eq 0 (fun k op answer hk state ↦ ?_) w
  have hact : (scripted entries).act (0 + k) state = op.provide answer state := by
    rw [Nat.zero_add]
    simp only [scripted, hk]
  rw [hact, exec_fst]
  exact Op.answer_provide (hadmits _ (List.mem_of_getElem? hk)) state

/-! ### The log of a run -/

/-- The operations in the history that no interference can add. -/
def nativeOp : Event → Option (Op × ℕ)
  | .guest _ => none
  | .did (.l1Load _ _) _ | .did (.l1Store _ _ _) _ => none
  | .did op answer => some (op, answer)

theorem native_nativeOp : Native nativeOp := by
  intro event hforeign
  cases event with
  | guest act => rfl
  | did op answer => cases op <;> simp [Event.foreign, nativeOp] at hforeign ⊢

/-- A run adds its own operations to the log, in order. -/
theorem log_run {α : Type} (program : Prog α) (guest : Interference) (clock : ℕ) (w : World) :
    (program.run exec guest.act clock w).state.log nativeOp = w.log nativeOp ++
      (program.trace exec guest.act clock w).filterMap fun entry ↦
        nativeOp (.did entry.1 entry.2) := by
  induction program generalizing clock w with
  | done result => simp [Program.trace, Program.run]
  | step op next ih =>
    have hact := log_eq_of_interferes native_nativeOp (guest.interferes_act clock w)
    rw [Program.run_step, ih, log_exec, hact, Program.trace, List.append_assoc]
    congr 1
    cases hop : nativeOp (.did op (op.answer (guest.act clock w))) with
    | none => simp [hop]
    | some entry => simp [hop]

end Bhx.Machine
