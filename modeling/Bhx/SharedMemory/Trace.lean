import Bhx.SharedMemory.Program

/-!
# Traces of programs

A trace is the list of operations a program performs with the answers it gets. `Program.Follows`
says that a trace leads a program to a result. A statement about all traces is a statement about all
answers, so it needs no memory: what the environment can do to a program is no more than to choose
the answers.

`Program.trace` is the trace of a run, and `follows_trace` says that the program follows it.
Conversely, when an environment can bring about every answer of a trace at its time, the run next to
that environment has exactly this trace (`Follows.trace_eq`).
-/

set_option autoImplicit false

namespace Bhx.SharedMemory.Program

open List

variable {O P A α β σ : Type} {next : α → Program O A β} {program : Program O A α}
variable {answers : O → A} {entry : O × A} {final : β}

/-- The program performs the operations of the trace, gets its answers and stops with the result. -/
def Follows : Program O A α → List (O × A) → α → Prop
  | done result, trace, result' => trace = [] ∧ result = result'
  | step op next, trace, result' =>
    ∃ answer rest, trace = (op, answer) :: rest ∧ (next answer).Follows rest result'

section Follows

variable {program : Program O A α} {trace : List (O × A)} {result : α}

theorem follows_done (result : α) : (done result : Program O A α).Follows [] result := ⟨rfl, rfl⟩

theorem Follows.step {op : O} {next : A → Program O A α} {answer : A}
    (h : (next answer).Follows trace result) :
    (Program.step op next).Follows ((op, answer) :: trace) result :=
  ⟨answer, trace, rfl, h⟩

theorem Follows.bind {trace' : List (O × A)} (h : program.Follows trace result)
    (hnext : (next result).Follows trace' final) :
    (program >>= next).Follows (trace ++ trace') final := by
  induction program generalizing trace with
  | done value =>
    obtain ⟨rfl, rfl⟩ := h
    exact hnext
  | step op rest ih =>
    obtain ⟨answer, tail, rfl, htail⟩ := h
    exact ⟨answer, tail ++ trace', rfl, ih answer htail⟩

/-- A trace of a `bind` is one of the first program and then one of the second. -/
theorem follows_bind (h : (program >>= next).Follows trace final) :
    ∃ first second result, trace = first ++ second ∧ program.Follows first result ∧
      (next result).Follows second final := by
  induction program generalizing trace with
  | done value => exact ⟨[], trace, value, rfl, follows_done value, h⟩
  | step op rest ih =>
    obtain ⟨answer, tail, rfl, htail⟩ := h
    obtain ⟨first, second, result, rfl, hfirst, hsecond⟩ := ih answer htail
    exact ⟨(op, answer) :: first, second, result, rfl, hfirst.step, hsecond⟩

theorem Follows.embed (rename : O → P) (h : program.Follows trace result) :
    (program.embed rename).Follows (trace.map fun entry ↦ (rename entry.1, entry.2)) result := by
  induction program generalizing trace with
  | done value =>
    obtain ⟨rfl, rfl⟩ := h
    exact follows_done value
  | step op next ih =>
    obtain ⟨answer, tail, rfl, htail⟩ := h
    exact (ih answer htail).step

theorem follows_embed {rename : O → P} {trace : List (P × A)}
    (h : (program.embed rename).Follows trace result) :
    ∃ inner, trace = inner.map (fun entry ↦ (rename entry.1, entry.2)) ∧
      program.Follows inner result := by
  induction program generalizing trace with
  | done value =>
    obtain ⟨rfl, rfl⟩ := h
    exact ⟨[], rfl, follows_done value⟩
  | step op next ih =>
    obtain ⟨answer, tail, rfl, htail⟩ := h
    obtain ⟨inner, rfl, hinner⟩ := ih answer htail
    exact ⟨(op, answer) :: inner, rfl, hinner.step⟩

theorem Always.follows {allowed : O → Prop} {post : α → Prop} (h : program.Always allowed post)
    (htrace : program.Follows trace result) : (∀ entry ∈ trace, allowed entry.1) ∧ post result := by
  induction program generalizing trace with
  | done value =>
    obtain ⟨rfl, rfl⟩ := htrace
    exact ⟨by simp, h⟩
  | step op next ih =>
    obtain ⟨answer, tail, rfl, htail⟩ := htrace
    obtain ⟨hops, hpost⟩ := ih answer (h.2 answer) htail
    exact ⟨forall_mem_cons.mpr ⟨h.1, hops⟩, hpost⟩

end Follows

/-- The trace when every operation is answered by a function of the operation. -/
def traceWith (answers : O → A) : Program O A α → List (O × A)
  | done _ => []
  | step op next => (op, answers op) :: (next (answers op)).traceWith answers

theorem exists_follows_traceWith (answers : O → A) (program : Program O A α) :
    ∃ result, program.Follows (program.traceWith answers) result := by
  induction program with
  | done result => exact ⟨result, follows_done result⟩
  | step op next ih =>
    obtain ⟨result, hres⟩ := ih (answers op)
    exact ⟨result, hres.step⟩

theorem mem_traceWith (h : entry ∈ program.traceWith answers) : entry.2 = answers entry.1 := by
  induction program with
  | done result => exact absurd h not_mem_nil
  | step op next ih =>
    rcases mem_cons.mp h with rfl | hrest
    · rfl
    · exact ih _ hrest

theorem mem_traceWith_bind (h : entry ∈ program.traceWith answers) :
    entry ∈ (program >>= next).traceWith answers := by
  induction program with
  | done result => exact absurd h not_mem_nil
  | step op rest ih =>
    rcases mem_cons.mp h with rfl | hrest
    · exact mem_cons_self
    · exact mem_cons_of_mem _ (ih _ hrest)

/-! ### The trace of a run -/

section Run

variable (exec : O → σ → A × σ) (environment : ℕ → σ → σ)

/-- The trace of a run. -/
def trace : Program O A α → ℕ → σ → List (O × A)
  | done _, _, _ => []
  | step op next, clock, state =>
    let reply := exec op (environment clock state)
    (op, reply.1) :: (next reply.1).trace (clock + 1) reply.2

theorem follows_trace (program : Program O A α) (clock : ℕ) (state : σ) :
    program.Follows (program.trace exec environment clock state)
      (program.run exec environment clock state).result := by
  induction program generalizing clock state with
  | done result => exact follows_done result
  | step op next ih => exact (ih _ _ _).step

variable {exec environment}

/-- Assumes: the environment brings about every answer of the trace at its time. Then the run has
this trace. -/
theorem Follows.trace_eq {entries : List (O × A)} {result : α}
    (h : program.Follows entries result) (clock : ℕ)
    (hanswers : ∀ k op answer, entries[k]? = some (op, answer) →
      ∀ state, (exec op (environment (clock + k) state)).1 = answer) (state : σ) :
    program.trace exec environment clock state = entries := by
  induction program generalizing entries clock state with
  | done value =>
    obtain ⟨rfl, rfl⟩ := h
    rfl
  | step op next ih =>
    obtain ⟨answer, tail, rfl, htail⟩ := h
    have hhead : (exec op (environment clock state)).1 = answer := hanswers 0 op answer rfl state
    have hlater : ∀ k op' answer', tail[k]? = some (op', answer') →
        ∀ state', (exec op' (environment (clock + 1 + k) state')).1 = answer' := by
      intro k op' answer' hk state'
      rw [Nat.add_assoc, Nat.add_comm 1 k]
      exact hanswers (k + 1) op' answer' hk state'
    rw [Program.trace, hhead, ih answer htail (clock + 1) hlater]

end Run

end Bhx.SharedMemory.Program
