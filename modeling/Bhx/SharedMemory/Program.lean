import Mathlib.Order.Basic

/-!
# Programs of atomic accesses

A program is a tree of atomic operations: it stops with a result, or performs one operation and
continues with the answer (`Program`). Programs form a lawful monad, and `perform` is the program
of one operation. `Program.embed` renames the operations of a program, so that a component written
over its own operations becomes part of a larger one.

`Program.run` executes a program next to an environment. The environment acts on the state right
before every operation, and what it does may depend on the time and on the state; a statement about
`run` for all environments of a kind is a statement about every interleaving with that kind of
environment at the grain of single operations. `run_bind` splits a run at a `bind`.

Programs are well-founded trees, so every run ends. A loop whose end depends on the answers is a
program only with a bound on its passes.
-/

set_option autoImplicit false

namespace Bhx.SharedMemory

/-- A program over the operations `O` with answers in `A`. -/
inductive Program (O A α : Type) : Type
  /-- Stops with a result. -/
  | done (result : α)
  /-- Performs an operation and continues with its answer. -/
  | step (op : O) (next : A → Program O A α)

namespace Program

variable {O P A α β γ σ : Type}

/-- Runs `next` on the result of a program. -/
def andThen : Program O A α → (α → Program O A β) → Program O A β
  | done result, next => next result
  | step op rest, next => step op fun answer ↦ (rest answer).andThen next

instance : Monad (Program O A) where
  pure := done
  bind := andThen

@[simp]
theorem step_bind (op : O) (rest : A → Program O A α) (next : α → Program O A β) :
    step op rest >>= next = step op fun answer ↦ rest answer >>= next := rfl

variable (program : Program O A α)

theorem bind_done : program >>= done = program := by
  induction program with
  | done result => rfl
  | step op rest ih => rw [step_bind, funext ih]

theorem bind_assoc (first : α → Program O A β) (second : β → Program O A γ) :
    program >>= first >>= second = program >>= fun result ↦ first result >>= second := by
  induction program with
  | done result => rfl
  | step op rest ih => simp only [step_bind, ih]

instance : LawfulMonad (Program O A) :=
  LawfulMonad.mk' _ (fun program ↦ bind_done program) (fun _ _ ↦ rfl) bind_assoc

/-- The program of one operation, whose result is the answer. -/
def perform (op : O) : Program O A A := step op done

@[simp]
theorem perform_bind (op : O) (next : A → Program O A α) : perform op >>= next = step op next := rfl

/-- A program that runs only under a condition. -/
def onlyIf (condition : Prop) [Decidable condition] (program : Program O A Unit) :
    Program O A Unit :=
  if condition then program else done ()

/-- The operation that the program performs next. -/
def nextOp : Program O A α → Option O
  | done _ => none
  | step op _ => some op

/-- The result of a program that has stopped. -/
def finished : Program O A α → Option α
  | done result => some result
  | step _ _ => none

theorem eq_done_of_finished {program : Program O A α} {result : α}
    (h : program.finished = some result) : program = done result := by
  cases program with
  | done value => exact congrArg done (Option.some.inj h)
  | step op next => exact absurd h (Option.some_ne_none result).symm

/-- Renames the operations of a program. -/
def embed (rename : O → P) : Program O A α → Program P A α
  | done result => done result
  | step op next => step (rename op) fun answer ↦ (next answer).embed rename

/-! ### The operations of a program -/

/-- Whatever the answers are, every operation that the program performs is `allowed` and its result
is in `post`. -/
def Always (allowed : O → Prop) (post : α → Prop) : Program O A α → Prop
  | done result => post result
  | step op next => allowed op ∧ ∀ answer, (next answer).Always allowed post

/-- Every operation that the program performs is `allowed`. -/
abbrev Performs (allowed : O → Prop) (program : Program O A α) : Prop :=
  program.Always allowed fun _ ↦ True

section Always

variable {allowed : O → Prop} {post : α → Prop} {final : β → Prop} {program : Program O A α}

section

variable (h : program.Always allowed post)
include h

theorem Always.bind {next : α → Program O A β}
    (hnext : ∀ result, post result → (next result).Always allowed final := by
      exact fun _ _ ↦ trivial) : (program >>= next).Always allowed final := by
  induction program with
  | done result => exact hnext result h
  | step op rest ih => exact ⟨h.1, fun answer ↦ ih answer (h.2 answer)⟩

theorem Always.weaken {post' : α → Prop} (hpost : ∀ result, post result → post' result) :
    program.Always allowed post' := by
  induction program with
  | done result => exact hpost result h
  | step op next ih => exact ⟨h.1, fun answer ↦ ih answer (h.2 answer)⟩

theorem Always.allow {allowed' : O → Prop} (hallowed : ∀ op, allowed op → allowed' op) :
    program.Always allowed' post := by
  induction program with
  | done result => exact h
  | step op next ih => exact ⟨hallowed op h.1, fun answer ↦ ih answer (h.2 answer)⟩

end

theorem always_onlyIf {condition : Prop} [Decidable condition] {program : Program O A Unit}
    (h : condition → program.Performs allowed) : (onlyIf condition program).Performs allowed := by
  unfold onlyIf
  split_ifs with hcondition
  · exact h hcondition
  · trivial

theorem always_forM (items : List α) {body : α → Program O A Unit}
    (h : ∀ item ∈ items, (body item).Performs allowed) : (items.forM body).Performs allowed := by
  induction items with
  | nil => trivial
  | cons item items ih =>
    refine (h item List.mem_cons_self).bind fun _ _ ↦ ih fun other hmem ↦ ?_
    exact h other (List.mem_cons_of_mem item hmem)

theorem always_embed {allowed : P → Prop} {rename : O → P} (program : Program O A α)
    (h : ∀ op, allowed (rename op)) : (program.embed rename).Performs allowed := by
  induction program with
  | done _ => trivial
  | step op next ih => exact ⟨h op, ih⟩

end Always

/-! ### Runs next to an environment -/

/-- What a run leaves: the result, the time and the state. -/
structure Outcome (α σ : Type) where
  result : α
  clock : ℕ
  state : σ

/-- Runs a program from a time and a state. Before the operation at time `clock` the environment
turns the state into `environment clock state`. -/
def run (exec : O → σ → A × σ) (environment : ℕ → σ → σ) :
    Program O A α → ℕ → σ → Outcome α σ
  | done result, clock, state => ⟨result, clock, state⟩
  | step op next, clock, state =>
    let reply := exec op (environment clock state)
    (next reply.1).run exec environment (clock + 1) reply.2

variable (exec : O → σ → A × σ) (environment : ℕ → σ → σ)

theorem run_step (op : O) (next : A → Program O A α) (clock : ℕ) (state : σ) :
    (step op next).run exec environment clock state =
      (next (exec op (environment clock state)).1).run exec environment (clock + 1)
        (exec op (environment clock state)).2 :=
  rfl

/-- A run of a `bind` is a run of the first program and then one of the second. -/
theorem run_bind (program : Program O A α) (next : α → Program O A β) (clock : ℕ) (state : σ) :
    (program >>= next).run exec environment clock state =
      let first := program.run exec environment clock state
      (next first.result).run exec environment first.clock first.state := by
  induction program generalizing clock state with
  | done result => rfl
  | step op _ ih => exact ih _ _ _

/-- A run depends on the environment only from its start on. -/
theorem run_congr {environment environment' : ℕ → σ → σ} (program : Program O A α) {clock : ℕ}
    (h : ∀ later, clock ≤ later → environment later = environment' later) (state : σ) :
    program.run exec environment clock state = program.run exec environment' clock state := by
  induction program generalizing clock state with
  | done result => rfl
  | step op next ih =>
    rw [run_step, run_step, h clock (Nat.le_refl clock)]
    exact ih _ (fun later hlater ↦ h later (Nat.le_of_succ_le hlater)) _

end Program

end Bhx.SharedMemory
