import Bhx.SharedMemory.Fallible

/-!
# Programs over an abstract state

A program seldom depends on the whole state it runs in. An abstraction keeps a part of it, and says
of each operation which answers and which new states it may lead to (`next`). `Meets` is what a
program does in such an abstraction: whatever is answered, every operation meets `guarantee` and the
result is in `post`. Since `next` is a relation, what the abstraction has dropped shows up as a
choice of answers. `Settles` is the same for a program that may fail, with one postcondition for the
results and one for the failures.

What a program does in the abstraction it does in every run next to an environment that does not
move the view (`Meets.run`).
-/

set_option autoImplicit false

namespace Bhx.SharedMemory

variable {O P A B ε α β τ : Type} {allowed : O → Prop} {keeps : τ → Prop}
  {next' : O → τ → A → τ → Prop} {rename : O → P} {final : β → τ → Prop} {υ : Type} (coarse : υ → τ)
  {σ : Type} {u : υ}
variable {environment : ℕ → σ → σ} {exec : O → σ → A × σ} (view : σ → τ) {s : σ}

/-- Every operation meets `guarantee` and the result is in `post`, whatever `next` allows. -/
def Meets (next : O → τ → A → τ → Prop) (guarantee : O → τ → Prop) (post : α → τ → Prop) :
    Program O A α → τ → Prop
  | .done result, v => post result v
  | .step op rest, v =>
    guarantee op v ∧ ∀ answer v', next op v answer v' → Meets next guarantee post (rest answer) v'

section Meets

variable {next : O → τ → A → τ → Prop} {guarantee guarantee' : O → τ → Prop}
  {post post' : α → τ → Prop} {program : Program O A α} {v : τ}

section

variable (h : Meets next guarantee post program v)
include h

theorem Meets.bind {rest : α → Program O A β}
    (hrest : ∀ result v', post result v' → Meets next guarantee final (rest result) v') :
    Meets next guarantee final (program >>= rest) v := by
  induction program generalizing v with
  | done result => exact hrest result v h
  | step op tail ih => exact ⟨h.1, fun answer v' hnext ↦ ih answer (h.2 answer v' hnext)⟩

theorem Meets.mono (hguar : ∀ op v, guarantee op v → guarantee' op v)
    (hpost : ∀ result v, post result v → post' result v) :
    Meets next guarantee' post' program v := by
  induction program generalizing v with
  | done result => exact hpost result v h
  | step op tail ih =>
    exact ⟨hguar op v h.1, fun answer v' hnext ↦ ih answer (h.2 answer v' hnext)⟩

/-- Two postconditions of a program, with the guarantee of the second. -/
theorem Meets.and (h' : Meets next guarantee' post' program v) :
    Meets next guarantee' (fun result v ↦ post result v ∧ post' result v) program v := by
  induction program generalizing v with
  | done result => exact ⟨h, h'⟩
  | step op tail ih =>
    exact ⟨h'.1, fun answer v' hnext ↦ ih answer (h.2 answer v' hnext) (h'.2 answer v' hnext)⟩

theorem Meets.restrict (hnext : ∀ op v answer v', next' op v answer v' → next op v answer v') :
    Meets next' guarantee post program v := by
  induction program generalizing v with
  | done result => exact h
  | step op tail ih =>
    exact ⟨h.1, fun answer v' hstep ↦ ih answer (h.2 answer v' (hnext op v answer v' hstep))⟩

end

/-- A program keeps what each of its operations keeps. -/
theorem meets_keeping (hprog : program.Performs allowed) (hop : ∀ op v, allowed op → keeps v →
      guarantee op v ∧ ∀ answer v', next op v answer v' → keeps v') (hv : keeps v) :
    Meets next guarantee (fun _ ↦ keeps) program v := by
  induction program generalizing v with
  | done result => exact hv
  | step op tail ih =>
    obtain ⟨hguar, hkept⟩ := hop op v hprog.1 hv
    exact ⟨hguar, fun answer v' hnext ↦ ih answer (hprog.2 answer) (hkept answer v' hnext)⟩

/-- What bounds the operations of a program may be added to its guarantee. -/
theorem Meets.only (h : Meets next guarantee post program v) (hprog : program.Performs allowed) :
    Meets next (fun op v ↦ guarantee op v ∧ allowed op) post program v := by
  induction program generalizing v with
  | done result => exact h
  | step op tail ih =>
    exact ⟨⟨h.1, hprog.1⟩, fun answer v' hnext ↦ ih answer (h.2 answer v' hnext) (hprog.2 answer)⟩

/-- What a program does in an abstraction it does in a finer one, as long as the finer one moves by
the steps of the first and keeps a property of its own. -/
theorem Meets.lift {next' : O → υ → A → υ → Prop} {guarantee' : O → υ → Prop} {keeps : υ → Prop}
    (hop : ∀ op u, keeps u → guarantee op (coarse u) → guarantee' op u ∧
      ∀ answer u', next' op u answer u' → keeps u' ∧ next op (coarse u) answer (coarse u'))
    (hu : keeps u) (h : Meets next guarantee post program (coarse u)) :
    Meets next' guarantee' (fun result u ↦ keeps u ∧ post result (coarse u)) program u := by
  induction program generalizing u with
  | done result => exact ⟨hu, h⟩
  | step op tail ih =>
    obtain ⟨hguar, hsteps⟩ := hop op u hu h.1
    refine ⟨hguar, fun answer u' hnext ↦ ?_⟩
    obtain ⟨hkept, hcoarse⟩ := hsteps answer u' hnext
    exact ih answer hkept (h.2 answer (coarse u') hcoarse)

theorem Meets.embed {next : P → τ → A → τ → Prop} {guarantee : P → τ → Prop}
    (h : Meets (fun op ↦ next (rename op)) (fun op ↦ guarantee (rename op)) post program v) :
    Meets next guarantee post (program.embed rename) v := by
  induction program generalizing v with
  | done result => exact h
  | step op tail ih => exact ⟨h.1, fun answer v' hnext ↦ ih answer (h.2 answer v' hnext)⟩

/-- What a program does alone it does as part of a larger one, when each step of the larger
abstraction is one of its own. -/
theorem Meets.within {next' : P → υ → B → υ → Prop} {guarantee' : P → υ → Prop} {read : B → A}
    (hguar : ∀ op u, guarantee op (coarse u) → guarantee' (rename op) u)
    (hnext : ∀ op u answer u', next' (rename op) u answer u' →
      next op (coarse u) (read answer) (coarse u'))
    (h : Meets next guarantee post program (coarse u)) :
    Meets next' guarantee' (fun result u ↦ post result (coarse u))
      (program.within rename read) u := by
  induction program generalizing u with
  | done result => exact h
  | step op tail ih =>
    refine ⟨hguar op u h.1, fun answer u' hstep ↦ ?_⟩
    exact ih (read answer) (h.2 _ _ (hnext op u answer u' hstep))

/-- What a program does in an abstraction it does in every run, next to an environment whose moves
are part of the steps. -/
theorem Meets.run_among (hexec : ∀ clock op s, next op (view s) (exec op (environment clock s)).1
      (view (exec op (environment clock s)).2)) (clock : ℕ)
    (h : Meets next guarantee post program (view s)) :
    post (program.run exec environment clock s).result
      (view (program.run exec environment clock s).state) := by
  induction program generalizing clock s with
  | done result => exact h
  | step op tail ih => exact ih _ (clock + 1) (h.2 _ _ (hexec clock op s))

/-- What a program does in an abstraction it does in every run, next to an environment that does not
move the view. -/
theorem Meets.run (hexec : ∀ op s, next op (view s) (exec op s).1 (view (exec op s).2))
    (henv : ∀ clock s, view (environment clock s) = view s) (clock : ℕ)
    (h : Meets next guarantee post program (view s)) :
    post (program.run exec environment clock s).result
      (view (program.run exec environment clock s).state) := by
  refine Meets.run_among view (fun clock op s ↦ ?_) clock h
  rw [← henv clock s]
  exact hexec op (environment clock s)

end Meets

/-! ### Programs that may fail -/

/-- What a program that may fail leaves: `post` for a result and `fail` for a failure. -/
def Settled (post : α → τ → Prop) (fail : ε → τ → Prop) : Except ε α → τ → Prop
  | .ok value => post value
  | .error failure => fail failure

theorem Settled.both {result : Except ε α} {v : τ}
    (h : Settled (fun _ ↦ keeps) (fun _ ↦ keeps) result v) : keeps v := by
  cases result with
  | ok value => exact h
  | error failure => exact h

/-- Every operation meets `guarantee`, a result is in `post` and a failure in `fail`. -/
def Settles (next : O → τ → A → τ → Prop) (guarantee : O → τ → Prop) (part : Fallible O A ε α)
    (post : α → τ → Prop) (fail : ε → τ → Prop) (v : τ) : Prop :=
  Meets next guarantee (Settled post fail) part.run v

/-- The same when nothing is asked of the operations. -/
abbrev Runs (next : O → τ → A → τ → Prop) (part : Fallible O A ε α) (post : α → τ → Prop)
    (fail : ε → τ → Prop) (v : τ) : Prop :=
  Settles next (fun _ _ ↦ True) part post fail v

section Settles

variable {next : O → τ → A → τ → Prop} {guarantee guarantee' : O → τ → Prop}
  {post post' : α → τ → Prop} {fail fail' : ε → τ → Prop} {part : Fallible O A ε α} {v : τ}

theorem settles_pure {value : α} (h : post value v) :
    Settles next guarantee (pure value : Fallible O A ε α) post fail v := h

theorem settles_throw {failure : ε} (h : fail failure v := by first | exact trivial | exact rfl) :
    Settles next guarantee (throw failure : Fallible O A ε α) post fail v := h

section

variable (h : Settles next guarantee part post fail v)
include h

theorem Settles.bind {rest : α → Fallible O A ε β}
    (hrest : ∀ value v', post value v' → Settles next guarantee (rest value) final fail v') :
    Settles next guarantee (part >>= rest) final fail v := by
  refine Meets.bind h fun result v' hres ↦ ?_
  cases result with
  | ok value => exact hrest value v' hres
  | error failure => exact hres

section

variable (hpost : ∀ value v', post value v' → post' value v')
include hpost

theorem Settles.mono (hfail : ∀ failure v', fail failure v' → fail' failure v') :
    Settles next guarantee part post' fail' v := by
  refine Meets.mono h (fun _ _ hop ↦ hop) fun result v' hres ↦ ?_
  cases result with
  | ok value => exact hpost value v' hres
  | error failure => exact hfail failure v' hres

theorem Settles.imp : Settles next guarantee part post' fail v :=
  h.mono hpost fun _ _ hfail ↦ hfail

theorem Settles.lax : Settles next guarantee part post' (fun _ _ ↦ True) v :=
  h.mono hpost fun _ _ _ ↦ trivial

end

theorem Settles.and (h' : Settles next guarantee' part post' fail' v) :
    Settles next guarantee' part (fun value v ↦ post value v ∧ post' value v)
      (fun failure v ↦ fail failure v ∧ fail' failure v) v := by
  refine (Meets.and h h').mono (fun _ _ hop ↦ hop) fun result v' hres ↦ ?_
  cases result with
  | ok value => exact hres
  | error failure => exact hres

theorem Settles.restrict (hnext : ∀ op v answer v', next' op v answer v' → next op v answer v') :
    Settles next' guarantee part post fail v :=
  Meets.restrict h hnext

end

theorem settles_step {op : O} {post : A → τ → Prop}
    (h : ∀ answer v', next op v answer v' → post answer v')
    (hop : guarantee op v := by exact trivial) :
    Settles next guarantee (ExceptT.lift (Program.perform op) : Fallible O A ε A) post fail v :=
  ⟨hop, h⟩

/-- A loop over a list. The property may depend on what is left of the list. -/
theorem settles_forM {body : β → Fallible O A ε Unit} (holds : List β → τ → Prop)
    (h : ∀ item items v, holds (item :: items) v →
      Settles next guarantee (body item) (fun _ ↦ holds items) fail v) (items : List β)
    (hv : holds items v) : Settles next guarantee (items.forM body) (fun _ ↦ holds []) fail v := by
  induction items generalizing v with
  | nil => exact hv
  | cons item items ih => exact (h item items v hv).bind fun _ v' hv' ↦ ih hv'

/-- A loop that carries a value. The property may depend on what is left of the list. -/
theorem settles_foldlM {body : β → α → Fallible O A ε β} (holds : List α → β → τ → Prop)
    (h : ∀ item items value v, holds (item :: items) value v →
      Settles next guarantee (body value item) (holds items) fail v)
    (items : List α) {value : β} (hv : holds items value v) :
    Settles next guarantee (items.foldlM body value) (holds []) fail v := by
  induction items generalizing value v with
  | nil => exact hv
  | cons item items ih => exact (h item items value v hv).bind fun value' v' hv' ↦ ih hv'

/-- A program keeps what each of its operations keeps, whether it fails or not. -/
theorem settles_keeping (hpart : part.Only allowed) (hop : ∀ op v, allowed op → keeps v →
      guarantee op v ∧ ∀ answer v', next op v answer v' → keeps v') (hv : keeps v) :
    Settles next guarantee part (fun _ ↦ keeps) (fun _ ↦ keeps) v := by
  refine (meets_keeping hpart hop hv).mono (fun _ _ h ↦ h) fun result v' hres ↦ ?_
  cases result with
  | ok value => exact hres
  | error failure => exact hres

theorem Settles.only (h : Settles next guarantee part post fail v) (hpart : part.Only allowed) :
    Settles next (fun op v ↦ guarantee op v ∧ allowed op) part post fail v :=
  Meets.only h hpart

theorem Settles.lift {next' : O → υ → A → υ → Prop} {guarantee' : O → υ → Prop} {keeps : υ → Prop}
    (hop : ∀ op u, keeps u → guarantee op (coarse u) → guarantee' op u ∧
      ∀ answer u', next' op u answer u' → keeps u' ∧ next op (coarse u) answer (coarse u'))
    (hu : keeps u) (h : Settles next guarantee part post fail (coarse u)) :
    Settles next' guarantee' part (fun value u ↦ keeps u ∧ post value (coarse u))
      (fun failure u ↦ keeps u ∧ fail failure (coarse u)) u := by
  refine (Meets.lift coarse hop hu h).mono (fun _ _ hop ↦ hop) fun result u' hres ↦ ?_
  cases result with
  | ok value => exact hres
  | error failure => exact hres

theorem Settles.run (hexec : ∀ op s, next op (view s) (exec op s).1 (view (exec op s).2))
    (henv : ∀ clock s, view (environment clock s) = view s) (clock : ℕ)
    (h : Settles next guarantee part post fail (view s)) :
    Settled post fail (part.run.run exec environment clock s).result
      (view (part.run.run exec environment clock s).state) :=
  Meets.run view hexec henv clock h

theorem Settles.embed {next : P → τ → A → τ → Prop} {guarantee : P → τ → Prop}
    (h : Settles (fun op ↦ next (rename op)) (fun op ↦ guarantee (rename op)) part post fail v) :
    Settles next guarantee (ExceptT.mk (part.run.embed rename)) post fail v :=
  Meets.embed h

end Settles

end Bhx.SharedMemory
