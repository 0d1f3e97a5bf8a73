import Bhx.SharedMemory.RelyGuarantee

/-!
# Programs that may fail

A fallible program stops with a result or with a failure, and a failure of a part ends the whole
(`Fallible`, the exception transformer over `Program`). `Succeeds` is `Ensures` for such a program
when it cannot fail: next to every environment that keeps to `rely` it stops with a result in
`post`. The rules are those of `Ensures`, with one for a loop that carries a value
(`succeeds_foldlM`). `Establishes` is the same for a program that may fail, with the postcondition
for the results only. `Fallible.Only` bounds the operations of a program whatever their answers, and
`Establishes.keeping` turns such a bound into an invariant.

`Program.within` makes a program part of a larger one, whose operations and answers contain those of
the part, and `Ensures.within` carries over what was ensured of the part alone.
-/

set_option autoImplicit false

namespace Bhx.SharedMemory

variable {O P A B ε α β σ τ : Type} {program : Program O A α} {rename : O → P} {rely : σ → σ → Prop}
  {post : α → σ → Prop} {allowed : O → Prop} {failure : ε} {op : O} {view : B → A}
  {guarantee : O → σ → Prop} {exec : O → σ → A × σ} {final holds : β → σ → Prop} {value : α}
  {state : σ} {allowed' : P → Prop}

/-- A program that stops with a result or fails. -/
abbrev Fallible (O A ε α : Type) := ExceptT ε (Program O A) α

/-- The program of one operation, which fails when the operation has no answer. -/
def Fallible.perform (failure : ε) (op : O) : Fallible O (Option A) ε A :=
  ExceptT.mk (Program.step op fun answer ↦ .done (answer.elim (.error failure) .ok))

/-- The program stops with a result in `post`, next to every environment that keeps to `rely`, and
every operation meets `guarantee`. -/
def Succeeds (exec : O → σ → A × σ) (rely : σ → σ → Prop) (guarantee : O → σ → Prop)
    (post : α → σ → Prop) (program : Fallible O A ε α) (state : σ) : Prop :=
  Ensures exec rely guarantee (fun result s ↦ ∃ value, result = .ok value ∧ post value s)
    program.run state

section Succeeds

variable {exec : O → σ → A × σ} {rely : σ → σ → Prop} {guarantee : O → σ → Prop}
  {post : α → σ → Prop} {program : Fallible O A ε α} {state : σ}

theorem succeeds_pure (h : post value state) :
    Succeeds exec rely guarantee post (pure value : Fallible O A ε α) state :=
  ⟨value, rfl, h⟩

theorem Succeeds.bind {next : α → Fallible O A ε β}
    (h : Succeeds exec rely guarantee post program state)
    (hnext : ∀ value s, post value s → Succeeds exec rely guarantee final (next value) s) :
    Succeeds exec rely guarantee final (program >>= next) state := by
  refine Ensures.bind h fun result s hres ↦ ?_
  obtain ⟨value, rfl, hvalue⟩ := hres
  exact hnext value s hvalue

theorem Succeeds.weaken {post' : α → σ → Prop} (h : Succeeds exec rely guarantee post program state)
    (hpost : ∀ value s, post value s → post' value s) :
    Succeeds exec rely guarantee post' program state := by
  refine Ensures.weaken h fun result s hres ↦ ?_
  obtain ⟨value, rfl, hvalue⟩ := hres
  exact ⟨value, rfl, hpost value s hvalue⟩

theorem succeeds_foldlM {advance : β → α → β} {body : β → α → Fallible O A ε β}
    (h : ∀ value item s, holds value s →
      Succeeds exec rely guarantee (fun value' s' ↦ value' = advance value item ∧ holds value' s')
        (body value item) s) (items : List α) {value : β} (hstate : holds value state) :
    Succeeds exec rely guarantee
      (fun value' s' ↦ value' = items.foldl advance value ∧ holds value' s')
      (items.foldlM body value) state := by
  induction items generalizing value state with
  | nil => exact succeeds_pure ⟨rfl, hstate⟩
  | cons item items ih =>
    refine (h value item state hstate).bind fun value' s hs ↦ ?_
    obtain ⟨rfl, hholds⟩ := hs
    exact ih hholds

/-- An operation that the environment leaves alone and that has an answer. -/
theorem succeeds_perform {exec : O → σ → Option A × σ} {post : A → σ → Prop}
    (h : ∀ s, rely state s → guarantee op s ∧
      ∃ answer, (exec op s).1 = some answer ∧ post answer (exec op s).2) :
    Succeeds exec rely guarantee post (Fallible.perform failure op) state := by
  intro s hs
  obtain ⟨hop, answer, hanswer, hpost⟩ := h s hs
  refine ⟨hop, answer, ?_, hpost⟩
  rw [hanswer]
  rfl

end Succeeds

/-! ### Programs that may stop early -/

/-- From `pre` every operation meets `guarantee`, next to every environment that keeps to `rely`,
and when the program stops with a result it is in `post`. -/
def Establishes (exec : O → σ → A × σ) (rely : σ → σ → Prop) (guarantee : O → σ → Prop)
    (pre : σ → Prop) (program : Fallible O A ε α) (post : α → σ → Prop) : Prop :=
  ∀ s, pre s → Ensures exec rely guarantee
    (fun result s ↦ ∀ value, result = .ok value → post value s)
    program.run s

/-- Whatever the answers are, every operation of the program is `allowed`. -/
def Fallible.Only (allowed : O → Prop) (program : Fallible O A ε α) : Prop :=
  program.run.Always allowed fun _ ↦ True

/-- A program keeps what each of its operations keeps after a step of the environment, whether it
fails or not. -/
theorem Ensures.preserving {keeps : σ → Prop} (hprog : program.Performs allowed)
    (hop : ∀ op s s', allowed op → keeps s → rely s s' → guarantee op s' ∧ keeps (exec op s').2)
    (hstate : keeps state) : Ensures exec rely guarantee (fun _ ↦ keeps) program state := by
  induction program generalizing state with
  | done result => exact hstate
  | step op next ih =>
    intro state' hstep
    obtain ⟨hguar, hkept⟩ := hop op state state' hprog.1 hstate hstep
    exact ⟨hguar, ih _ (hprog.2 _) hkept⟩

section Establishes

variable {exec : O → σ → A × σ} {rely : σ → σ → Prop} {guarantee : O → σ → Prop}
  {pre pre' : σ → Prop} {post post' : α → σ → Prop} {program : Fallible O A ε α}
  {allowed : O → Prop}

theorem establishes_pure (h : ∀ s, pre s → post value s) :
    Establishes exec rely guarantee pre (pure value : Fallible O A ε α) post :=
  fun s hs _ hvalue ↦ Except.ok.inj hvalue ▸ h s hs

theorem establishes_throw {failure : ε} :
    Establishes exec rely guarantee pre (throw failure : Fallible O A ε α) post :=
  fun _ _ _ hvalue ↦ nomatch hvalue

theorem Establishes.bind {next : α → Fallible O A ε β}
    (h : Establishes exec rely guarantee pre program post)
    (hnext : ∀ value, Establishes exec rely guarantee (post value) (next value) final) :
    Establishes exec rely guarantee pre (program >>= next) final := by
  intro s hs
  refine Ensures.bind (h s hs) fun result s' hres ↦ ?_
  cases result with
  | ok value => exact hnext value s' (hres value rfl)
  | error failure => exact fun _ hvalue ↦ nomatch hvalue

theorem Establishes.map {f : α → β}
    (h : Establishes exec rely guarantee pre program fun value ↦ final (f value)) :
    Establishes exec rely guarantee pre (program >>= fun value ↦ pure (f value)) final :=
  h.bind fun _ ↦ establishes_pure fun _ hs ↦ hs

theorem Establishes.mono (h : Establishes exec rely guarantee pre program post)
    (hpre : ∀ s, pre' s → pre s) (hpost : ∀ value s, post value s → post' value s) :
    Establishes exec rely guarantee pre' program post' :=
  fun s hs ↦ (h s (hpre s hs)).weaken fun _ s' hres value hvalue ↦
    hpost value s' (hres value hvalue)

theorem establishes_step {post : A → σ → Prop}
    (h : ∀ s s', pre s → rely s s' → guarantee op s' ∧ post (exec op s').1 (exec op s').2) :
    Establishes exec rely guarantee pre (ExceptT.lift (Program.perform op) : Fallible O A ε A)
      post := by
  intro s hs s' hstep
  obtain ⟨hop, hpost⟩ := h s s' hs hstep
  exact ⟨hop, fun _ hvalue ↦ Except.ok.inj hvalue ▸ hpost⟩

/-- A single operation that fails when it has no answer. -/
theorem establishes_perform {exec : O → σ → Option A × σ} {post : A → σ → Prop}
    (h : ∀ s s', pre s → rely s s' → guarantee op s' ∧
      ∀ answer, (exec op s').1 = some answer → post answer (exec op s').2) :
    Establishes exec rely guarantee pre (Fallible.perform failure op) post := by
  intro s hs s' hstep
  obtain ⟨hop, hpost⟩ := h s s' hs hstep
  refine ⟨hop, ?_⟩
  cases hanswer : (exec op s').1 with
  | none => exact fun _ hvalue ↦ nomatch hvalue
  | some answer => exact fun _ hvalue ↦ Except.ok.inj hvalue ▸ hpost answer hanswer

theorem establishes_foldlM {body : β → α → Fallible O A ε β} {items : List α}
    (h : ∀ value, ∀ item ∈ items,
      Establishes exec rely guarantee (holds value) (body value item) holds) (value : β) :
    Establishes exec rely guarantee (holds value) (items.foldlM body value) holds := by
  induction items generalizing value with
  | nil => exact establishes_pure fun _ hs ↦ hs
  | cons item items ih =>
    refine (h value item List.mem_cons_self).bind fun value' ↦ ?_
    exact ih (fun value item hitem ↦ h value item (List.mem_cons_of_mem _ hitem)) value'

/-- A program keeps what each of its operations keeps after a step of the environment. -/
theorem Establishes.keeping (hprog : program.Only allowed)
    (hop : ∀ op s s', allowed op → pre s → rely s s' → guarantee op s' ∧ pre (exec op s').2) :
    Establishes exec rely guarantee pre program fun _ ↦ pre :=
  fun _ hs ↦ (Ensures.preserving hprog hop hs).weaken fun _ _ h _ _ ↦ h

end Establishes

section Only

variable {allowed allowed' : O → Prop} {program : Fallible O A ε α}

theorem only_pure (value : α) : (pure value : Fallible O A ε α).Only allowed := trivial

theorem only_throw {failure : ε} : (throw failure : Fallible O A ε α).Only allowed := trivial

theorem Fallible.Only.bind {next : α → Fallible O A ε β} (h : program.Only allowed)
    (hnext : ∀ value, (next value).Only allowed) :
    Fallible.Only allowed (program >>= next : Fallible O A ε β) := by
  refine Program.Always.bind h fun result _ ↦ ?_
  cases result with
  | ok value => exact hnext value
  | error failure => trivial

theorem Fallible.Only.map {f : α → β} (h : program.Only allowed) :
    Fallible.Only allowed (program >>= fun value ↦ pure (f value) : Fallible O A ε β) :=
  h.bind fun value ↦ only_pure (f value)

theorem Fallible.Only.allow (h : program.Only allowed) (hallowed : ∀ op, allowed op → allowed' op) :
    program.Only allowed' :=
  Program.Always.allow h hallowed

theorem only_step (h : allowed op := by first | exact trivial | exact rfl) :
    Fallible.Only allowed (ExceptT.lift (Program.perform op) : Fallible O A ε A) :=
  ⟨h, fun _ ↦ trivial⟩

theorem only_perform (h : allowed op := by first | exact trivial | exact rfl) :
    (Fallible.perform failure op : Fallible O (Option A) ε A).Only allowed :=
  ⟨h, fun _ ↦ trivial⟩

theorem only_forM (items : List β) {body : β → Fallible O A ε Unit}
    (h : ∀ item, (body item).Only allowed) : (items.forM body).Only allowed := by
  induction items with
  | nil => trivial
  | cons item items ih => exact (h item).bind fun _ ↦ ih

theorem only_foldlM (items : List α) {body : β → α → Fallible O A ε β}
    (h : ∀ value item, (body value item).Only allowed) (value : β) :
    (items.foldlM body value).Only allowed := by
  induction items generalizing value with
  | nil => trivial
  | cons item items ih => exact (h value item).bind fun value' ↦ ih value'

end Only

/-! ### A program within a larger one -/

/-- The program as part of one with more operations and other answers. -/
def Program.within (rename : O → P) (view : B → A) : Program O A α → Program P B α
  | done result => done result
  | step op next => step (rename op) fun answer ↦ (next (view answer)).within rename view

theorem Program.within_id (program : Program O A α) : program.within id id = program := by
  induction program with
  | done result => rfl
  | step op next ih =>
    exact congrArg _ (funext ih)

theorem Program.Always.within {post : α → Prop} (h : program.Always allowed post)
    (hallowed : ∀ op, allowed op → allowed' (rename op)) :
    (program.within rename view).Always allowed' post := by
  induction program with
  | done result => exact h
  | step op next ih => exact ⟨hallowed op h.1, fun answer ↦ ih _ (h.2 _)⟩

theorem Program.always_within {allowed : P → Prop} (view : B → A) (program : Program O A α)
    (h : ∀ op, allowed (rename op)) : (program.within rename view).Performs allowed := by
  induction program with
  | done _ => trivial
  | step op next ih => exact ⟨h op, fun answer ↦ ih _⟩

theorem Program.Always.embed {post : α → Prop} (h : program.Always allowed post)
    (hallowed : ∀ op, allowed op → allowed' (rename op)) :
    (program.embed rename).Always allowed' post := by
  induction program with
  | done result => exact h
  | step op next ih => exact ⟨hallowed op h.1, fun answer ↦ ih _ (h.2 _)⟩

theorem Ensures.embed {exec : P → σ → A × σ} {guarantee : P → σ → Prop}
    (h : Ensures (fun op ↦ exec (rename op)) rely (fun op ↦ guarantee (rename op)) post program
      state) : Ensures exec rely guarantee post (program.embed rename) state := by
  induction program generalizing state with
  | done result => exact h
  | step op next ih => exact fun state' hstep ↦ ⟨(h state' hstep).1, ih _ (h state' hstep).2⟩

theorem Ensures.viewed {exec : P → σ → B × σ} {guarantee : P → σ → Prop}
    (h : Ensures (fun op s ↦ (view (exec (rename op) s).1, (exec (rename op) s).2)) rely
      (fun op ↦ guarantee (rename op)) post program state) :
    Ensures exec rely guarantee post (program.within rename view) state := by
  induction program generalizing state with
  | done result => exact h
  | step op next ih => exact fun state' hstep ↦ ⟨(h state' hstep).1, ih _ (h state' hstep).2⟩

/-- What is ensured of a program alone is ensured of it within a larger system, where its operations
act on a part of the state. -/
theorem Ensures.within {exec' : P → τ → B × τ} {rely' : τ → τ → Prop} {guarantee' : P → τ → Prop}
    (part : τ → σ) (hrely : ∀ s s', rely' s s' → rely (part s) (part s'))
    (hexec : ∀ op s, view (exec' (rename op) s).1 = (exec op (part s)).1 ∧
      part (exec' (rename op) s).2 = (exec op (part s)).2)
    (hguar : ∀ op s, guarantee op (part s) → guarantee' (rename op) s) {state : τ}
    (h : Ensures exec rely guarantee post program (part state)) :
    Ensures exec' rely' guarantee' (fun result s ↦ post result (part s))
      (program.within rename view) state := by
  induction program generalizing state with
  | done result => exact h
  | step op next ih =>
    intro state' hstep
    obtain ⟨hop, hrest⟩ := h (part state') (hrely state state' hstep)
    refine ⟨hguar op state' hop, ?_⟩
    obtain ⟨hanswer, hstate⟩ := hexec op state'
    rw [← hstate, ← hanswer] at hrest
    exact ih _ hrest

end Bhx.SharedMemory
