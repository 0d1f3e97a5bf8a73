import Bhx.SharedMemory.Program

/-!
# Rely/guarantee reasoning about programs

`Ensures exec rely guarantee post program state` says: whatever an environment that keeps to the
relation `rely` does before each operation, every operation of `program` from `state` on meets
`guarantee` in the state it is performed in, and the program stops with a result and a state in
`post`. It is a recursion over the program, so a rule for a program constructor is an equation and a
rule for a loop is an induction over the recursion that builds the loop.

The rules are consequence (`Ensures.mono`), sequencing (`Ensures.bind`), conjunction (`Ensures.and`)
and two invariant rules. A property that the environment keeps and that every guaranteed operation
keeps holds when the program stops (`Ensures.withInvariant`), and the environment's promises may
depend on it (`Ensures.assuming`). `Ensures.run` is adequacy: `post` holds of the outcome of every
run next to an environment that keeps to `rely`.
-/

set_option autoImplicit false

namespace Bhx.SharedMemory

variable {O A α β σ : Type} {next : α → Program O A β} {final : β → σ → Prop} {allowed : O → Prop}

/-- Every operation of the program meets `guarantee` and the program stops in `post`, next to
every environment that keeps to `rely`. -/
def Ensures (exec : O → σ → A × σ) (rely : σ → σ → Prop) (guarantee : O → σ → Prop)
    (post : α → σ → Prop) : Program O A α → σ → Prop
  | .done result, state => post result state
  | .step op next, state => ∀ state', rely state state' →
    guarantee op state' ∧
      Ensures exec rely guarantee post (next (exec op state').1) (exec op state').2

/-- No step that is relied on takes the property away. -/
abbrev Stable (rely : σ → σ → Prop) (keeps : σ → Prop) : Prop :=
  ∀ s s', rely s s' → keeps s → keeps s'

section Rules

variable {exec : O → σ → A × σ} {rely rely' : σ → σ → Prop} {guarantee guarantee' : O → σ → Prop}
  {post post' : α → σ → Prop} {program : Program O A α} {state : σ}

theorem Stable.and {keeps keeps' : σ → Prop} (h : Stable rely keeps) (h' : Stable rely keeps') :
    Stable rely fun s ↦ keeps s ∧ keeps' s :=
  fun s s' hstep hs ↦ ⟨h s s' hstep hs.1, h' s s' hstep hs.2⟩

/-- Steps that keep an invariant keep it next to a stable property. -/
theorem Stable.withInv {inv keeps : σ → Prop} (h : Stable rely keeps) :
    Stable (fun s s' ↦ rely s s' ∧ inv s') fun s ↦ inv s ∧ keeps s :=
  fun s s' hstep hs ↦ ⟨hstep.2, h s s' hstep.1 hs.2⟩

section

variable (h : Ensures exec rely guarantee post program state)
include h

/-- Consequence: less interference, weaker guarantee, weaker postcondition. -/
theorem Ensures.mono (hrely : ∀ s s', rely' s s' → rely s s')
    (hguar : ∀ op s, guarantee op s → guarantee' op s)
    (hpost : ∀ result s, post result s → post' result s) :
    Ensures exec rely' guarantee' post' program state := by
  induction program generalizing state with
  | done result => exact hpost result state h
  | step op next ih =>
    intro state' hstep
    obtain ⟨hop, hrest⟩ := h state' (hrely _ _ hstep)
    exact ⟨hguar op state' hop, ih _ hrest⟩

theorem Ensures.imp (hguar : ∀ op s, guarantee op s → guarantee' op s)
    (hpost : ∀ result s, post result s → post' result s) :
    Ensures exec rely guarantee' post' program state :=
  h.mono (fun _ _ hstep ↦ hstep) hguar hpost

theorem Ensures.weaken (hpost : ∀ result s, post result s → post' result s) :
    Ensures exec rely guarantee post' program state :=
  h.imp (fun _ _ hop ↦ hop) hpost

theorem Ensures.restrict (hrely : ∀ s s', rely' s s' → rely s s') :
    Ensures exec rely' guarantee post program state :=
  h.mono hrely (fun _ _ hop ↦ hop) fun _ _ hpost ↦ hpost

theorem Ensures.bind
    (hnext : ∀ result s, post result s → Ensures exec rely guarantee final (next result) s) :
    Ensures exec rely guarantee final (program >>= next) state := by
  induction program generalizing state with
  | done result => exact hnext result state h
  | step op rest ih =>
    intro state' hstep
    obtain ⟨hop, hrest⟩ := h state' hstep
    exact ⟨hop, ih _ hrest⟩

theorem Ensures.and (h' : Ensures exec rely guarantee' post' program state) :
    Ensures exec rely (fun op s ↦ guarantee op s ∧ guarantee' op s)
      (fun result s ↦ post result s ∧ post' result s) program state := by
  induction program generalizing state with
  | done result => exact ⟨h, h'⟩
  | step op next ih =>
    intro state' hstep
    obtain ⟨hop, hrest⟩ := h state' hstep
    obtain ⟨hop', hrest'⟩ := h' state' hstep
    exact ⟨⟨hop, hop'⟩, ih _ hrest hrest'⟩

end

/-- A property that the environment keeps while it holds, and that every guaranteed operation keeps,
may be assumed of the states the environment acts in, and holds when the program stops. -/
theorem Ensures.assuming {invariant : σ → Prop}
    (h : Ensures exec (fun s s' ↦ invariant s ∧ rely s s') guarantee post program state)
    (hstart : invariant state) (hrely : ∀ s s', invariant s → rely s s' → invariant s')
    (hop : ∀ op s, invariant s → guarantee op s → invariant (exec op s).2) :
    Ensures exec rely (fun op s ↦ guarantee op s ∧ invariant s)
      (fun result s ↦ post result s ∧ invariant s) program state := by
  induction program generalizing state with
  | done result => exact ⟨h, hstart⟩
  | step op next ih =>
    intro state' hstep
    obtain ⟨hguar, hrest⟩ := h state' ⟨hstart, hstep⟩
    have hinvariant := hrely _ _ hstart hstep
    exact ⟨⟨hguar, hinvariant⟩, ih _ hrest (hop op state' hinvariant hguar)⟩

/-- A property that the environment keeps and that every guaranteed operation keeps holds when the
program stops. -/
theorem Ensures.withInvariant (h : Ensures exec rely guarantee post program state)
    (invariant : σ → Prop) (hstart : invariant state)
    (hrely : ∀ s s', invariant s → rely s s' → invariant s')
    (hop : ∀ op s, invariant s → guarantee op s → invariant (exec op s).2) :
    Ensures exec rely (fun op s ↦ guarantee op s ∧ invariant s)
      (fun result s ↦ post result s ∧ invariant s) program state :=
  (h.restrict fun _ _ hstep ↦ hstep.2).assuming hstart hrely hop

/-- Every program stops. -/
theorem ensures_true (program : Program O A α) (state : σ) :
    Ensures exec rely (fun _ _ ↦ True) (fun _ _ ↦ True) program state := by
  induction program generalizing state with
  | done _ => trivial
  | step op next ih => exact fun _ _ ↦ ⟨trivial, ih _ _⟩

theorem Ensures.ofAlways {post : α → Prop} (h : program.Always allowed post) (state : σ) :
    Ensures exec rely (fun op _ ↦ allowed op) (fun result _ ↦ post result) program state := by
  induction program generalizing state with
  | done result => exact h
  | step op next ih => exact fun _ _ ↦ ⟨h.1, ih _ (h.2 _) _⟩

/-- A program keeps what the environment and each of its operations keep. -/
theorem Ensures.keeping {result : α → Prop} (keeps : σ → Prop)
    (hprog : program.Always allowed result) (hstable : ∀ s s', rely s s' → keeps s → keeps s')
    (hop : ∀ op s, allowed op → keeps s → keeps (exec op s).2) (h : keeps state) :
    Ensures exec rely (fun op s ↦ allowed op ∧ keeps s) (fun value s ↦ result value ∧ keeps s)
      program state :=
  (Ensures.ofAlways hprog state).withInvariant keeps h
    (fun s s' hs hstep ↦ hstable s s' hstep hs) fun op s hs hallowed ↦ hop op s hallowed hs

/-- A loop over a list keeps what each of its rounds keeps. -/
theorem ensures_forM (items : List α) {body : α → Program O A Unit} {keeps : σ → Prop}
    (h : ∀ item ∈ items, ∀ s, keeps s →
      Ensures exec rely guarantee (fun _ s ↦ keeps s) (body item) s) (hstate : keeps state) :
    Ensures exec rely guarantee (fun _ s ↦ keeps s) (items.forM body) state := by
  induction items generalizing state with
  | nil => exact hstate
  | cons item items ih =>
    refine (h item List.mem_cons_self state hstate).bind fun _ s hs ↦ ?_
    exact ih (fun other hmem ↦ h other (List.mem_cons_of_mem item hmem)) hs

section

variable (h : Ensures exec rely guarantee final (program >>= next) state)
include h

/-- What is guaranteed of a sequence is guaranteed of its first part. -/
theorem Ensures.first : Ensures exec rely guarantee (fun _ _ ↦ True) program state := by
  induction program generalizing state with
  | done result => trivial
  | step op rest ih => exact fun state' hstep ↦ ⟨(h state' hstep).1, ih _ (h state' hstep).2⟩

/-- What is ensured of a sequence is ensured of its second part after every run of the first. -/
theorem Ensures.after (environment : ℕ → σ → σ) (henv : ∀ clock s, rely s (environment clock s))
    (clock : ℕ) :
    Ensures exec rely guarantee final (next (program.run exec environment clock state).result)
      (program.run exec environment clock state).state := by
  induction program generalizing clock state with
  | done result => exact h
  | step op rest ih => exact ih _ (h _ (henv clock state)).2 (clock + 1)

end

/-- Adequacy: the outcome of a run next to an environment that keeps to `rely` is in `post`. -/
theorem Ensures.run (h : Ensures exec rely guarantee post program state) {environment : ℕ → σ → σ}
    (henv : ∀ clock s, rely s (environment clock s)) (clock : ℕ) :
    post (program.run exec environment clock state).result
      (program.run exec environment clock state).state := by
  rw [← bind_pure program] at h
  exact h.after environment henv clock

end Rules

end Bhx.SharedMemory
