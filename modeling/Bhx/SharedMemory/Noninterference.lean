import Bhx.SharedMemory.Restart

/-!
# Two runs that differ in a hidden part

Some operations and some acts from outside are hidden: they concern a part of the memory that an
observer does not see. What the observer sees of a run is the memory up to `agree` and, of the
schedule, the moves that are not hidden (`visible`). The number of turns that a core spends on
hidden operations may differ between two runs; nothing the observer sees may.

A program is `Indifferent` when the answers of its hidden operations do not reach its other
operations or its result. Its `strip` leaves the hidden operations out, and two programs at
different points of a hidden stretch have the same one. When hidden operations and acts change
nothing that is seen and the others depend on nothing that is not (`Separates`), two runs with the
same visible moves from alike configurations end in alike configurations (`Alike.play`).

Scope. The time that hidden work takes is not seen: the schedules are compared by their visible
moves only.
-/

set_option autoImplicit false

namespace Bhx.SharedMemory

open Function Program

variable {post : Unit → Prop} {condition : Prop}

/-! ### Programs without their hidden operations -/

variable {O A : Type} {proper : O → Prop}

namespace Program

variable {α β : Type} (hidden : O → Bool) (fallback : A) {program : Program O A Unit} {op : O}
  {body : α → Program O A Unit}
variable {items : List α}

/-- The program with its hidden operations left out, each as if answered by `fallback`. -/
def strip : Program O A α → Program O A α
  | done result => done result
  | step op next =>
    if hidden op then (next fallback).strip else step op fun answer ↦ (next answer).strip

/-- The answers of hidden operations do not matter to the rest. -/
def Indifferent : Program O A α → Prop
  | done _ => True
  | step op next =>
    (hidden op = true → ∀ answer, (next answer).strip hidden fallback =
      (next fallback).strip hidden fallback) ∧
      ∀ answer, (next answer).Indifferent

variable {hidden fallback}

theorem strip_of_hidden {next : A → Program O A α} (h : hidden op = true) :
    (step op next).strip hidden fallback = (next fallback).strip hidden fallback :=
  if_pos h

theorem strip_of_visible {next : A → Program O A α} (h : hidden op = false) :
    (step op next).strip hidden fallback =
      step op fun answer ↦ (next answer).strip hidden fallback := by
  rw [strip, h]
  exact if_neg Bool.false_ne_true

theorem Indifferent.strip_next {next : A → Program O A α}
    (h : (step op next).Indifferent hidden fallback) (hop : hidden op = true) (answer : A) :
    (next answer).strip hidden fallback = (step op next).strip hidden fallback :=
  (h.1 hop answer).trans (strip_of_hidden hop).symm

theorem strip_bind (program : Program O A α) (next : α → Program O A β) :
    (program >>= next).strip hidden fallback =
      program.strip hidden fallback >>= fun result ↦ (next result).strip hidden fallback := by
  induction program with
  | done result => rfl
  | step op rest ih =>
    rw [step_bind]
    cases hop : hidden op with
    | true => rw [strip_of_hidden hop, strip_of_hidden hop, ih]
    | false => rw [strip_of_visible hop, strip_of_visible hop, step_bind, funext ih]

theorem Indifferent.bind {program : Program O A α} {next : α → Program O A β}
    (h : program.Indifferent hidden fallback)
    (hnext : ∀ result, (next result).Indifferent hidden fallback) :
    (program >>= next).Indifferent hidden fallback := by
  induction program with
  | done result => exact hnext result
  | step op rest ih =>
    refine ⟨fun hop answer ↦ ?_, fun answer ↦ ih answer (h.2 answer)⟩
    change (rest answer >>= next).strip hidden fallback =
      (rest fallback >>= next).strip hidden fallback
    rw [strip_bind, strip_bind, h.1 hop answer]

/-- A program of hidden operations with nothing to report leaves no trace. -/
theorem strip_of_always_hidden (h : program.Always (fun op ↦ hidden op = true) post) :
    program.strip hidden fallback = done () := by
  induction program with
  | done result => rfl
  | step op next ih => rw [strip_of_hidden h.1, ih fallback (h.2 fallback)]

theorem indifferent_of_always_hidden (h : program.Always (fun op ↦ hidden op = true) post) :
    program.Indifferent hidden fallback := by
  induction program with
  | done result => trivial
  | step op next ih =>
    refine ⟨fun _ answer ↦ ?_, fun answer ↦ ih answer (h.2 answer)⟩
    rw [strip_of_always_hidden (h.2 answer), strip_of_always_hidden (h.2 fallback)]

theorem indifferent_of_always_visible {program : Program O A α} {post : α → Prop}
    (h : program.Always (fun op ↦ hidden op = false) post) :
    program.Indifferent hidden fallback := by
  induction program with
  | done result => trivial
  | step op next ih =>
    exact ⟨fun hop ↦ absurd (h.1.symm.trans hop) Bool.false_ne_true,
      fun answer ↦ ih answer (h.2 answer)⟩

theorem indifferent_forM (h : ∀ item ∈ items, (body item).Indifferent hidden fallback) :
    (items.forM body).Indifferent hidden fallback := by
  induction items with
  | nil => trivial
  | cons item items ih =>
    exact (h item List.mem_cons_self).bind fun _ ↦
      ih fun other hmem ↦ h other (List.mem_cons_of_mem item hmem)

theorem indifferent_onlyIf [Decidable condition]
    (h : condition → program.Indifferent hidden fallback) :
    (onlyIf condition program).Indifferent hidden fallback := by
  unfold onlyIf
  split_ifs with hcondition
  · exact h hcondition
  · trivial

/-- The program performs proper operations only and is indifferent. -/
structure Tame (proper : O → Prop) (hidden : O → Bool) (fallback : A) (program : Program O A α) :
    Prop where
  proper : program.Always proper fun _ ↦ True
  indifferent : program.Indifferent hidden fallback

theorem tame_done {proper : O → Prop} {result : α} :
    (done result : Program O A α).Tame proper hidden fallback :=
  ⟨trivial, trivial⟩

theorem Tame.bind {program : Program O A α} {next : α → Program O A β}
    (h : program.Tame proper hidden fallback)
    (hnext : ∀ result, (next result).Tame proper hidden fallback) :
    (program >>= next).Tame proper hidden fallback :=
  ⟨h.proper.bind fun result _ ↦ (hnext result).proper,
    h.indifferent.bind fun result ↦ (hnext result).indifferent⟩

theorem tame_step {next : A → Program O A α} (hproper : proper op) (hvisible : hidden op = false)
    (hnext : ∀ answer, (next answer).Tame proper hidden fallback) :
    (step op next).Tame proper hidden fallback :=
  ⟨⟨hproper, fun answer ↦ (hnext answer).proper⟩,
    ⟨fun hop ↦ absurd (hvisible.symm.trans hop) Bool.false_ne_true,
      fun answer ↦ (hnext answer).indifferent⟩⟩

theorem tame_forM (h : ∀ item ∈ items, (body item).Tame proper hidden fallback) :
    (items.forM body).Tame proper hidden fallback :=
  ⟨always_forM items fun item hmem ↦ (h item hmem).proper,
    indifferent_forM fun item hmem ↦ (h item hmem).indifferent⟩

theorem tame_onlyIf [Decidable condition] (h : condition → program.Tame proper hidden fallback) :
    (onlyIf condition program).Tame proper hidden fallback :=
  ⟨always_onlyIf fun hcondition ↦ (h hcondition).proper,
    indifferent_onlyIf fun hcondition ↦ (h hcondition).indifferent⟩

theorem Tame.next {next : A → Program O A α} (h : (step op next).Tame proper hidden fallback)
    (answer : A) : (next answer).Tame proper hidden fallback :=
  ⟨h.proper.2 answer, h.indifferent.2 answer⟩

end Program

/-! ### Two runs -/

section Runs

variable {ι E σ : Type} {L : ι → Type} {mover : ι} {move : Move ι E} {moves : List (Move ι E)}

/-- Of the proper operations and the acts, those that are hidden change nothing that is seen, and
the others depend on nothing that is not. -/
structure Separates (cores : Cores ι O A E σ L) (proper : O → Prop) (hidden : O → Bool)
    (hiddenAct : E → Bool) (fallback : A) (agree : σ → σ → Prop) : Prop where
  symm : ∀ s s', agree s s' → agree s' s
  hidden_op : ∀ op s s', proper op → hidden op = true → agree s s' →
    agree (cores.exec op s).2 s'
  visible_op : ∀ op s s', proper op → hidden op = false → agree s s' →
    (cores.exec op s).1 = (cores.exec op s').1 ∧ agree (cores.exec op s).2 (cores.exec op s').2
  hidden_act : ∀ event s s', hiddenAct event = true → agree s s' → agree (cores.act event s) s'
  visible_act : ∀ event s s', hiddenAct event = false → agree s s' →
    agree (cores.act event s) (cores.act event s')
  loop : ∀ core result, (cores.loop core result).Tame proper hidden fallback

/-- The memories agree and each core stands at the same point up to hidden operations. -/
structure Alike (proper : O → Prop) (hidden : O → Bool) (fallback : A) (agree : σ → σ → Prop)
    (c c' : Config ι O A E σ L) : Prop where
  memory : agree c.scene.memory c'.scene.memory
  left : ∀ core, (c.rest core).Tame proper hidden fallback
  right : ∀ core, (c'.rest core).Tame proper hidden fallback
  strip_eq : ∀ core,
    (c.rest core).strip hidden fallback = (c'.rest core).strip hidden fallback

section Moves

variable (hidden : O → Bool) (hiddenAct : E → Bool)

/-- The move is a hidden operation of a core or a hidden act. -/
def Move.isHidden (c : Config ι O A E σ L) : Move ι E → Bool
  | .turn (.core core) => (c.rest core).nextOp.any hidden
  | .turn (.act event) => hiddenAct event
  | .restart => false

variable [DecidableEq ι] (cores : Cores ι O A E σ L) (core : ι) (entry : L core)

/-- The moves of a play that are not hidden. -/
def Cores.visible (c : Config ι O A E σ L) : List (Move ι E) → List (Move ι E)
  | [] => []
  | move :: moves =>
    if move.isHidden hidden hiddenAct c then
      Cores.visible (cores.move core entry c move) moves
    else
      move :: Cores.visible (cores.move core entry c move) moves

end Moves

variable {hidden : O → Bool} {hiddenAct : E → Bool} {fallback : A} {agree : σ → σ → Prop}
  {cores : Cores ι O A E σ L} {c c' : Config ι O A E σ L}

section

variable (h : Alike proper hidden fallback agree c c')
include h

theorem Alike.symm (hsymm : ∀ s s', agree s s' → agree s' s) :
    Alike proper hidden fallback agree c' c :=
  ⟨hsymm _ _ h.memory, h.right, h.left, fun core ↦ (h.strip_eq core).symm⟩

/-- Two configurations of which a core is at the same visible operation. -/
theorem Alike.step_eq {op : O} {next : A → Program O A (L mover)}
    (hrest : c.rest mover = .step op next) (hop : hidden op = false)
    (hmove : Move.isHidden hidden hiddenAct c' (.turn (.core mover)) = false) :
    ∃ next', c'.rest mover = .step op next' ∧ ∀ answer,
      (next answer).strip hidden fallback = (next' answer).strip hidden fallback := by
  have hstrip := h.strip_eq mover
  rw [hrest, strip_of_visible hop] at hstrip
  cases hrest' : c'.rest mover with
  | done result =>
    rw [hrest'] at hstrip
    nomatch hstrip
  | step op' next' =>
    rw [Move.isHidden, hrest'] at hmove
    rw [hrest', strip_of_visible (show hidden op' = false from hmove)] at hstrip
    injection hstrip with hsame hnext
    subst hsame
    exact ⟨next', rfl, fun answer ↦ congrFun hnext answer⟩

theorem Alike.done_eq {result : L mover} (hrest : c.rest mover = .done result)
    (hmove : Move.isHidden hidden hiddenAct c' (.turn (.core mover)) = false) :
    c'.rest mover = .done result := by
  have hstrip := h.strip_eq mover
  rw [hrest] at hstrip
  cases hrest' : c'.rest mover with
  | done result' =>
    rw [hrest'] at hstrip
    exact hstrip.symm
  | step op' next' =>
    rw [Move.isHidden, hrest'] at hmove
    rw [hrest', strip_of_visible (show hidden op' = false from hmove)] at hstrip
    nomatch hstrip

end

variable [DecidableEq ι] {core : ι} {entry : L core}

/-- A hidden move of one side goes unnoticed. -/
theorem Alike.hidden_move (hseparates : Separates cores proper hidden hiddenAct fallback agree)
    (h : Alike proper hidden fallback agree c c')
    (hmove : move.isHidden hidden hiddenAct c = true) :
    Alike proper hidden fallback agree (cores.move core entry c move) c' := by
  cases move with
  | restart => exact absurd hmove Bool.false_ne_true
  | turn turn =>
    cases turn with
    | act event =>
      exact ⟨hseparates.hidden_act event _ _ hmove h.memory, h.left, h.right, h.strip_eq⟩
    | core mover =>
      cases hrest : c.rest mover with
      | done result =>
        rw [Move.isHidden, hrest] at hmove
        exact absurd hmove Bool.false_ne_true
      | step op next =>
        rw [Move.isHidden, hrest] at hmove
        have hop : hidden op = true := hmove
        have hleft := h.left mover
        have hstrip := h.strip_eq mover
        rw [hrest] at hleft hstrip
        change Alike proper hidden fallback agree (cores.turn c (.core mover)) c'
        rw [cores.turn_step hrest]
        refine ⟨hseparates.hidden_op op _ _ hleft.proper.1 hop h.memory, fun other ↦ ?_, h.right,
          fun other ↦ ?_⟩
        · by_cases hother : other = mover
          · subst hother
            simp only [update_self]
            exact hleft.next _
          · simp only [update_of_ne hother]
            exact h.left other
        · by_cases hother : other = mover
          · subst hother
            simp only [update_self]
            exact (hleft.indifferent.strip_next hop _).trans hstrip
          · simp only [update_of_ne hother]
            exact h.strip_eq other

/-- A core of each side goes on, to points that are the same up to hidden operations. -/
theorem Alike.advance (h : Alike proper hidden fallback agree c c') {s s' : Scene ι O A E σ}
    {program program' : Program O A (L mover)} (hmemory : agree s.memory s'.memory)
    (hleft : program.Tame proper hidden fallback) (hright : program'.Tame proper hidden fallback)
    (hstrip : program.strip hidden fallback = program'.strip hidden fallback) :
    Alike proper hidden fallback agree ⟨s, update c.rest mover program⟩
      ⟨s', update c'.rest mover program'⟩ := by
  refine ⟨hmemory, fun other ↦ ?_, fun other ↦ ?_, fun other ↦ ?_⟩ <;>
    by_cases hother : other = mover
  · subst hother
    simpa only [update_self] using hleft
  · simpa only [update_of_ne hother] using h.left other
  · subst hother
    simpa only [update_self] using hright
  · simpa only [update_of_ne hother] using h.right other
  · subst hother
    simpa only [update_self] using hstrip
  · simpa only [update_of_ne hother] using h.strip_eq other

section

variable (hseparates : Separates cores proper hidden hiddenAct fallback agree)
include hseparates

variable (h : Alike proper hidden fallback agree c c')
include h

/-- The same visible move of both sides keeps them alike. -/
theorem Alike.visible_move (hmove : move.isHidden hidden hiddenAct c = false)
    (hmove' : move.isHidden hidden hiddenAct c' = false) :
    Alike proper hidden fallback agree (cores.move core entry c move)
      (cores.move core entry c' move) := by
  cases move with
  | restart => exact h.advance h.memory (tame_done) (tame_done) rfl
  | turn turn =>
    cases turn with
    | act event =>
      exact ⟨hseparates.visible_act event _ _ hmove h.memory, h.left, h.right, h.strip_eq⟩
    | core mover =>
      change Alike proper hidden fallback agree (cores.turn c (.core mover))
        (cores.turn c' (.core mover))
      cases hrest : c.rest mover with
      | done result =>
        rw [cores.turn_done hrest, cores.turn_done (h.done_eq hrest hmove')]
        exact h.advance h.memory (hseparates.loop mover result) (hseparates.loop mover result) rfl
      | step op next =>
        rw [Move.isHidden, hrest] at hmove
        obtain ⟨next', hrest', hnext⟩ := h.step_eq hrest hmove hmove'
        have hleft := h.left mover
        have hright := h.right mover
        rw [hrest] at hleft
        rw [hrest'] at hright
        obtain ⟨hanswer, hmemory⟩ := hseparates.visible_op op _ _ hleft.proper.1 hmove h.memory
        rw [cores.turn_step hrest, cores.turn_step hrest']
        refine h.advance hmemory (hleft.next _) (hright.next _) ?_
        change (next (cores.exec op c.scene.memory).1).strip hidden fallback =
          (next' (cores.exec op c'.scene.memory).1).strip hidden fallback
        rw [hanswer, hnext]

/-- A play without visible moves goes unnoticed. -/
theorem Alike.play_hidden (hmoves : cores.visible hidden hiddenAct core entry c moves = []) :
    Alike proper hidden fallback agree (cores.play core entry c moves) c' := by
  induction moves generalizing c with
  | nil => exact h
  | cons move moves ih =>
    rw [Cores.visible] at hmoves
    split_ifs at hmoves with hmove
    exact ih (h.hidden_move hseparates hmove) hmoves

end

/-- A play with a visible move is a hidden part, the move and a rest. -/
theorem exists_visible {first : Move ι E} {others : List (Move ι E)}
    (hmoves : cores.visible hidden hiddenAct core entry c moves = first :: others) :
    ∃ before after, moves = before ++ first :: after ∧
      cores.visible hidden hiddenAct core entry c before = [] ∧
      first.isHidden hidden hiddenAct (cores.play core entry c before) = false ∧
      cores.visible hidden hiddenAct core entry
        (cores.move core entry (cores.play core entry c before) first) after = others := by
  induction moves generalizing c with
  | nil => exact absurd hmoves (List.cons_ne_nil first others).symm
  | cons move moves ih =>
    rw [Cores.visible] at hmoves
    split_ifs at hmoves with hmove
    · obtain ⟨before, after, rfl, hbefore, hfirst, hafter⟩ := ih hmoves
      refine ⟨move :: before, after, rfl, ?_, hfirst, hafter⟩
      rw [Cores.visible, if_pos hmove]
      exact hbefore
    · obtain ⟨rfl, hrest⟩ := List.cons.inj hmoves
      exact ⟨[], moves, rfl, rfl, Bool.eq_false_iff.mpr hmove, hrest⟩

/-- Assumes: hidden and visible are separated, and the two configurations are alike. Two plays with
the same visible moves end in alike configurations. -/
theorem Alike.play (hseparates : Separates cores proper hidden hiddenAct fallback agree)
    (h : Alike proper hidden fallback agree c c') {moves' : List (Move ι E)}
    (hmoves : cores.visible hidden hiddenAct core entry c moves =
      cores.visible hidden hiddenAct core entry c' moves') :
    Alike proper hidden fallback agree (cores.play core entry c moves)
      (cores.play core entry c' moves') := by
  induction moves generalizing c c' moves' with
  | nil =>
    exact ((h.symm hseparates.symm).play_hidden hseparates hmoves.symm).symm hseparates.symm
  | cons move moves ih =>
    rw [Cores.visible] at hmoves
    split_ifs at hmoves with hmove
    · exact ih (h.hidden_move hseparates hmove) hmoves
    · obtain ⟨before, after, rfl, hbefore, hfirst, hafter⟩ := exists_visible hmoves.symm
      have hreached := ((h.symm hseparates.symm).play_hidden hseparates hbefore).symm
        hseparates.symm
      rw [cores.play_append]
      exact ih (hreached.visible_move hseparates (Bool.eq_false_iff.mpr hmove) hfirst) hafter.symm

end Runs

end Bhx.SharedMemory
