import Mathlib.Logic.Function.Basic
import Bhx.SharedMemory.RelyGuarantee

/-!
# Cores over one memory

Several cores run programs of atomic accesses over one memory, each over and over: when a pass of a
core ends, the next one begins from the private state that the last one left (`Cores.loop`). Between
any two accesses something outside may act. A schedule is a list of turns, each the turn of a core
or an act from outside, and `Cores.follow` runs it, so a statement about all schedules is one about
all interleavings at the grain of single accesses. What happens is kept as a trace, newest first,
with the core that did it; nothing reads it but statements.

`Outline` is the parallel rule of rely/guarantee reasoning. Every core has a relation it relies on,
a guarantee for its accesses and a property that holds between its passes. When what the others do
leaves each core at a point from which it still ensures its part, every core is at such a point
along every admitted schedule (`Outline.Sound.follow`).
-/

set_option autoImplicit false

namespace Bhx.SharedMemory

open List Function

/-- Something that happens in a system of cores. -/
inductive Mark (ι O A E : Type)
  /-- A core makes an access. -/
  | access (core : ι) (op : O) (answer : A)
  /-- A core begins another pass. -/
  | pass (core : ι)
  /-- Something outside acts. -/
  | act (event : E)
deriving DecidableEq, Repr

/-- Cores over one memory. -/
structure Cores (ι O A E σ : Type) (L : ι → Type) where
  exec : O → σ → A × σ
  act : E → σ → σ
  loop : (core : ι) → L core → Program O A (L core)

/-- The memory, with what has happened, newest first. -/
structure Scene (ι O A E σ : Type) where
  memory : σ
  trace : List (Mark ι O A E)

/-- A scene and the rest of each core's pass. -/
structure Config (ι O A E σ : Type) (L : ι → Type) where
  scene : Scene ι O A E σ
  rest : (core : ι) → Program O A (L core)

/-- Whose turn it is. -/
inductive Turn (ι E : Type)
  | core (core : ι)
  | act (event : E)
deriving DecidableEq, Repr

namespace Cores

variable {ι O A E σ : Type} {L : ι → Type} (cores : Cores ι O A E σ L)
variable {other core : ι}

/-! ### Turns and schedules -/

/-- An access of a core. -/
def access (core : ι) (op : O) (s : Scene ι O A E σ) : A × Scene ι O A E σ :=
  ((cores.exec op s.memory).1,
    ⟨(cores.exec op s.memory).2, .access core op (cores.exec op s.memory).1 :: s.trace⟩)

/-- A core begins a pass. -/
def pass (core : ι) (s : Scene ι O A E σ) : Scene ι O A E σ :=
  ⟨s.memory, .pass core :: s.trace⟩

/-- An act from outside. -/
def outside (event : E) (s : Scene ι O A E σ) : Scene ι O A E σ :=
  ⟨cores.act event s.memory, .act event :: s.trace⟩

/-- One turn. -/
def turn [DecidableEq ι] (c : Config ι O A E σ L) : Turn ι E → Config ι O A E σ L
  | .core core =>
    match c.rest core with
    | .done result =>
      ⟨pass core c.scene, update c.rest core (cores.loop core result)⟩
    | .step op next =>
      ⟨(cores.access core op c.scene).2,
        update c.rest core (next (cores.access core op c.scene).1)⟩
  | .act event => ⟨cores.outside event c.scene, c.rest⟩

/-- Runs a schedule. -/
def follow [DecidableEq ι] (c : Config ι O A E σ L) : List (Turn ι E) → Config ι O A E σ L
  | [] => c
  | turn :: turns => follow (cores.turn c turn) turns

/-- Every turn of the schedule is allowed where it is taken. -/
def Admits [DecidableEq ι] (allowed : Config ι O A E σ L → Turn ι E → Prop)
    (c : Config ι O A E σ L) : List (Turn ι E) → Prop
  | [] => True
  | turn :: turns => allowed c turn ∧ Admits allowed (cores.turn c turn) turns

/-- Whether a schedule is admitted can be found by running it. -/
def decidableAdmits [DecidableEq ι] (allowed : Config ι O A E σ L → Turn ι E → Prop)
    [∀ c turn, Decidable (allowed c turn)] (c : Config ι O A E σ L) :
    (turns : List (Turn ι E)) → Decidable (cores.Admits allowed c turns)
  | [] => .isTrue trivial
  | turn :: turns =>
    have := decidableAdmits allowed (cores.turn c turn) turns
    inferInstanceAs (Decidable (_ ∧ _))

instance [DecidableEq ι] (allowed : Config ι O A E σ L → Turn ι E → Prop)
    [∀ c turn, Decidable (allowed c turn)] (c : Config ι O A E σ L) (turns : List (Turn ι E)) :
    Decidable (cores.Admits allowed c turns) :=
  cores.decidableAdmits allowed c turns

/-! ### Passes -/

/-- How many passes a core has begun. -/
def passes [DecidableEq ι] (core : ι) : List (Mark ι O A E) → ℕ
  | [] => 0
  | .pass other :: trace => if other = core then passes core trace + 1 else passes core trace
  | .access _ _ _ :: trace | .act _ :: trace => passes core trace

/-- How many of them it has completed. -/
def completed [DecidableEq ι] (core : ι) (c : Config ι O A E σ L) : ℕ :=
  match c.rest core with
  | .done _ => passes core c.scene.trace
  | .step _ _ => passes core c.scene.trace - 1

/-- The accesses of a core with their answers, newest first. -/
def accesses [DecidableEq ι] (core : ι) : List (Mark ι O A E) → List (O × A)
  | [] => []
  | .access other op answer :: trace =>
    if other = core then (op, answer) :: accesses core trace else accesses core trace
  | .pass _ :: trace | .act _ :: trace => accesses core trace

@[simp]
theorem accesses_access_self [DecidableEq ι] (core : ι) (op : O) (s : Scene ι O A E σ) :
    accesses core (cores.access core op s).2.trace =
      (op, (cores.exec op s.memory).1) :: accesses core s.trace :=
  if_pos rfl

theorem accesses_access_of_ne [DecidableEq ι] (h : other ≠ core) (op : O) (s : Scene ι O A E σ) :
    accesses core (cores.access other op s).2.trace = accesses core s.trace :=
  if_neg h

/-- A core is between two passes. -/
def Resting (core : ι) (c : Config ι O A E σ L) : Prop := (c.rest core).nextOp = none

instance (core : ι) (c : Config ι O A E σ L) : Decidable (Resting core c) :=
  match h : c.rest core with
  | .done _ => .isTrue (congrArg Program.nextOp h)
  | .step _ _ => .isFalse fun hnone ↦ by
    rw [Resting, h] at hnone
    exact Option.some_ne_none _ hnone

theorem Resting.exists_done {c : Config ι O A E σ L} (h : Resting core c) :
    ∃ result, c.rest core = .done result := by
  unfold Resting at h
  cases hrest : c.rest core with
  | done result => exact ⟨result, rfl⟩
  | step op next =>
    rw [hrest] at h
    exact absurd h (Option.some_ne_none op)

section Turns

variable [DecidableEq ι] {c : Config ι O A E σ L} {core : ι}

theorem turn_done {result : L core} (h : c.rest core = .done result) :
    cores.turn c (.core core) =
      ⟨pass core c.scene, update c.rest core (cores.loop core result)⟩ := by
  simp only [turn, h]

theorem turn_step {op : O} {next : A → Program O A (L core)} (h : c.rest core = .step op next) :
    cores.turn c (.core core) =
      ⟨(cores.access core op c.scene).2,
        update c.rest core (next (cores.access core op c.scene).1)⟩ := by
  simp only [turn, h]

variable {allowed : Config ι O A E σ L → Turn ι E → Prop} {turns : List (Turn ι E)}
  {holds : Config ι O A E σ L → Prop}

/-- What one turn keeps, an admitted schedule keeps. -/
theorem follow_induction (hturn : ∀ c turn, allowed c turn → holds c → holds (cores.turn c turn))
    (hturns : cores.Admits allowed c turns) (h : holds c) :
    holds (cores.follow c turns) := by
  induction turns generalizing c with
  | nil => exact h
  | cons turn turns ih => exact ih hturns.2 (hturn c turn hturns.1 h)

theorem follow_append (c : Config ι O A E σ L) (turns more : List (Turn ι E)) :
    cores.follow c (turns ++ more) = cores.follow (cores.follow c turns) more := by
  induction turns generalizing c with
  | nil => rfl
  | cons turn _ ih => exact ih (cores.turn c turn)

theorem admits_append {more : List (Turn ι E)}
    (h : cores.Admits allowed c turns) (hmore : cores.Admits allowed (cores.follow c turns) more) :
    cores.Admits allowed c (turns ++ more) := by
  induction turns generalizing c with
  | nil => exact hmore
  | cons turn turns ih => exact ⟨h.1, ih h.2 hmore⟩

theorem admits_of_forall (h : ∀ c turn, allowed c turn) (c : Config ι O A E σ L)
    (turns : List (Turn ι E)) : cores.Admits allowed c turns := by
  induction turns generalizing c with
  | nil => trivial
  | cons turn turns ih => exact ⟨h c turn, ih (cores.turn c turn)⟩

theorem Admits.mono {allowed' : Config ι O A E σ L → Turn ι E → Prop}
    (hallowed : ∀ c turn, allowed c turn → allowed' c turn)
    (h : cores.Admits allowed c turns) : cores.Admits allowed' c turns := by
  induction turns generalizing c with
  | nil => trivial
  | cons turn turns ih => exact ⟨hallowed c turn h.1, ih h.2⟩

theorem admits_replicate {turn : Turn ι E} (h : ∀ c, allowed c turn) (count : ℕ)
    (c : Config ι O A E σ L) : cores.Admits allowed c (replicate count turn) := by
  induction count generalizing c with
  | zero => trivial
  | succ count ih => exact ⟨h c, ih (cores.turn c turn)⟩

theorem turn_rest_of_ne (hother : other ≠ core) (c : Config ι O A E σ L) :
    (cores.turn c (.core core)).rest other = c.rest other := by
  cases hrest : c.rest core with
  | done result =>
    rw [cores.turn_done hrest]
    exact update_of_ne hother _ _
  | step op next =>
    rw [cores.turn_step hrest]
    exact update_of_ne hother _ _

theorem follow_rest_of_ne (hother : other ≠ core) (count : ℕ) (c : Config ι O A E σ L) :
    (cores.follow c (replicate count (.core core))).rest other = c.rest other := by
  induction count generalizing c with
  | zero => rfl
  | succ count ih => exact (ih _).trans (cores.turn_rest_of_ne hother c)

theorem exists_resting (core : ι) (c : Config ι O A E σ L) :
    ∃ count, Resting core (cores.follow c (replicate count (.core core))) ∧
      passes core (cores.follow c (replicate count (.core core))).scene.trace =
        passes core c.scene.trace := by
  induction hrest : c.rest core generalizing c with
  | done result => exact ⟨0, congrArg Program.nextOp hrest, rfl⟩
  | step op next ih =>
    have hnext : (cores.turn c (.core core)).rest core = next (cores.access core op c.scene).1 := by
      rw [cores.turn_step hrest]
      exact update_self core _ _
    obtain ⟨count, hresting, hpasses⟩ := ih _ (cores.turn c (.core core)) hnext
    refine ⟨count + 1, hresting, hpasses.trans ?_⟩
    rw [cores.turn_step hrest]
    rfl

/-- A core left to itself comes to rest after as many passes as one likes. -/
theorem exists_passes {core : ι} {c : Config ι O A E σ L} (h : Resting core c) (wanted : ℕ) :
    ∃ count, Resting core (cores.follow c (replicate count (.core core))) ∧
      passes core (cores.follow c (replicate count (.core core))).scene.trace =
        passes core c.scene.trace + wanted := by
  induction wanted with
  | zero => exact ⟨0, h, rfl⟩
  | succ wanted ih =>
    obtain ⟨first, hfirst, hpasses⟩ := ih
    obtain ⟨result, hrest⟩ := hfirst.exists_done
    obtain ⟨second, hsecond, hpasses'⟩ := cores.exists_resting core
      (cores.turn (cores.follow c (replicate first (.core core))) (.core core))
    refine ⟨first + (second + 1), ?_⟩
    rw [← replicate_append_replicate, replicate_succ, follow_append]
    refine ⟨hsecond, hpasses'.trans ?_⟩
    rw [cores.turn_done hrest]
    change (if core = core then _ + 1 else _) = _
    rw [if_pos rfl, hpasses]
    rfl

end Turns

end Cores

/-! ### The parallel rule -/

/-- An invariant of the scene, and what each core relies on, guarantees and establishes between its
passes. -/
structure Outline (ι O A E σ : Type) (L : ι → Type) where
  inv : Scene ι O A E σ → Prop
  rely : ι → Scene ι O A E σ → Scene ι O A E σ → Prop
  guarantee : ι → O → Scene ι O A E σ → Prop
  between : (core : ι) → L core → Scene ι O A E σ → Prop

section Outline

variable {ι O A E σ : Type} {L : ι → Type}

/-- From this point of its pass on, a core ensures its part where the invariant holds. -/
def Outline.At (outline : Outline ι O A E σ L) (cores : Cores ι O A E σ L) (core : ι)
    (program : Program O A (L core)) (s : Scene ι O A E σ) : Prop :=
  Ensures (cores.access core) (fun s s' ↦ outline.rely core s s' ∧ outline.inv s')
    (outline.guarantee core) (outline.between core) program s

/-- The invariant holds and every core ensures its part. -/
structure Outline.Holds (outline : Outline ι O A E σ L) (cores : Cores ι O A E σ L)
    (c : Config ι O A E σ L) : Prop where
  inv : outline.inv c.scene
  at_rest : ∀ core, outline.At cores core (c.rest core) c.scene

/-- The obligations of the rule: a pass ensures its part, and the turns of the others and the acts
from outside keep the invariant and leave a core at a point from which it does. -/
structure Outline.Sound [DecidableEq ι] (outline : Outline ι O A E σ L)
    (cores : Cores ι O A E σ L) (allowed : Config ι O A E σ L → Turn ι E → Prop) : Prop where
  rely_refl : ∀ core s, outline.rely core s s
  loop : ∀ core result s, outline.inv s → outline.between core result s →
    outline.inv (Cores.pass core s) ∧
      outline.At cores core (cores.loop core result) (Cores.pass core s)
  pass : ∀ c core other, other ≠ core → outline.Holds cores c →
    outline.At cores other (c.rest other) (Cores.pass core c.scene)
  access_inv : ∀ c core op next, allowed c (.core core) → c.rest core = .step op next →
    outline.guarantee core op c.scene → outline.Holds cores c →
    outline.inv (cores.access core op c.scene).2
  access : ∀ c core op next other, other ≠ core → allowed c (.core core) →
    c.rest core = .step op next → outline.guarantee core op c.scene → outline.Holds cores c →
    outline.At cores other (c.rest other) (cores.access core op c.scene).2
  act_inv : ∀ c event, allowed c (.act event) → outline.Holds cores c →
    outline.inv (cores.outside event c.scene)
  act : ∀ c event other, allowed c (.act event) → outline.Holds cores c →
    outline.At cores other (c.rest other) (cores.outside event c.scene)

section Rule

variable {outline : Outline ι O A E σ L} {cores : Cores ι O A E σ L}

/-- A core stays at its point through a step it relies on. -/
theorem Outline.At.shift {core : ι} {program : Program O A (L core)} {s s' : Scene ι O A E σ}
    (h : outline.At cores core program s)
    (htrans : ∀ s'', outline.rely core s' s'' → outline.rely core s s'')
    (hstable : ∀ result, outline.between core result s → outline.between core result s') :
    outline.At cores core program s' := by
  cases program with
  | done result => exact hstable result h
  | step op next => exact fun s'' hstep ↦ h s'' ⟨htrans s'' hstep.1, hstep.2⟩

/-- A step is relied on by a core, or finds it between two passes and leaves it there. -/
def Outline.Admissible (outline : Outline ι O A E σ L) (c : Config ι O A E σ L) (core : ι)
    (s : Scene ι O A E σ) : Prop :=
  outline.rely core c.scene s ∨
    ∃ result, c.rest core = .done result ∧ outline.between core result s

variable {c : Config ι O A E σ L}

theorem Outline.Holds.admit {core : ι} {s : Scene ι O A E σ} (h : outline.Holds cores c)
    (htrans : ∀ core s s' s'', outline.rely core s s' → outline.rely core s' s'' →
      outline.rely core s s'')
    (hstable : ∀ core result s s', outline.rely core s s' → outline.between core result s →
      outline.between core result s') (hs : outline.Admissible c core s) :
    outline.At cores core (c.rest core) s := by
  rcases hs with hrely | ⟨result, hrest, hbetween⟩
  · exact (h.at_rest core).shift (fun s'' ↦ htrans core _ _ s'' hrely)
      fun result ↦ hstable core result _ _ hrely
  · rw [hrest]
    exact hbetween

variable [DecidableEq ι] {allowed : Config ι O A E σ L → Turn ι E → Prop}

theorem Outline.Sound.turn (hsound : outline.Sound cores allowed) (c : Config ι O A E σ L)
    (turn : Turn ι E) (hallowed : allowed c turn) (h : outline.Holds cores c) :
    outline.Holds cores (cores.turn c turn) := by
  cases turn with
  | act event =>
    exact ⟨hsound.act_inv c event hallowed h, fun other ↦ hsound.act c event other hallowed h⟩
  | core core =>
    have hcore := h.at_rest core
    cases hrest : c.rest core with
    | done result =>
      rw [hrest] at hcore
      rw [cores.turn_done hrest]
      obtain ⟨hinv, hloop⟩ := hsound.loop core result c.scene h.inv hcore
      refine ⟨hinv, fun other ↦ ?_⟩
      by_cases hother : other = core
      · subst hother
        simp only [update_self]
        exact hloop
      · simp only [update_of_ne hother]
        exact hsound.pass c core other hother h
    | step op next =>
      rw [hrest] at hcore
      obtain ⟨hguar, hnext⟩ := hcore c.scene ⟨hsound.rely_refl core c.scene, h.inv⟩
      rw [cores.turn_step hrest]
      refine ⟨hsound.access_inv c core op next hallowed hrest hguar h, fun other ↦ ?_⟩
      by_cases hother : other = core
      · subst hother
        simp only [update_self]
        exact hnext
      · simp only [update_of_ne hother]
        exact hsound.access c core op next other hother hallowed hrest hguar h

/-- The rule when everything that happens is admissible. -/
theorem Outline.Sound.ofRely (hrefl : ∀ core s, outline.rely core s s)
    (htrans : ∀ core s s' s'', outline.rely core s s' → outline.rely core s' s'' →
      outline.rely core s s'')
    (hstable : ∀ core result s s', outline.rely core s s' → outline.between core result s →
      outline.between core result s')
    (hloop : ∀ core result s, outline.inv s → outline.between core result s →
      outline.inv (Cores.pass core s) ∧
        outline.At cores core (cores.loop core result) (Cores.pass core s))
    (hpass : ∀ core other s, other ≠ core → outline.rely other s (Cores.pass core s))
    (haccess : ∀ c core op next, allowed c (.core core) → c.rest core = .step op next →
      outline.guarantee core op c.scene → outline.Holds cores c →
      outline.inv (cores.access core op c.scene).2 ∧
        ∀ other, other ≠ core → outline.Admissible c other (cores.access core op c.scene).2)
    (hact : ∀ c event, allowed c (.act event) → outline.Holds cores c →
      outline.inv (cores.outside event c.scene) ∧
        ∀ core, outline.Admissible c core (cores.outside event c.scene)) :
    outline.Sound cores allowed where
  rely_refl := hrefl
  loop := hloop
  pass _ core other hother h :=
    (h.at_rest other).shift (fun s'' ↦ htrans other _ _ s'' (hpass core other _ hother))
      fun result ↦ hstable other result _ _ (hpass core other _ hother)
  access_inv c core op next hallowed hrest hguar h :=
    (haccess c core op next hallowed hrest hguar h).1
  access c core op next other hother hallowed hrest hguar h :=
    h.admit htrans hstable ((haccess c core op next hallowed hrest hguar h).2 other hother)
  act_inv c event hallowed h := (hact c event hallowed h).1
  act c event other hallowed h := h.admit htrans hstable ((hact c event hallowed h).2 other)

/-- The parallel rule: along every admitted schedule the invariant holds and each core ensures its
part. -/
theorem Outline.Sound.follow (hsound : outline.Sound cores allowed) (h : outline.Holds cores c)
    {turns : List (Turn ι E)} (hturns : cores.Admits allowed c turns) :
    outline.Holds cores (cores.follow c turns) :=
  cores.follow_induction hsound.turn hturns h

end Rule

end Outline

end Bhx.SharedMemory
