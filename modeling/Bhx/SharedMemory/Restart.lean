import Bhx.SharedMemory.Cores

/-!
# A core that is reset

Something may stop a core between any two of its accesses and later let it begin again from the
start, with whatever memory it left. A play is a schedule with such resets of one core in it
(`Move`, `Cores.play`). What a core knew in the middle of a pass is gone with the pass, so a reset
asks for no more than what the core establishes before its first pass (`Outline.Holds.restart`), and
the parallel rule extends to plays (`Outline.Sound.play`).

Scope. One core is reset. A core that is stopped for good is one that gets no more turns.
-/

set_option autoImplicit false

namespace Bhx.SharedMemory

variable {ι O A E σ : Type} {L : ι → Type} {c : Config ι O A E σ L}

/-- A turn, or a reset. -/
inductive Move (ι E : Type)
  | turn (turn : Turn ι E)
  | restart
deriving DecidableEq, Repr

namespace Cores

variable [DecidableEq ι] (cores : Cores ι O A E σ L)

/-- A core is reset: its pass is abandoned. -/
def restart (core : ι) (entry : L core) (c : Config ι O A E σ L) : Config ι O A E σ L :=
  ⟨c.scene, Function.update c.rest core (.done entry)⟩

section Play

variable (core : ι) (entry : L core)

/-- One move. -/
def move (c : Config ι O A E σ L) : Move ι E → Config ι O A E σ L
  | .turn turn => cores.turn c turn
  | .restart => restart core entry c

/-- Runs a schedule with resets. -/
def play (c : Config ι O A E σ L) : List (Move ι E) → Config ι O A E σ L
  | [] => c
  | move :: moves => play (cores.move core entry c move) moves

/-- Every turn of the play is allowed where it is taken. -/
def AdmitsPlay (allowed : Config ι O A E σ L → Turn ι E → Prop) (c : Config ι O A E σ L) :
    List (Move ι E) → Prop
  | [] => True
  | .turn turn :: moves => allowed c turn ∧ AdmitsPlay allowed (cores.turn c turn) moves
  | .restart :: moves => AdmitsPlay allowed (restart core entry c) moves

/-- Whether a play is admitted can be found by running it. -/
def decidableAdmitsPlay (allowed : Config ι O A E σ L → Turn ι E → Prop)
    [∀ c turn, Decidable (allowed c turn)] (c : Config ι O A E σ L) :
    (moves : List (Move ι E)) → Decidable (cores.AdmitsPlay core entry allowed c moves)
  | [] => .isTrue trivial
  | .turn turn :: moves =>
    have := decidableAdmitsPlay allowed (cores.turn c turn) moves
    inferInstanceAs (Decidable (_ ∧ _))
  | .restart :: moves => decidableAdmitsPlay allowed (restart core entry c) moves

instance (allowed : Config ι O A E σ L → Turn ι E → Prop) [∀ c turn, Decidable (allowed c turn)]
    (c : Config ι O A E σ L) (moves : List (Move ι E)) :
    Decidable (cores.AdmitsPlay core entry allowed c moves) :=
  cores.decidableAdmitsPlay core entry allowed c moves

variable {core entry}

theorem play_append (c : Config ι O A E σ L) (moves more : List (Move ι E)) :
    cores.play core entry c (moves ++ more) =
      cores.play core entry (cores.play core entry c moves) more := by
  induction moves generalizing c with
  | nil => rfl
  | cons move _ ih => exact ih (cores.move core entry c move)

end Play

end Cores

section Rule

variable {outline : Outline ι O A E σ L} {cores : Cores ι O A E σ L} [DecidableEq ι]
  {core : ι} {entry : L core} {allowed : Config ι O A E σ L → Turn ι E → Prop}

/-- A reset core stands where it is before its first pass; the others do not notice. -/
theorem Outline.Holds.restart (h : outline.Holds cores c)
    (hentry : outline.between core entry c.scene) :
    outline.Holds cores (Cores.restart core entry c) := by
  refine ⟨h.inv, fun other ↦ ?_⟩
  by_cases hother : other = core
  · subst hother
    simp only [Cores.restart, Function.update_self]
    exact hentry
  · simp only [Cores.restart, Function.update_of_ne hother]
    exact h.at_rest other

/-- Assumes: what the core establishes before its first pass holds in every scene of the invariant.
Along every admitted play the invariant holds and each core ensures its part. -/
theorem Outline.Sound.play (hsound : outline.Sound cores allowed)
    (hentry : ∀ s, outline.inv s → outline.between core entry s) (h : outline.Holds cores c)
    {moves : List (Move ι E)} (hmoves : cores.AdmitsPlay core entry allowed c moves) :
    outline.Holds cores (cores.play core entry c moves) := by
  induction moves generalizing c with
  | nil => exact h
  | cons move moves ih =>
    cases move with
    | turn turn => exact ih (hsound.turn c turn hmoves.1 h) hmoves.2
    | restart => exact ih (h.restart (hentry c.scene h.inv)) hmoves

end Rule

end Bhx.SharedMemory
