import Mathlib.Data.Nat.Digits.Defs
import Mathlib.Tactic.Common

/-!
# The instance directories of a profile

Every L2CPU that runs a profile has a directory of its own, `<profile>-l<index>`, next to those of
the other profiles. `reset_instances` removes one of them, or sweeps all of a profile's: it splits
each name at its last `-l` and compares what stands in front with the profile. A profile may itself
be called `web-l2`. Its directories still end in `-l` and digits, so that the last `-l` is the one
that `instance_dir` wrote (`rsplitOnce_instanceDir`), and a sweep removes the directories of the
profile and no others (`resetInstances_exact`).

Scope. Names are lists of characters. A removal may fail, and so may the listing.
-/

set_option autoImplicit false

namespace Bhx.Profile

open List

/-- What `validate_profile_name` finds wrong. -/
inductive NameError
  | empty
  | long (name : List Char)
  | start (name : List Char)
  | char (name : List Char) (c : Char)
deriving DecidableEq, Repr

/-- `validate_profile_name`. -/
def validateProfileName (name : List Char) : Except NameError Unit :=
  match name with
  | [] => .error .empty
  | first :: rest =>
    if 32 < (name.map Char.utf8Size).sum then .error (.long name)
    else if !first.isAlpha then .error (.start name)
    else match rest.find? fun c ↦ !(c.isAlphanum || c = '-' || c = '_') with
      | some c => .error (.char name c)
      | none => .ok ()

/-- A valid profile name. -/
def ProfileName := { name : List Char // validateProfileName name = .ok () }

/-- `instance_dir`, below `instances_dir`. -/
def instanceDir (profileName : List Char) (l2cpuIdx : Fin 256) : List Char :=
  profileName ++ '-' :: 'l' :: Nat.toDigits 10 l2cpuIdx

/-- `rsplit_once("-l")`. -/
def rsplitOnce : List Char → Option (List Char × List Char)
  | [] => none
  | c :: rest =>
    match rsplitOnce rest with
    | some (before, after) => some (c :: before, after)
    | none => if c = '-' && rest.head? = some 'l' then some ([], rest.tail) else none

/-- `parse::<u8>`: digits, after a plus sign if there is one. -/
def parseU8 (text : List Char) : Option ℕ :=
  let digits := if text.head? = some '+' then text.tail else text
  if digits.isEmpty then none
  else digits.foldlM (fun value c ↦
    if c.isDigit && 10 * value + (c.toNat - 48) < 256 then some (10 * value + (c.toNat - 48))
    else none) 0

/-- The directory of the instances: what `instance_dir` has made there, and which operations on it
fail. -/
structure InstancesDir where
  present : Bool
  made : List (ProfileName × Fin 256)
  absent : present = false → made = []
  readable : Bool
  removable : List Char → Bool

/-- The entries, in the order in which they are read. -/
def InstancesDir.dirs (dir : InstancesDir) : List (List Char) :=
  dir.made.map fun made ↦ instanceDir made.1.1 made.2

/-- The name is one that a sweep for the profile removes. -/
def Swept (profileName name : List Char) : Bool :=
  (rsplitOnce name).any fun (pName, suffix) ↦ pName = profileName && (parseU8 suffix).isSome

/-- The loop of `reset_instances` over the entries: what it returns, and the directories then. An
error names what could not be removed. -/
def sweep (profileName : List Char) (removable : List Char → Bool) :
    List (List Char) → List (List Char) → List (List Char) →
      Except (List Char) (List (List Char)) × List (List Char)
  | [], dirs, removed => (.ok removed, dirs)
  | name :: names, dirs, removed =>
    if Swept profileName name then
      if removable name then
        sweep profileName removable names (dirs.filter (· ≠ name)) (removed ++ [name])
      else (.error name, dirs)
    else sweep profileName removable names dirs removed

/-- `reset_instances`. -/
def resetInstances (dir : InstancesDir) (profileName : List Char) (l2cpuFilter : Option (Fin 256)) :
    Except (List Char) (List (List Char)) × List (List Char) :=
  if !dir.present then (.ok [], dir.dirs)
  else match l2cpuFilter with
    | some idx =>
      let target := instanceDir profileName idx
      if target ∈ dir.dirs then
        if dir.removable target then (.ok [target], dir.dirs.filter (· ≠ target))
        else (.error target, dir.dirs)
      else (.ok [], dir.dirs)
    | none =>
      if dir.readable then sweep profileName dir.removable dir.dirs dir.dirs []
      else (.error [], dir.dirs)

variable {profileName other : List Char}

theorem digits_spec (idx : Fin 256) :
    'l' ∉ Nat.toDigits 10 idx ∧ parseU8 (Nat.toDigits 10 idx) = some idx.val := by
  revert idx
  decide +kernel

theorem rsplitOnce_of_not_mem {text : List Char} (h : 'l' ∉ text) : rsplitOnce text = none := by
  induction text with
  | nil => rfl
  | cons c rest ih =>
    have hhead : rest.head? ≠ some 'l' := fun heq ↦ h (.tail _ (mem_of_head? heq))
    simp [rsplitOnce, ih fun hmem ↦ h (.tail _ hmem), hhead]

/-- A directory's name is split where `instance_dir` has put it together. -/
theorem rsplitOnce_instanceDir (idx : Fin 256) :
    rsplitOnce (instanceDir profileName idx) = some (profileName, Nat.toDigits 10 idx) := by
  induction profileName with
  | nil => simp [instanceDir, rsplitOnce, rsplitOnce_of_not_mem (digits_spec idx).1]
  | cons c rest ih =>
    rw [instanceDir] at ih
    simp [instanceDir, rsplitOnce, ih]

theorem swept_instanceDir (idx : Fin 256) :
    Swept profileName (instanceDir other idx) = true ↔ other = profileName := by
  simp [Swept, rsplitOnce_instanceDir, digits_spec]

theorem instanceDir_inj {idx idx' : Fin 256}
    (h : instanceDir profileName idx = instanceDir other idx') :
    profileName = other ∧ idx = idx' := by
  have hsplit := congrArg rsplitOnce h
  simp only [rsplitOnce_instanceDir, Option.some.injEq, Prod.mk.injEq] at hsplit
  have hparse := congrArg parseU8 hsplit.2
  rw [(digits_spec idx).2, (digits_spec idx').2] at hparse
  exact ⟨hsplit.1, Fin.ext (Option.some.inj hparse)⟩

/-- A sweep that goes through removes what it should and returns it. -/
theorem sweep_ok {removable : List Char → Bool} {names dirs before removed : List (List Char)}
    (h : (sweep profileName removable names dirs before).1 = .ok removed) :
    removed = before ++ names.filter (Swept profileName) ∧
      (sweep profileName removable names dirs before).2 =
        dirs.filter (· ∉ names.filter (Swept profileName)) := by
  induction names generalizing dirs before with
  | nil =>
    obtain rfl := Except.ok.inj h
    exact ⟨(append_nil _).symm, (filter_eq_self.mpr fun _ _ ↦ rfl).symm⟩
  | cons name names ih =>
    unfold sweep at h ⊢
    split_ifs at h ⊢ with hswept hremovable
    · obtain ⟨hremoved, hleft⟩ := ih h
      rw [hleft, filter_cons_of_pos hswept, filter_filter]
      simp [hremoved, Bool.and_comm]
    · rw [filter_cons_of_neg hswept]
      exact ih h

/-- A directory of the profile that a reset with the filter is for. -/
def Asked (profileName : List Char) (l2cpuFilter : Option (Fin 256)) (name : List Char) : Prop :=
  ∃ idx, name = instanceDir profileName idx ∧ l2cpuFilter.all (· = idx)

theorem resetInstances_ok {dir : InstancesDir} {l2cpuFilter : Option (Fin 256)}
    {removed : List (List Char)}
    (h : (resetInstances dir profileName l2cpuFilter).1 = .ok removed) :
    (∀ name, name ∈ removed ↔ name ∈ dir.dirs ∧ Asked profileName l2cpuFilter name) ∧
      ∀ name, name ∈ (resetInstances dir profileName l2cpuFilter).2 ↔
        name ∈ dir.dirs ∧ name ∉ removed := by
  unfold resetInstances at h ⊢
  cases hpresent : dir.present with
  | false =>
    obtain rfl : [] = removed := by simpa [hpresent] using h
    simp [InstancesDir.dirs, dir.absent hpresent]
  | true =>
    simp only [hpresent, Bool.not_true, Bool.false_eq_true, if_false] at h ⊢
    cases l2cpuFilter with
    | some idx =>
      simp only at h ⊢
      split_ifs at h ⊢ with hmem hremovable
      · obtain rfl := Except.ok.inj h
        refine ⟨fun name ↦ ?_, fun name ↦ by simp⟩
        simp only [Asked, mem_singleton, Option.all_some, decide_eq_true_eq]
        exact ⟨fun heq ↦ ⟨heq ▸ hmem, idx, heq, rfl⟩, fun ⟨_, _, heq, hidx⟩ ↦ hidx ▸ heq⟩
      · obtain rfl := Except.ok.inj h
        refine ⟨fun name ↦ ?_, fun name ↦ by simp⟩
        simp only [Asked, not_mem_nil, Option.all_some, decide_eq_true_eq, false_iff]
        rintro ⟨hname, _, rfl, rfl⟩
        exact hmem hname
    | none =>
      simp only at h ⊢
      split_ifs at h ⊢
      obtain ⟨rfl, hleft⟩ := sweep_ok h
      rw [nil_append, hleft]
      refine ⟨fun name ↦ ?_, fun name ↦ by rw [mem_filter, decide_eq_true_eq]⟩
      rw [mem_filter]
      refine and_congr_right fun hmem ↦ ?_
      obtain ⟨made, -, rfl⟩ := mem_map.mp hmem
      rw [swept_instanceDir]
      exact ⟨fun heq ↦ ⟨made.2, by rw [heq], rfl⟩, fun ⟨_, heq, _⟩ ↦ (instanceDir_inj heq).1⟩

/-- Resetting the instances of a profile removes them, or the one that is asked for, returns what it
has removed and leaves everything else. Assumes: the call succeeds. -/
theorem resetInstances_exact (dir : InstancesDir) (profile : ProfileName)
    (l2cpuFilter : Option (Fin 256)) {removed : List (List Char)}
    (h : (resetInstances dir profile.1 l2cpuFilter).1 = .ok removed) :
    (∀ name, name ∈ removed ↔ name ∈ dir.dirs ∧ Asked profile.1 l2cpuFilter name) ∧
    (∀ name, name ∈ (resetInstances dir profile.1 l2cpuFilter).2 ↔
      name ∈ dir.dirs ∧ name ∉ removed) ∧
    ∀ (other : ProfileName) (idx : Fin 256), other ≠ profile →
      instanceDir other.1 idx ∈ dir.dirs →
        instanceDir other.1 idx ∈ (resetInstances dir profile.1 l2cpuFilter).2 := by
  obtain ⟨hremoved, hleft⟩ := resetInstances_ok h
  refine ⟨hremoved, hleft, fun other idx hne hmem ↦ (hleft _).mpr ⟨hmem, fun hgone ↦ ?_⟩⟩
  obtain ⟨-, idx', heq, -⟩ := (hremoved _).mp hgone
  exact hne (Subtype.ext (instanceDir_inj heq).1)

/-- A sweep for `web` next to the directory of `web-l2`. -/
theorem resetInstances_exact_nested :
    let web : ProfileName := ⟨['w', 'e', 'b'], rfl⟩
    let webL2 : ProfileName := ⟨['w', 'e', 'b', '-', 'l', '2'], rfl⟩
    let dir : InstancesDir := ⟨true, [(web, 2), (webL2, 3)], nofun, true, fun _ ↦ true⟩
    instanceDir webL2.1 3 ∈ (resetInstances dir web.1 none).2 := by
  intro web webL2 dir
  have hok : (resetInstances dir web.1 none).1 = .ok [instanceDir web.1 2] := by decide +kernel
  have hne : webL2 ≠ web := fun heq ↦ absurd (congrArg Subtype.val heq) (by decide)
  exact (resetInstances_exact dir web none hok).2.2 webL2 3 hne (by decide)

end Bhx.Profile
