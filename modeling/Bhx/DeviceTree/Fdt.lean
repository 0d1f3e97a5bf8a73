import Mathlib.Data.List.Basic

/-!
# Flattened device trees

A device tree as the tools that patch it see it: nodes with a path and properties, found by their
paths, and changed by adding a node, setting a property or renaming a node. What is proved is what
each change leaves alone: a property stays unless it is set itself (`Fdt.get_setprop_of_ne`), and a
node is added only where there was none (`Fdt.get_addSubnode`).

Scope. A name is its base and the unit address behind the `@`. Running out of the room that a tree
was opened with is not modelled.
-/

set_option autoImplicit false

namespace Bhx.DeviceTree

open List

/-- The name of a node: `base@unit`, or `base` alone. -/
structure NodeName where
  base : String
  unit : Option ℕ := none
deriving DecidableEq, Repr

abbrev NodePath := List NodeName

/-- The value of a property. -/
inductive PropValue
  | empty
  | u32 (value : ℕ)
  | reg (addr size : ℕ)
  | text (value : String)
deriving DecidableEq, Repr

structure Node where
  parent : NodePath
  name : NodeName
  props : List (String × PropValue)
deriving DecidableEq, Repr

def Node.path (node : Node) : NodePath := node.parent ++ [node.name]

/-- The nodes of a tree, other than its root. -/
abbrev Fdt := List Node

/-- A node is found by its whole name, or by its base alone. -/
def NodeName.answers (name query : NodeName) : Bool :=
  name.base = query.base && (query.unit = none || name.unit = query.unit)

theorem NodeName.answers_self (name : NodeName) : name.answers name = true := by
  simp [NodeName.answers]

namespace Fdt

/-- The path of the first child of a node that is found by a name. -/
def child (fdt : Fdt) (parent : NodePath) (query : NodeName) : Option NodePath :=
  (fdt.find? fun node ↦ node.parent = parent && node.name.answers query).map Node.path

/-- `fdt_path_offset`, from a node on. -/
def pathOffset (fdt : Fdt) : NodePath → List NodeName → Option NodePath
  | path, [] => some path
  | path, query :: queries => (fdt.child path query).bind fun next ↦ fdt.pathOffset next queries

/-- `fdt_getprop`. -/
def get (fdt : Fdt) (path : NodePath) (key : String) : Option PropValue :=
  (fdt.find? fun node ↦ node.path = path).bind fun node ↦ node.props.lookup key

/-- `fdt_setprop`. -/
def setprop (fdt : Fdt) (path : NodePath) (key : String) (value : PropValue) : Fdt :=
  fdt.map fun node ↦
    if node.path = path then { node with props := (key, value) :: node.props } else node

/-- `fdt_add_subnode`. The new node comes before its siblings. -/
def addSubnode (fdt : Fdt) (parent : NodePath) (name : NodeName) : Option Fdt :=
  if (fdt.child parent name).isSome then none else some (⟨parent, name, []⟩ :: fdt)

/-- `fdt_set_name`. -/
def setName (fdt : Fdt) (path : NodePath) (name : NodeName) : Fdt :=
  fdt.map fun node ↦
    if node.path = path then { node with name := name }
    else if path <+: node.parent then
      { node with parent := path.dropLast ++ [name] ++ node.parent.drop path.length }
    else node

/-- `fdt_get_phandle`: zero if there is none. -/
def getPhandle (fdt : Fdt) (path : NodePath) : ℕ :=
  match fdt.get path "phandle" with
  | some (.u32 value) => value
  | _ => 0

/-- `fdt_find_max_phandle`. -/
def findMaxPhandle (fdt : Fdt) : ℕ :=
  fdt.foldl (fun most node ↦ max most (fdt.getPhandle node.path)) 0

/-! ### What changes and what stays -/

variable {fdt fdt' : Fdt} {path path' parent : NodePath} {name : NodeName} {key key' : String}
  {value : PropValue}

/-- There is a node with the path. -/
def Has (fdt : Fdt) (path : NodePath) : Prop := ∃ node ∈ fdt, Node.path node = path

private theorem path_setprop_node (node : Node) :
    (if node.path = path then { node with props := (key, value) :: node.props } else node).path =
      node.path := by
  split_ifs
  · rfl
  · rfl

theorem has_setprop : (fdt.setprop path key value).Has path' ↔ fdt.Has path' := by
  simp only [Has, setprop, mem_map]
  constructor
  · rintro ⟨_, ⟨node, hmem, rfl⟩, hpath⟩
    exact ⟨node, hmem, (path_setprop_node node).symm.trans hpath⟩
  · rintro ⟨node, hmem, hpath⟩
    exact ⟨_, ⟨node, hmem, rfl⟩, (path_setprop_node node).trans hpath⟩

private theorem find_setprop :
    (fdt.setprop path key value).find? (fun node ↦ node.path = path') =
      (fdt.find? fun node ↦ node.path = path').map fun node ↦
        if node.path = path then { node with props := (key, value) :: node.props } else node := by
  simp only [setprop, find?_map, Function.comp_def, path_setprop_node]

theorem get_setprop_self (h : fdt.Has path) :
    (fdt.setprop path key value).get path key = value := by
  have hfound : ∃ node, fdt.find? (fun node ↦ node.path = path) = some node := by
    obtain ⟨node, hmem, hpath⟩ := h
    exact Option.isSome_iff_exists.mp (find?_isSome.mpr ⟨node, hmem, by simpa using hpath⟩)
  obtain ⟨node, hnode⟩ := hfound
  have hpath : node.path = path := by simpa using find?_some hnode
  simp [get, find_setprop, hnode, hpath]

theorem get_setprop_of_ne (h : path' ≠ path ∨ key' ≠ key) :
    (fdt.setprop path key value).get path' key' = fdt.get path' key' := by
  simp only [get, find_setprop]
  cases hnode : fdt.find? (fun node ↦ node.path = path') with
  | none => rfl
  | some node =>
    have hpath : node.path = path' := by simpa using find?_some hnode
    by_cases hsame : path' = path
    · have hkey : (key' == key) = false := by simpa using h.resolve_left (not_not.mpr hsame)
      simp [hpath, hsame, lookup_cons, hkey]
    · simp [hpath, hsame]

theorem addSubnode_eq_some (h : fdt.addSubnode parent name = some fdt') :
    ¬ fdt.Has (parent ++ [name]) ∧ fdt' = ⟨parent, name, []⟩ :: fdt := by
  unfold addSubnode at h
  split_ifs at h with hchild
  refine ⟨?_, (Option.some.inj h).symm⟩
  rintro ⟨node, hmem, hpath⟩
  obtain ⟨hparent, hname⟩ := append_inj' hpath rfl
  refine hchild (Option.isSome_map.trans (find?_isSome.mpr ⟨node, hmem, ?_⟩))
  simp [hparent, singleton_inj.mp hname, NodeName.answers_self]

theorem has_addSubnode (h : fdt.addSubnode parent name = some fdt') :
    fdt'.Has path ↔ path = parent ++ [name] ∨ fdt.Has path := by
  rw [(addSubnode_eq_some h).2]
  simp [Has, Node.path, eq_comm]

theorem Has.of_get (h : fdt.get path key = some value) : fdt.Has path := by
  obtain ⟨node, hnode, -⟩ := Option.bind_eq_some_iff.mp h
  exact ⟨node, mem_of_find?_eq_some hnode, by simpa using find?_some hnode⟩

/-- A node is added where there was none, so that every property stays. -/
theorem get_addSubnode (h : fdt.addSubnode parent name = some fdt')
    (hget : fdt.get path key = some value) : fdt'.get path key = some value := by
  obtain ⟨hfresh, rfl⟩ := addSubnode_eq_some h
  have hne : parent ++ [name] ≠ path := fun hpath ↦ hfresh (hpath ▸ Has.of_get hget)
  have hskip : (decide ((⟨parent, name, []⟩ : Node).path = path)) = false := decide_eq_false hne
  rw [get, find?_cons_of_neg (by simpa using hskip)]
  exact hget

end Fdt

end Bhx.DeviceTree
