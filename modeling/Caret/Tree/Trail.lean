import Caret.Tree.Node
/-!
# `Caret.Tree.Trail` — a node together with its ancestors

A trail leads from a root to one node below it; each link records which child it stepped to. `Node.resolve` follows
the cursor down to the innermost node that contains it.

## Contents
- **Trails.** `node`, `parent?`, `links` (the trail and its ancestors, innermost first), `path` (the child indexes).
- **Finding.** `Node.descend` with its equation `descend_eq`, `Node.resolve`, `Node.at?`.
-/

namespace Caret

/-- A way down a tree, from its root to one node. -/
inductive Trail where
  | root (node : Node)
  | child (parent : Trail) (index : Nat) (node : Node)

namespace Trail

/-- The node at the end of the trail. -/
def node : Trail → Node
  | .root n => n
  | .child _ _ n => n

/-- The trail to the parent of the node, unless the node is the root. -/
def parent? : Trail → Option Trail
  | .root _ => none
  | .child t _ _ => some t

/-- The indexes of the children stepped to, from the root on. Within one tree it tells nodes apart. -/
def path : Trail → List Nat
  | .root _ => []
  | .child t i _ => t.path ++ [i]

/-- The trail and those of all ancestors, innermost first. -/
def links : Trail → List Trail
  | .root n => [.root n]
  | .child t i n => .child t i n :: t.links

/-- The node and all its ancestors, innermost first. -/
def nodes (t : Trail) : List Node := t.links.map node

@[simp] theorem nodes_root (n : Node) : (Trail.root n).nodes = [n] := rfl
@[simp] theorem nodes_child (t : Trail) (i : Nat) (n : Node) : (Trail.child t i n).nodes = n :: t.nodes := rfl

/-- Steps down along child indexes. -/
def follow (t : Trail) : List Nat → Option Trail
  | [] => some t
  | i :: rest =>
    match t.node.children[i]? with
    | some c => follow (.child t i c) rest
    | none => none

end Trail

namespace Node

/-- The first child that contains the position, with its index. -/
def childAt? (n : Node) (p : Position) : Option (Node × Nat) :=
  n.children.zipIdx.find? fun c => c.1.range.contains p

/-- Extends the trail to a node as far down as the nodes contain the position. -/
def descend (p : Position) : Node → Trail → Trail :=
  fold fun n below trail =>
    match n.childAt? p with
    | some (c, i) => (below.getD i id) (.child trail i c)
    | none => trail

theorem childAt?_index {n c : Node} {p : Position} {i : Nat} (h : n.childAt? p = some (c, i)) :
    n.children[i]? = some c :=
  List.mem_zipIdx_iff_getElem?.mp (List.mem_of_find?_eq_some h)

theorem childAt?_mem {n c : Node} {p : Position} {i : Nat} (h : n.childAt? p = some (c, i)) : c ∈ n.children :=
  List.mem_of_getElem? (childAt?_index h)

theorem childAt?_contains {n c : Node} {p : Position} {i : Nat} (h : n.childAt? p = some (c, i)) :
    c.range.contains p = true := by
  simpa using List.find?_some h

theorem childAt?_eq_none_iff {n : Node} {p : Position} :
    n.childAt? p = none ↔ ∀ c ∈ n.children, c.range.contains p = false := by
  unfold childAt?
  rw [List.find?_eq_none]
  constructor
  · intro h c m
    obtain ⟨i, hi⟩ := List.getElem?_of_mem m
    simpa using h (c, i) (List.mem_zipIdx_iff_getElem?.mpr hi)
  · rintro h ⟨c, i⟩ m
    simp [h c (List.mem_of_getElem? (List.mem_zipIdx_iff_getElem?.mp m))]

/-- Descending steps to the first child that contains the position, and stops when there is none. -/
theorem descend_eq (p : Position) (n : Node) (t : Trail) :
    n.descend p t = match n.childAt? p with
      | some (c, i) => c.descend p (.child t i c)
      | none => t := by
  rw [descend, fold_eq]
  cases h : n.childAt? p with
  | none => rfl
  | some ci =>
    obtain ⟨c, i⟩ := ci
    have hi : n.children[i]? = some c := childAt?_index h
    have hm : (n.children.map (descend p))[i]? = some (descend p c) := by simp [hi]
    show (n.children.map (descend p)).getD i id (Trail.child t i c) = c.descend p (.child t i c)
    rw [List.getD_eq_getElem?_getD, hm]
    rfl

/-- The trail to the innermost node that contains the position; none when the root does not. -/
def resolve (root : Node) (p : Position) : Option Trail :=
  if root.range.contains p then some (root.descend p (.root root)) else none

/-- The innermost node that contains the position. -/
def find? (root : Node) (p : Position) : Option Node := (root.resolve p).map Trail.node

/-- The trail along a path of child indexes. -/
def at? (root : Node) (path : List Nat) : Option Trail := (Trail.root root).follow path

end Node
end Caret
