import Caret.Tree.Node
/-!
# `Caret.Tree.Placement` — where the nodes of a tree may stand

Every child lies within its parent, and consecutive children come in order; they may touch and never overlap. A
tree that breaks this is answered with the first fault found: a node's own children are looked at before anything below
them, and of the subtrees the last one comes first.
-/

namespace Caret

/-- A node that does not stand where it may. -/
inductive PlacementFault where
  /-- The child reaches beyond its parent. -/
  | outside (child parent : Node)
  /-- The child starts before the end of the sibling that precedes it. -/
  | overlap (child sibling : Node)

namespace PlacementFault

/-- A node in a message: its kind and its range. -/
def nodeText? (n : Node) : Option String := n.range.text?.map fun range => n.kind.text ++ " at " ++ range

/-- What is said of a misplaced node, if the integers in it can be written. -/
def message? : PlacementFault → Option String
  | .outside child parent => do return (← nodeText? child) ++ " lies outside its parent " ++ (← nodeText? parent)
  | .overlap child sibling =>
    do return (← nodeText? child) ++ " overlaps or precedes its sibling " ++ (← nodeText? sibling)

end PlacementFault

namespace Node

/-- The child lies within the parent. -/
def encloses (parent child : Node) : Bool :=
  decide (parent.range.start ≤ child.range.start) && decide (child.range.stop ≤ parent.range.stop)

/-- The sibling before, if there is one, has ended when the child starts. -/
def follows (child : Node) : Option Node → Bool
  | none => true
  | some sibling => decide (sibling.range.stop ≤ child.range.start)

/-- The first misplaced one of some children of a parent, the first of which follows `previous`. -/
def misplacedAmong? (parent : Node) (previous : Option Node) : List Node → Option PlacementFault
  | [] => none
  | child :: rest =>
    if !parent.encloses child then some (.outside child parent)
    else if !child.follows previous then some (.overlap child (previous.getD child))
    else misplacedAmong? parent (some child) rest

/-- The first misplaced node of a tree. -/
def misplaced? : Node → Option PlacementFault :=
  fold fun n below => (n.misplacedAmong? none n.children).or (below.reverse.findSome? id)

theorem misplaced?_eq (n : Node) :
    n.misplaced? = (n.misplacedAmong? none n.children).or (n.children.reverse.findSome? misplaced?) := by
  rw [misplaced?, fold_eq, ← List.map_reverse, List.findSome?_map]
  rfl

end Node
end Caret
