import Caret.Completion.Rule
import Caret.Tree.Trail
/-!
# `Caret.Completion.Context` — where a cursor sits in a script

The cursor is before, after or within the code. Within it, one node governs: the innermost one whose rule decides. Its
children next to the cursor, on either side, are recorded with it.

## Contents
- **Inconsistencies.** `Inconsistency`: why a position has no context, or a context allows no answer.
- **Neighbours.** `Node.neighbours`: the last child before and the first child after a position.
- **Governing node.** `Trail.decider?` climbs from the innermost node to the one whose rule decides, if there is one;
  `Trail.governing` takes the root when there is none.
- **Contexts.** `Context.locate` for a position in a unit, with its failures, and `Context.ofPosition` without them;
  `Context.sectionItem?` is the child of the governing node that holds the cursor.
-/

namespace Caret

/-- Where a cursor is relative to the code. -/
inductive Region where
  | noCode
  | beforeFirst
  | afterLast
  | within
  deriving DecidableEq, Repr, Inhabited

namespace Region

/-- The word for a region. -/
def text : Region → String
  | .noCode => "no_code"
  | .beforeFirst => "before_first"
  | .afterLast => "after_last"
  | .within => "within"

/-- The region that a word stands for. -/
def ofText? (word : String) : Option Region :=
  [Region.noCode, .beforeFirst, .afterLast, .within].find? fun r => r.text == word

/-- A region as messages about internal faults show it. -/
def display (r : Region) : String := "<ContextType." ++ r.text.map Char.toUpper ++ ": '" ++ r.text ++ "'>"

end Region

/-- Where a cursor sits. Within the code, `governing` leads to the node whose rule applies, `prev` is its last child
entirely before the cursor, `next` its first child entirely after it, and `origin` leads to the innermost node at
the cursor. -/
structure Context where
  region : Region
  governing : Option Trail := none
  prev : Option Node := none
  next : Option Node := none
  rule : Option Rule := none
  origin : Option Trail := none
  position : Option Position := none

/-! ## Inconsistencies -/

/-- Why a position has no context, or a context cannot be classified. -/
inductive Inconsistency where
  /-- The position is neither in the code nor before or after it. -/
  | nowhere (position : Position)
  /-- Every node at the position leaves the decision to another one. -/
  | undecided (position : Position)
  /-- A section of a unit is expected before the cursor, and something else is there. -/
  | unexpectedSection (kind : NodeKind)
  /-- The rule for member access at a node that is no property access. -/
  | misplacedMemberRule
  | unhandled (region : Region) (rule : Option Rule)
  deriving DecidableEq, Repr

/-- What is said of an inconsistency, if the integers in it can be written. -/
def Inconsistency.message? : Inconsistency → Option String
  | .nowhere p => p.text?.map fun place => "Cursor " ++ place ++ " is neither inside nor outside the unit"
  | .undecided p => p.text?.map fun place => "No node on the path to " ++ place ++ " has a completion rule"
  | .unexpectedSection kind => some ("Unexpected compilation unit section " ++ kind.display)
  | .misplacedMemberRule => some "Member access rule applied to"
  | .unhandled region rule =>
    some ("Unhandled completion context " ++ region.display ++ " / " ++ (rule.map Rule.display).getD "None")

/-! ## Neighbours -/

namespace Node

/-- The last of some children before the position, `prev` if there is none, and the first one after it. -/
def neighboursAmong (p : Position) (prev : Option Node) : List Node → Option Node × Option Node
  | [] => (prev, none)
  | c :: cs =>
    if c.range.isBefore p then neighboursAmong p (some c) cs
    else if c.range.isAfter p then (prev, some c)
    else neighboursAmong p prev cs

/-- The children of a node on either side of a position. -/
def neighbours (n : Node) (p : Position) : Option Node × Option Node := neighboursAmong p none n.children

end Node

/-! ## The governing node -/

/-- A rule decides at a node. Member access decides only where the cursor itself is: further down it is in the
callee. -/
def Rule.decides (innermost : Bool) : Rule → Bool
  | .defer => false
  | .memberAccess => innermost
  | _ => true

namespace Trail

/-- The trail to the first node, going up, whose rule decides. -/
def decider? (innermost : Bool) : Trail → Option Trail
  | .root n => if n.kind.rule.decides innermost then some (.root n) else none
  | .child t i n => if n.kind.rule.decides innermost then some (.child t i n) else decider? false t

/-- Climbs to the first node whose rule decides; the root decides in any case. -/
def climb (innermost : Bool) : Trail → Trail
  | .root n => .root n
  | .child t i n => if n.kind.rule.decides innermost then .child t i n else climb false t

/-- The trail to the node that governs at the end of a trail. -/
def governing (t : Trail) : Trail := t.climb true

/-- Two optional trails in one tree lead to the same node, or both are absent. -/
def same : Option Trail → Option Trail → Bool
  | none, none => true
  | some s, some t => s.path == t.path
  | _, _ => false

end Trail

/-! ## Contexts -/

namespace Context

/-- The context within the code, at the end of a trail, with the node that governs there. -/
def within (governing origin : Trail) (p : Position) : Context :=
  let (prev, next) := governing.node.neighbours p
  { region := .within, governing := some governing, prev := prev, next := next,
    rule := some governing.node.kind.rule, origin := some origin, position := some p }

/-- The context of a position in a unit, or why there is none. -/
def locate (unit : UnitNode) (p : Position) : Except Inconsistency Context :=
  if unit.isEmpty then .ok { region := .noCode }
  else
    match (Node.unit unit).resolve p with
    | some origin =>
      match origin.decider? true with
      | some governing => .ok (within governing origin p)
      | none => .error (.undecided p)
    | none =>
      if unit.range.isAfter p then .ok { region := .beforeFirst }
      else if unit.range.isBefore p then .ok { region := .afterLast }
      else .error (.nowhere p)

/-- The context of a position in a unit, taking the root to govern where no rule decides and what is not before the
code to come after it. -/
def ofPosition (unit : UnitNode) (p : Position) : Context :=
  if unit.isEmpty then { region := .noCode }
  else
    match (Node.unit unit).resolve p with
    | some origin => within origin.governing origin p
    | none => if unit.range.isAfter p then { region := .beforeFirst } else { region := .afterLast }

/-- The node that governs. -/
def node? (c : Context) : Option Node := c.governing.map Trail.node

/-- The child of the governing node that holds the cursor. -/
def sectionItem? (c : Context) : Option Node :=
  match c.origin with
  | none => none
  | some origin => (origin.links.find? fun link => Trail.same link.parent? c.governing).map Trail.node

end Context
end Caret
