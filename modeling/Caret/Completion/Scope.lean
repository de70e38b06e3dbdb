import Caret.Completion.Context
/-!
# `Caret.Completion.Scope` — the symbols that are visible at a cursor

Constants are visible everywhere. Static variables and functions are visible once their section has begun; local
variables after their declaration, within the blocks that enclose it; parameters throughout the body of their
function.

## Contents
- **Declarations.** `declared` symbols of a list of nodes, `priorTo` a position.
- **Locals.** `Node.locals` is what one enclosing node contributes, `Trail.locals` the contributions along a trail,
  outer ones first.
- **Visibility.** `Script.visible` in a context.
-/

namespace Caret

/-- The symbols of the declarations among some nodes, in order. -/
def declared (ns : List Node) : List Symbol :=
  ns.filterMap fun
    | .declaration d => d.name.symbol
    | _ => none

/-- The nodes that end strictly before a position. -/
def priorTo (ns : List Node) (p : Position) : List Node := ns.filter fun n => n.range.isBefore p

namespace CompilationUnit

/-- The static declarations as nodes. -/
def declarations (u : UnitNode) : List Node := u.statics.items.map .declaration

/-- The static variables of a unit. -/
def staticSymbols (u : UnitNode) : List Symbol := declared u.declarations

/-- The functions of a unit. -/
def functionSymbols (u : UnitNode) : List Symbol := u.functions.items.filterMap fun f => f.name.symbol

/-- The variables that the statements of a unit declare at its top level. -/
def statementSymbols (u : UnitNode) : List Symbol := declared u.statements.items

end CompilationUnit

/-! ## Local variables -/

/-- The symbols that an enclosing node contributes at a position: the declarations above it in a block, the
parameters in a function body, the variables of a loop. -/
def Node.locals (p : Position) : Node → List Symbol
  | .block g => declared (priorTo g.items p)
  | .function f => if f.body.range.contains p then f.parameters.items.filterMap fun q => q.name.symbol else []
  | .forLoop l =>
    match l.init with
    | some n => if n.range.isBefore p then declared [n] else []
    | none => []
  | .foreachLoop l => if l.body.range.contains p then l.name.symbol.toList else []
  | _ => []

/-- The local symbols at the end of a trail, those of outer nodes first. -/
def Trail.locals (t : Trail) (p : Position) : List Symbol := (t.nodes.reverse.map (Node.locals p)).flatten

/-- A block lies on the trail. -/
def Trail.inBlock (t : Trail) : Bool := t.nodes.any fun n => n.kind == .statementsList

/-! ## Visibility -/

namespace Script

/-- The symbols beside the constants that are visible between two sections of the unit. -/
def visibleInUnit (unit : UnitNode) (c : Context) : List Symbol :=
  match c.prev.map Node.kind with
  | some .staticVariablesList => unit.staticSymbols
  | some .functionsList => unit.staticSymbols ++ unit.functionSymbols
  | some .statementsList => unit.staticSymbols ++ unit.functionSymbols ++ unit.statementSymbols
  | _ => []

/-- The symbols beside the constants that are visible within the unit, outside the gaps between its sections and
declarations. -/
def visibleInBlock (unit : UnitNode) (c : Context) (p : Position) : List Symbol :=
  let origin := c.origin.or c.governing
  if c.rule == some .statements || (origin.map Trail.inBlock).getD false then
    unit.staticSymbols ++ unit.functionSymbols ++ (origin.map (Trail.locals · p)).getD []
  else []

/-- The symbols visible at a position, whose context is given. -/
def visible (s : Script) (c : Context) (p : Position) : List Symbol :=
  s.constants ++
    match c.region with
    | .afterLast => s.unit.staticSymbols ++ s.unit.functionSymbols ++ s.unit.statementSymbols
    | .noCode | .beforeFirst => []
    | .within =>
      match c.rule with
      | some .unit => visibleInUnit s.unit c
      | some .staticSection => declared (priorTo s.unit.declarations p)
      | some .functionSection => s.unit.staticSymbols ++ s.unit.functionSymbols
      | _ => visibleInBlock s.unit c p

end Script
end Caret
