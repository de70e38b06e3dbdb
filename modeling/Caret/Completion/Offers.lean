import Caret.Completion.Context
/-!
# `Caret.Completion.Offers` — what may be offered at a cursor

The sections of a script come in a fixed order, static variables, functions, statements, and what may be written at a
place depends on which sections are still to come there. Inside a section its rule decides.
-/

namespace Caret

/-- What may be offered in a context. -/
structure Offers where
  context : Context
  static : Bool := false
  void : Bool := false
  types : Bool := false
  statements : Bool := false
  symbols : Bool := false
  /-- The property access whose members are offered. -/
  members : Option (Access Node) := none

namespace Offers

/-- Statements may start before the next section: there is none, or it is that of the statements. -/
def statementsMayStart : Option Node → Bool
  | none => true
  | some n => n.kind == .statementsList

/-- Between the sections of a unit: what may come after the section before the cursor. -/
def inUnit (c : Context) : Except Inconsistency Offers :=
  match c.prev.map Node.kind with
  | none | some .staticVariablesList =>
    .ok { context := c, static := true, void := true, types := true, statements := statementsMayStart c.next }
  | some .functionsList => .ok { context := c, void := true, types := true, statements := true }
  | some .statementsList => .ok { context := c, statements := true }
  | some kind => .error (.unexpectedSection kind)

/-- The position comes after the name that the item declares. -/
def pastName (item : Node) (position : Option Position) : Bool :=
  match item, position with
  | .declaration d, some p => d.name.range.isBefore p
  | _, _ => false

/-- In the static section: a new declaration between two others, a value in an initializer, and nothing in the rest of a
declaration. -/
def inStaticSection (c : Context) (hasFunctions : Bool) : Offers :=
  match c.sectionItem? with
  | none => { context := c, static := true, void := !hasFunctions, types := !hasFunctions }
  | some item => { context := c, symbols := pastName item c.position }

/-- At a property access: the members of the callee, unless the name is already that of one. -/
def atMemberAccess (c : Context) : Except Inconsistency Offers :=
  match c.node? with
  | some (.access a) => .ok { context := c, members := if a.member.isNone then some a else none }
  | _ => .error .misplacedMemberRule

/-- What may be offered in a context of a unit. -/
def ofContext (unit : UnitNode) (c : Context) : Except Inconsistency Offers :=
  let hasStatics := !unit.statics.items.isEmpty
  let hasFunctions := !unit.functions.items.isEmpty
  let hasStatements := !unit.statements.items.isEmpty
  match c.region with
  | .noCode => .ok { context := c, static := true, void := true, types := true, statements := true }
  | .beforeFirst =>
    .ok { context := c, static := true, void := !hasStatics, types := !hasStatics,
          statements := !hasStatics && !hasFunctions }
  | .afterLast =>
    .ok { context := c, static := !hasFunctions && !hasStatements, void := !hasStatements, types := !hasStatements,
          statements := true }
  | .within =>
    match c.rule with
    | some .unit => inUnit c
    | some .staticSection => .ok (inStaticSection c hasFunctions)
    | some .functionSection => .ok { context := c, void := true, types := true }
    | some .statements => .ok { context := c, statements := true, symbols := true }
    | some .memberAccess => atMemberAccess c
    | some .empty => .ok { context := c }
    | some .defer => .error (.unhandled c.region c.rule)
    | none => .error (.unhandled c.region c.rule)

/-- What may be offered at a position of a unit. -/
def ofPosition (unit : UnitNode) (p : Position) : Except Inconsistency Offers :=
  match Context.locate unit p with
  | .ok c => ofContext unit c
  | .error e => .error e

end Offers
end Caret
