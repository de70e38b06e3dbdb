import Caret.Text.Quoted
import Caret.Tree.Kind
/-!
# `Caret.Completion.Rule` — how a node shapes what is offered inside it

Every kind of node has a rule. A node with the rule `defer` leaves the decision to its nearest ancestor that decides.
-/

namespace Caret

/-- How a node shapes completion inside it. -/
inductive Rule where
  | unit
  /-- Gaps between static declarations, and their initializers. -/
  | staticSection
  | functionSection
  | statements
  | memberAccess
  /-- Nothing is offered. -/
  | empty
  /-- The nearest ancestor with another rule decides. -/
  | defer
  deriving DecidableEq, Repr, Inhabited

namespace Rule

/-- The word for a rule. -/
def text : Rule → String
  | .unit => "unit"
  | .staticSection => "static_section"
  | .functionSection => "function_section"
  | .statements => "statements"
  | .memberAccess => "member_access"
  | .empty => "empty"
  | .defer => "defer"

/-- Every rule. -/
def all : List Rule := [.unit, .staticSection, .functionSection, .statements, .memberAccess, .empty, .defer]

/-- The rule that a word stands for. -/
def ofText? (word : String) : Option Rule := all.find? fun r => r.text == word

/-- A rule as messages about internal faults show it. -/
def display (r : Rule) : String := "<ContextRule." ++ r.text.map Char.toUpper ++ ": '" ++ r.text ++ "'>"

end Rule

/-- The rule of a kind of node. -/
def NodeKind.rule : NodeKind → Rule
  | .compilationUnit => .unit
  | .staticVariablesList => .staticSection
  | .functionsList => .functionSection
  | .statementsList => .statements
  | .function | .parameterList | .parameter => .empty
  | .propertyAccess => .memberAccess
  | .literal _ => .empty
  | .variableDeclaration | .forLoop | .foreachLoop | .nameExpression | .method | .binaryOperator | .predefinedType
  | .plain _ | .operation _ => .defer

/-- The rule of the kind that a word stands for. -/
def Rule.ofKindText? (word : String) : Option Rule := (NodeKind.ofText? word).map NodeKind.rule

/-- What is said of a word that stands for no kind of node. -/
def Rule.unknownKindText (word : String) : String := "No completion rule for node kind " ++ Text.quoted word

end Caret
