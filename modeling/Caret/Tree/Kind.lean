/-!
# `Caret.Tree.Kind` — the kinds of nodes in a bound tree

There are 28 kinds. Three families of them share one shape each and have a type of their own: literals, nodes that only
hold other nodes, and operations with an optional result type.
-/

namespace Caret

/-- Kinds of literals. -/
inductive LiteralKind where
  | boolean | integer | char | float | string
  deriving DecidableEq, Repr, Inhabited

/-- Kinds of nodes that only hold other nodes: most statements, and argument lists. -/
inductive PlainKind where
  | expressionStatement | assignmentStatement | ifStatement | whileLoop | returnStatement | argumentsList
  deriving DecidableEq, Repr, Inhabited

/-- Kinds of expressions that hold other nodes and may have a type. -/
inductive OperationKind where
  | methodCall | unaryOperator
  deriving DecidableEq, Repr, Inhabited

/-- Every kind of node. -/
inductive NodeKind where
  | compilationUnit | staticVariablesList | functionsList | statementsList
  | function | parameterList | parameter | variableDeclaration
  | forLoop | foreachLoop
  | nameExpression | propertyAccess | method | binaryOperator | predefinedType
  | plain (kind : PlainKind)
  | operation (kind : OperationKind)
  | literal (kind : LiteralKind)
  deriving DecidableEq, Repr, Inhabited

namespace NodeKind

/-- Every kind, once. -/
def all : List NodeKind :=
  [.compilationUnit, .staticVariablesList, .functionsList, .statementsList, .function, .parameterList, .parameter,
   .variableDeclaration, .plain .expressionStatement, .plain .assignmentStatement, .plain .ifStatement,
   .plain .whileLoop, .forLoop, .foreachLoop, .plain .returnStatement, .nameExpression, .propertyAccess,
   .operation .methodCall, .method, .plain .argumentsList, .binaryOperator, .operation .unaryOperator, .predefinedType,
   .literal .boolean, .literal .integer, .literal .char, .literal .float, .literal .string]

theorem mem_all (k : NodeKind) : k ∈ all := by
  rcases k with _ | _ | _ | _ | _ | _ | _ | _ | _ | _ | _ | _ | _ | _ | _ | k | k | k
  all_goals first | decide | (cases k <;> decide)

/-- The word for a kind, as documents and messages spell it. -/
def text : NodeKind → String
  | .compilationUnit => "compilation_unit"
  | .staticVariablesList => "static_variables_list"
  | .functionsList => "functions_list"
  | .statementsList => "statements_list"
  | .function => "function"
  | .parameterList => "parameter_list"
  | .parameter => "parameter"
  | .variableDeclaration => "variable_declaration"
  | .forLoop => "for_loop"
  | .foreachLoop => "foreach_loop"
  | .nameExpression => "name_expression"
  | .propertyAccess => "property_access_expression"
  | .method => "method"
  | .binaryOperator => "binary_operator"
  | .predefinedType => "predefined_type"
  | .plain .expressionStatement => "expression_statement"
  | .plain .assignmentStatement => "assignment_statement"
  | .plain .ifStatement => "if_statement"
  | .plain .whileLoop => "while_loop"
  | .plain .returnStatement => "return_statement"
  | .plain .argumentsList => "arguments_list"
  | .operation .methodCall => "method_call"
  | .operation .unaryOperator => "unary_operator"
  | .literal .boolean => "boolean_literal"
  | .literal .integer => "integer_literal"
  | .literal .char => "char_literal"
  | .literal .float => "float_literal"
  | .literal .string => "string_literal"

/-- The kind that a word stands for. -/
def ofText? (word : String) : Option NodeKind := all.find? fun k => k.text == word

/-- Two kinds have two words. -/
theorem text_injective {k l : NodeKind} (h : k.text = l.text) : k = l := by
  have table : ∀ k ∈ all, ∀ l ∈ all, k.text = l.text → k = l := by decide
  exact table k (mem_all k) l (mem_all l) h

theorem ofText?_eq_some_iff {word : String} {k : NodeKind} : ofText? word = some k ↔ k.text = word := by
  unfold ofText?
  constructor
  · intro h
    simpa using List.find?_some h
  · rintro rfl
    cases hf : all.find? fun l => l.text == k.text with
    | none => exact absurd (List.find?_eq_none.mp hf k (mem_all k)) (by simp)
    | some l =>
      have same : l.text = k.text := by simpa using List.find?_some hf
      rw [text_injective same]

@[simp] theorem ofText?_text (k : NodeKind) : ofText? k.text = some k := ofText?_eq_some_iff.mpr rfl

/-- A kind as messages about internal faults show it: `<NodeKind.NAME: 'name'>`. -/
def display (k : NodeKind) : String := "<NodeKind." ++ k.text.map Char.toUpper ++ ": '" ++ k.text ++ "'>"

end NodeKind
end Caret
