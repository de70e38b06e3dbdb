import Caret.Document.Draft
import Caret.Document.TypeTable
import Caret.Text.Quoted
import Caret.Tree.Node
/-!
# `Caret.Document.Binding` — from names to types and symbols

Binding looks up every type name of a draft, gives declared names their symbols, and checks that values stand where
values are needed. It stops at the first name that cannot be bound.

## Contents
- **Errors.** `BindingError` with its `message`; `Place` says which part of a node was being bound.
- **Names.** `Binding.name` decides symbol and type of a name.
- **Nodes.** `Binding.node` and the functions for its parts, by recursion on the draft.
- **Scripts.** `Binding.script` declares the types, then binds constants and unit.
-/

namespace Caret

/-- A part of a node that takes only a value or only a type. -/
inductive Place where
  | initializer (name : String)
  | condition
  | iterable
  | callee
  | operand
  | returnType
  | parameterType
  | foreachType
  deriving DecidableEq, Repr

/-- The words for a place. -/
def Place.text : Place → String
  | .initializer name => "Initializer of '" ++ name ++ "'"
  | .condition => "For-loop condition"
  | .iterable => "Foreach iterable"
  | .callee => "Property access callee"
  | .operand => "Binary operand"
  | .returnType => "Function return type"
  | .parameterType => "Parameter type"
  | .foreachType => "Foreach variable type"

/-- Why a draft cannot be bound. -/
inductive BindingError where
  | unknownType (name : String)
  | untypedSymbol (name : String)
  | notExpression (place : Place) (kind : NodeKind)
  | notType (place : Place) (kind : NodeKind)
  /-- A variable with neither a written type nor an initializer that has one. -/
  | uninferable (name : String)
  | noProperty (owner : ScriptType) (name : String)
  | noMethod (owner : ScriptType) (name : String)
  | untypedOperand

/-- What is said of a draft that cannot be bound. -/
def BindingError.message : BindingError → String
  | .unknownType name => "Unknown type reference " ++ Text.quoted name
  | .untypedSymbol name => "Symbol '" ++ name ++ "' has no type"
  | .notExpression place kind => place.text ++ " must be an expression, got " ++ kind.text
  | .notType place kind => place.text ++ " must be a type node, got " ++ kind.text
  | .uninferable name => "Cannot infer the type of variable '" ++ name ++ "'"
  | .noProperty owner name => "Type " ++ owner.name ++ " has no property " ++ Text.quoted name
  | .noMethod owner name => "Type " ++ owner.name ++ " has no method " ++ Text.quoted name
  | .untypedOperand => "Binary operator operands must carry types"

/-- A bound thing, or the reason why it cannot be bound. -/
abbrev Bound (α : Type) := Except BindingError α

namespace Binding

/-! ## Types -/

/-- The type under a name. -/
def type (table : TypeTable) (name : String) : Bound ScriptType :=
  match table.get? name with
  | some t => .ok t
  | none => .error (.unknownType name)

/-- The type under a name, if a name is written. -/
def type? (table : TypeTable) : Option String → Bound (Option ScriptType)
  | none => .ok none
  | some name => some <$> type table name

/-- A name with its type. -/
def field (table : TypeTable) (f : Field String) : Bound (Field ScriptType) :=
  Field.mk f.name <$> type table f.type

/-- A method with its types. -/
def method (table : TypeTable) (m : Method String) : Bound (Method ScriptType) := do
  let returnType ← type table m.returnType
  let parameters ← m.parameters.mapM (field table)
  return ⟨m.name, returnType, parameters⟩

/-- The table with the class of the host declared in it. -/
def declare (table : TypeTable) (c : HostClass String) : Bound TypeTable := do
  let properties ← c.properties.mapM (field table)
  let methods ← c.methods.mapM (method table)
  return table.declare c.name (.host ⟨c.name, c.qualifiedName, properties, methods⟩)

/-- The table of a document that declares these classes, in order. -/
def table (types : List (HostClass String)) : Bound TypeTable := types.foldlM declare TypeTable.builtIn

/-! ## Symbols and names -/

/-- A type name that is written; an empty one counts as not written. -/
def written? : Option String → Option String
  | some name => if name.isEmpty then none else some name
  | none => none

/-- The symbol written at a name; without a type of its own it has the given one. -/
def symbol (table : TypeTable) (note : Draft.SymbolNote) (default : Option ScriptType) : Bound Symbol := do
  match ← type? table (written? note.type) |>.map (·.or default) with
  | some t => return .value note.kind note.name (some t)
  | none => throw (.untypedSymbol note.name)

/-- A name. Its symbol is the one written at it, or else what its place gives it. It has the written type, or else
that of its symbol. -/
def name (table : TypeTable) (n : Draft.Name) (fromPlace : Bound (Option Symbol)) : Bound NameRef := do
  let type ← type? table n.type
  let symbol ← match n.symbol with
    | some note => some <$> symbol table note type
    | none => fromPlace
  return ⟨n.range, n.name, symbol, type.or (symbol.bind Symbol.type)⟩

/-- The symbol of a declared variable, whose type has to be known. -/
def declared (kind : ValueKind) (name : String) : Option ScriptType → Bound (Option Symbol)
  | some t => .ok (some (.value kind name (some t)))
  | none => .error (.uninferable name)

/-- The node, which has to be a value. -/
def asExpression (place : Place) (n : Node) : Bound Node :=
  if n.isExpression then .ok n else .error (.notExpression place n.kind)

/-- The type that a node stands for, of which there has to be one. -/
def asType (place : Place) (n : Node) : Bound ScriptType :=
  match n.type? with
  | some t => .ok t
  | none => .error (.notType place n.kind)

/-- The signature of a function with these parameters. -/
def signature (returnType : ScriptType) (parameters : List (Parameter NameRef Node)) : Signature ScriptType :=
  ⟨some returnType, parameters.filterMap fun p => p.name.symbol.map fun s => ⟨p.name.name, s.type⟩⟩

/-- The property that a written member name stands for. Without a type of the callee the member stays open. -/
def member (callee : Node) : Option String → Bound (Option (Field ScriptType))
  | none => .ok none
  | some name =>
    match callee.type? with
    | none => .ok none
    | some owner =>
      match owner.properties.find? fun p => p.name == name with
      | some p => .ok (some p)
      | none => .error (.noProperty owner name)

/-- The types of the two operands. -/
def operandTypes (left right : Node) : Bound (ScriptType × ScriptType) :=
  match left.type?, right.type? with
  | some l, some r => .ok (l, r)
  | _, _ => .error .untypedOperand

/-! ## Nodes -/

section Nodes

variable (table : TypeTable)

mutual

/-- A node. -/
def node : Draft.Node → Bound Node
  | .literal r k => .ok (.literal r k)
  | .plain k g => Node.plain k <$> group g
  | .operation k g t => do
    let body ← group g
    return .operation k body (← type? table t)
  | .name n => Node.name <$> name table n (.ok none)
  | .access r callee n m t => do
    let callee ← node callee >>= asExpression .callee
    match ← member callee m with
    | some p => return .access ⟨r, callee, n, some p, some p.type⟩
    | none => return .access ⟨r, callee, n, none, ← type? table t⟩
  | .method r owner m => do
    let owner ← type table owner
    match owner.methods.find? fun x => x.name == m with
    | some x => return .method r owner x
    | none => throw (.noMethod owner m)
  | .binary r operator t left right => do
    let left ← node left >>= asExpression .operand
    let right ← node right >>= asExpression .operand
    let (l, rt) ← operandTypes left right
    let result ← type table t
    return .binary r left right ⟨operator, l, rt, result⟩
  | .typeName r t => Node.typeName r <$> type table t
  | .declaration d => Node.declaration <$> declaration .localVariable d
  | .parameter p => Node.parameter <$> parameter p
  | .parameters g => Node.parameters <$> parameters g
  | .block g => Node.block <$> group g
  | .function f => Node.function <$> function f
  | .forLoop ⟨r, i, c, u, b⟩ => do
    let init ← option i
    let condition ← (← option c).mapM (asExpression .condition)
    let update ← option u
    return .forLoop ⟨r, init, condition, update, ← node b⟩
  | .foreachLoop ⟨r, t, n, i, b⟩ => do
    let typeNode ← node t
    let type ← asType .foreachType typeNode
    let name ← name table n (declared .localVariable n.name (some type))
    let iterable ← node i >>= asExpression .iterable
    return .foreachLoop ⟨r, typeNode, name, iterable, ← node b⟩
  | .statics g => Node.statics <$> statics g
  | .functions g => Node.functions <$> functions g
  | .unit u => Node.unit <$> unit u

/-- The nodes of a block. -/
def group : Group Draft.Node → Bound (Group Node)
  | ⟨r, ns⟩ => Group.mk r <$> list ns

/-- Nodes, the first one first. -/
def list : List Draft.Node → Bound (List Node)
  | [] => .ok []
  | n :: ns => do return (← node n) :: (← list ns)

/-- A node, if there is one. -/
def option : Option Draft.Node → Bound (Option Node)
  | none => .ok none
  | some n => some <$> node n

/-- A declaration; its symbol has the type that is written, or else that of the initializer. -/
def declaration (kind : ValueKind) : Declaration Draft.Name Draft.Node → Bound (Declaration NameRef Node)
  | ⟨r, t, n, i⟩ => do
    let typeNode ← option t
    let initializer ← (← option i).mapM (asExpression (.initializer n.name))
    let type := (typeNode.bind Node.type?).or (initializer.bind Node.type?)
    return ⟨r, typeNode, ← name table n (declared kind n.name type), initializer⟩

/-- The static section; what it declares is static. -/
def statics : Group (Declaration Draft.Name Draft.Node) → Bound (Group (Declaration NameRef Node))
  | ⟨r, ds⟩ => Group.mk r <$> declarationList ds

/-- Static declarations, the first one first. -/
def declarationList : List (Declaration Draft.Name Draft.Node) → Bound (List (Declaration NameRef Node))
  | [] => .ok []
  | d :: ds => do return (← declaration .staticVariable d) :: (← declarationList ds)

/-- A parameter. -/
def parameter : Parameter Draft.Name Draft.Node → Bound (Parameter NameRef Node)
  | ⟨r, t, n, byRef⟩ => do
    let typeNode ← node t
    let type ← asType .parameterType typeNode
    return ⟨r, typeNode, ← name table n (declared (.parameter byRef) n.name (some type)), byRef⟩

/-- A parameter list. -/
def parameters : Group (Parameter Draft.Name Draft.Node) → Bound (Group (Parameter NameRef Node))
  | ⟨r, ps⟩ => Group.mk r <$> parameterList ps

/-- Parameters, the first one first. -/
def parameterList : List (Parameter Draft.Name Draft.Node) → Bound (List (Parameter NameRef Node))
  | [] => .ok []
  | p :: ps => do return (← parameter p) :: (← parameterList ps)

/-- A function; its symbol has the signature that its return type and parameters give. -/
def function : FunctionDef Draft.Name Draft.Node → Bound (FunctionDef NameRef Node)
  | ⟨r, t, n, ps, b⟩ => do
    let returnNode ← node t
    let returnType ← asType .returnType returnNode
    let parameters ← parameters ps
    let name ← name table n (.ok (some (.function n.name (signature returnType parameters.items))))
    return ⟨r, returnNode, name, parameters, ← group b⟩

/-- The function section. -/
def functions : Group (FunctionDef Draft.Name Draft.Node) → Bound (Group (FunctionDef NameRef Node))
  | ⟨r, fs⟩ => Group.mk r <$> functionList fs

/-- Functions, the first one first. -/
def functionList : List (FunctionDef Draft.Name Draft.Node) → Bound (List (FunctionDef NameRef Node))
  | [] => .ok []
  | f :: fs => do return (← function f) :: (← functionList fs)

/-- A unit, section by section. -/
def unit : CompilationUnit Draft.Name Draft.Node → Bound UnitNode
  | ⟨r, vs, fs, ss⟩ => do return ⟨r, ← statics vs, ← functions fs, ← group ss⟩

end

end Nodes

/-- A constant of the host. -/
def constant (table : TypeTable) (c : Field String) : Bound Symbol :=
  (fun t => .value .constant c.name (some t)) <$> type table c.type

/-- A whole script. -/
def script (s : Draft.Script) : Bound Script := do
  let table ← table s.types
  let constants ← s.constants.mapM (constant table)
  return ⟨← unit table s.unit, constants⟩

end Binding
end Caret
