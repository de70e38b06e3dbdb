import Caret.Document.Load
import Caret.Proofs.Records
/-!
# `Caret.Proofs.Unchecked` — building a script without looking at the form of the document

Drafts and bound nodes have types that leave no room for a record without its fields, a range that ends before it
starts or a parameter without a type. Here a script is built from a document as it stands, by a builder that takes
all of that for granted. Where it would need something that is not there, it has a mishap. Mishaps are told apart
from the errors with which a document is refused.

A builder of records with nodes inside takes the builder of those nodes as an argument, as readers do.

## Contents
- **Failures.** `Mishap`, `Failure`, `Built`.
- **Values.** What is taken off a record (`need`, `text`, `items`, `range`), a node (`typeOf`) or a symbol
  (`symbolType`).
- **Records.** `name`, `declaration`, `parameter`, `function`, `unit`, and `ofKind` for a node of any kind.
- **Documents.** `script`, `load`.
-/

namespace Caret

/-! ## Failures -/

/-- The value under a key; null counts as none. -/
def Data.given? (d : Data) (key : String) : Option Data :=
  match d.field? key with
  | some .null | none => none
  | some v => some v

namespace Unchecked

/-- **Mishaps.** What happens to a builder that takes something for granted which does not hold. -/
inductive Mishap where
  /-- A field is taken that the record does not have. -/
  | noField (key : String)
  /-- A value is taken as something that it is not: a text, a list, an integer or a flag. -/
  | wrongSort
  /-- A range is made of more or fewer than four integers. -/
  | notQuadruple
  /-- A range is made of two positions that come in the wrong order. -/
  | disorder (start stop : Position)
  /-- There is no way to build what the record states to be. -/
  | noBuilder
  /-- There is no sort of symbol for the word. -/
  | noSymbolKind (word : String)
  /-- The type is taken of something that has none. -/
  | noType

/-- Why nothing is built: the document is refused, or something is not as it was taken for granted. -/
inductive Failure where
  | refused (error : LoadError)
  | mishap (mishap : Mishap)

/-- What is built, or why it is not. -/
abbrev Built (α : Type) := Except Failure α

variable {α β : Type}

/-- What is bound; an error refuses the document. -/
def refuse (x : Bound α) : Built α := x.mapError fun e => .refused (.binding e)

/-! ## Values -/

/-- The value of a field. -/
def need (d : Data) (key : String) : Built Data :=
  match d.field? key with
  | some v => .ok v
  | none => .error (.mishap (.noField key))

/-- The value as a text. -/
def asText : Data → Built String
  | .text s => .ok s
  | _ => .error (.mishap .wrongSort)

/-- The value as a list. -/
def asItems : Data → Built (List Data)
  | .list vs => .ok vs
  | _ => .error (.mishap .wrongSort)

/-- The value as an integer. -/
def asInteger (v : Data) : Built Int :=
  match v.whole? with
  | some n => .ok n
  | none => .error (.mishap .wrongSort)

/-- The text in a field. -/
def text (d : Data) (key : String) : Built String := need d key >>= asText

/-- The text in a field, if there is one. -/
def text? (d : Data) (key : String) : Built (Option String) := (d.given? key).mapM asText

/-- The text in a field, or what stands for one that is left out. -/
def textOr (d : Data) (key default : String) : Built String :=
  match d.field? key with
  | some v => asText v
  | none => .ok default

/-- The items in a field; a field that is left out has none. -/
def items (d : Data) (key : String) : Built (List Data) :=
  match d.field? key with
  | some v => asItems v
  | none => .ok []

/-- The flag in a field; one that is left out is not set. -/
def flag (d : Data) (key : String) : Built Bool :=
  match d.flagAt? key with
  | some b => .ok b
  | none => .error (.mishap .wrongSort)

/-- The range between two positions. -/
def between (start stop : Position) : Built Range :=
  match Range.ofEnds? start stop with
  | some r => .ok r
  | none => .error (.mishap (.disorder start stop))

/-- The range of four integers. -/
def quadruple : List Int → Built Range
  | [a, b, c, d] => between ⟨a, b⟩ ⟨c, d⟩
  | _ => .error (.mishap .notQuadruple)

/-- The range of a record. -/
def range (d : Data) : Built Range := do
  let vs ← need d "range" >>= asItems
  let ns ← vs.mapM asInteger
  quadruple ns

/-- The type of a node. -/
def typeOf (n : Node) : Built ScriptType :=
  match n.type? with
  | some t => .ok t
  | none => .error (.mishap .noType)

/-- The type of a symbol. -/
def symbolType (s : Symbol) : Built ScriptType :=
  match s.type with
  | some t => .ok t
  | none => .error (.mishap .noType)

/-- A parameter of a signature, from its name and its symbol. -/
def signatureField (p : String × Symbol) : Built (Field (Option ScriptType)) := do return ⟨p.1, some (← symbolType p.2)⟩

/-- The signature of a function, from the symbols of its parameters. -/
def signature (returnType : ScriptType) (parameters : List (Parameter NameRef Node)) :
    Built (Signature ScriptType) := do
  let symbols := parameters.filterMap fun p => p.name.symbol.map fun s => (p.name.name, s)
  return ⟨some returnType, ← symbols.mapM signatureField⟩

/-! ## Records -/

section Nodes

variable (table : TypeTable)

/-- The symbol written at a name. -/
def symbol (note : Data) (default : Option ScriptType) : Built Symbol := do
  let type ← refuse (Binding.type? table (Binding.written? (← text? note "type")))
  match type.or default with
  | none => .error (.refused (.binding (.untypedSymbol (← text note "name"))))
  | some t =>
    let word ← text note "kind"
    match Schema.valueKinds.lookup word with
    | some kind => return .value (kind (← flag note "by_ref")) (← text note "name") (some t)
    | none => .error (.mishap (.noSymbolKind word))

/-- The symbol of a name: the one that is written, or else what its place gives it. -/
def symbolAt (d : Data) (type : Option ScriptType) (fromPlace : String → Built (Option Symbol)) :
    Built (Option Symbol) :=
  match d.given? "symbol" with
  | some note => some <$> symbol table note type
  | none => text d "name" >>= fromPlace

/-- A name. -/
def name (d : Data) (fromPlace : String → Built (Option Symbol)) : Built NameRef := do
  let type ← refuse (Binding.type? table (← text? d "type"))
  let symbol ← symbolAt table d type fromPlace
  return ⟨← range d, ← text d "name", symbol, type.or (symbol.bind Symbol.type)⟩

/-- A run of items. -/
def group (key : String) (build : Data → Built α) (d : Data) : Built (Group α) := do
  let r ← range d
  return ⟨r, ← (← items d key).mapM build⟩

variable (node : Data → Built Node)

/-- A node that has to be a value. -/
def expression (place : Place) (d : Data) : Built Node := do
  let n ← node d
  refuse (Binding.asExpression place n)

/-- A node that has to have a type. The type itself is taken off it later. -/
def typeNode (place : Place) (d : Data) : Built Node := do
  let n ← node d
  if n.type?.isNone then .error (.refused (.binding (.notType place n.kind))) else return n

/-- A declaration. -/
def declaration (kind : ValueKind) (d : Data) : Built (Declaration NameRef Node) := do
  let typeNode ← (d.given? "type_node").mapM node
  let named ← need d "name"
  let label ← text named "name"
  let initializer ← (d.given? "initializer").mapM (expression node (.initializer label))
  let type := (typeNode.bind Node.type?).or (initializer.bind Node.type?)
  let name ← name table named fun n => refuse (Binding.declared kind n type)
  return ⟨← range d, typeNode, name, initializer⟩

/-- A parameter. -/
def parameter (d : Data) : Built (Parameter NameRef Node) := do
  let typeNode ← need d "type_node" >>= typeNode node .parameterType
  let type ← typeOf typeNode
  let byRef ← flag d "by_ref"
  let named ← need d "name"
  let name ← name table named fun n => .ok (some (.value (.parameter byRef) n (some type)))
  return ⟨← range d, typeNode, name, byRef⟩

/-- A function. -/
def function (d : Data) : Built (FunctionDef NameRef Node) := do
  let returnNode ← need d "return_type" >>= typeNode node .returnType
  let parameters ← need d "parameters" >>= group "parameters" (parameter table node)
  let returnType ← typeOf returnNode
  let signature ← signature returnType parameters.items
  let named ← need d "name"
  let name ← name table named fun n => .ok (some (.function n signature))
  let body ← need d "body" >>= group "statements" node
  return ⟨← range d, returnNode, name, parameters, body⟩

/-- The static section. -/
def statics : Data → Built (Group (Declaration NameRef Node)) :=
  group "variables" (declaration table node .staticVariable)

/-- The function section. -/
def functions : Data → Built (Group (FunctionDef NameRef Node)) := group "functions" (function table node)

/-- A unit. -/
def unit (d : Data) : Built UnitNode := do
  let r ← range d
  let statics ← need d "variables" >>= statics table node
  let functions ← need d "functions" >>= functions table node
  let statements ← need d "statements" >>= group "statements" node
  return ⟨r, statics, functions, statements⟩

/-- A node of the given kind. -/
def ofKind (kind : NodeKind) (d : Data) : Built Node :=
  match kind with
  | .literal k => do return .literal (← range d) k
  | .plain k => Node.plain k <$> group "children" node d
  | .operation k => do
    let body ← group "children" node d
    return .operation k body (← refuse (Binding.type? table (← text? d "type")))
  | .nameExpression => Node.name <$> name table d fun _ => .ok none
  | .propertyAccess => do
    let callee ← need d "callee" >>= expression node .callee
    let r ← range d
    let n ← text d "name"
    match ← refuse (Binding.member callee (← text? d "member")) with
    | some p => return .access ⟨r, callee, n, some p, some p.type⟩
    | none => return .access ⟨r, callee, n, none, ← refuse (Binding.type? table (← text? d "type"))⟩
  | .method => do
    let owner ← text d "owner" >>= fun name => refuse (Binding.type table name)
    let m ← text d "method"
    match owner.methods.find? fun x => x.name == m with
    | some x => return .method (← range d) owner x
    | none => .error (.refused (.binding (.noMethod owner m)))
  | .binaryOperator => do
    let left ← need d "left" >>= expression node .operand
    let right ← need d "right" >>= expression node .operand
    if left.type?.isNone || right.type?.isNone then .error (.refused (.binding .untypedOperand))
    else
      let result ← text d "type" >>= fun name => refuse (Binding.type table name)
      return .binary (← range d) left right ⟨← text d "operator", ← typeOf left, ← typeOf right, result⟩
  | .predefinedType => do
    let r ← range d
    return .typeName r (← text d "type" >>= fun name => refuse (Binding.type table name))
  | .variableDeclaration => Node.declaration <$> declaration table node .localVariable d
  | .parameter => Node.parameter <$> parameter table node d
  | .parameterList => Node.parameters <$> group "parameters" (parameter table node) d
  | .statementsList => Node.block <$> group "statements" node d
  | .function => Node.function <$> function table node d
  | .forLoop => do
    let init ← (d.given? "init").mapM node
    let condition ← (d.given? "condition").mapM (expression node .condition)
    let update ← (d.given? "update").mapM node
    return .forLoop ⟨← range d, init, condition, update, ← need d "body" >>= node⟩
  | .foreachLoop => do
    let typeNode ← need d "type_node" >>= typeNode node .foreachType
    let type ← typeOf typeNode
    let named ← need d "name"
    let name ← name table named fun n => .ok (some (.value .localVariable n (some type)))
    let iterable ← need d "iterable" >>= expression node .iterable
    return .foreachLoop ⟨← range d, typeNode, name, iterable, ← need d "body" >>= node⟩
  | .staticVariablesList => Node.statics <$> statics table node d
  | .functionsList => Node.functions <$> functions table node d
  | .compilationUnit => Node.unit <$> unit table node d

/-- A node of the kind that the record states. -/
def anyNode (d : Data) : Built Node :=
  match d.kind? with
  | some kind => ofKind table node kind d
  | none => .error (.mishap .noBuilder)

end Nodes

/-- A node with other nodes inside it down to a bound. -/
def nodeWithin (table : TypeTable) : Nat → Data → Built Node
  | 0, _ => .error (.mishap .noBuilder)
  | bound + 1, d => anyNode table (nodeWithin table bound) d

/-- A node. -/
def node (table : TypeTable) (d : Data) : Built Node := nodeWithin table d.depth d

/-! ## Documents -/

/-- A name with the name of its type. -/
def field (d : Data) : Built (Field String) := do return ⟨← text d "name", ← text d "type"⟩

/-- A method; without a return type it returns nothing. -/
def method (d : Data) : Built (Method String) := do
  return ⟨← text d "name", ← textOr d "return" "void", ← (← items d "parameters").mapM field⟩

/-- A class of the host. -/
def typeEntry (d : Data) : Built (HostClass String) := do
  return Schema.hostClass (← text d "name") (← text? d "qualified_name") (← (← items d "properties").mapM field)
    (← (← items d "methods").mapM method)

/-- A whole script. -/
def script (d : Data) : Built Script := do
  let types ← (← items d "types").mapM typeEntry
  let table ← refuse (Binding.table types)
  let constants ← (← items d "constants").mapM field
  let constants ← refuse (constants.mapM (Binding.constant table))
  let record ← need d "unit"
  return ⟨← unit table (node table) record, constants⟩

/-- **The script that a document describes**, built without a further look at its form once it has the form of a
script. -/
def load (document : Data) : Built Script :=
  match Schema.script document with
  | .failed faults => .error (.refused (.schema faults))
  | .done _ => script document

end Unchecked
end Caret
