import Caret.Document.Draft
import Caret.Document.Reading
/-!
# `Caret.Document.Schema` — the form of a document

Each reader below states the fields of one kind of record: their keys, which of them may be left out, and what they
hold. Readers of records with nodes inside take the reader of those nodes as an argument, so that the one recursion,
on how deep nodes are nested, stands in `Schema.nodeWithin`.

Nodes may be nested as deep as one likes. A limit on the depth of the recursion, at which a validator gives up on nodes
nested too deep, is left aside here: a value is refused only for its form.
-/

namespace Caret.Schema

open Reading

/-! ## Types and constants of the host -/

/-- A name with the name of its type. -/
def field : Data → Reading (Field String) :=
  tableOf fun fs => Field.mk <$> required "name" text fs <*> required "type" text fs

/-- A method; without a return type it returns nothing. -/
def method : Data → Reading (Method String) :=
  tableOf fun fs =>
    Method.mk <$> required "name" text fs <*> optional "return" "void" text fs
      <*> optional "parameters" [] (listOf field) fs

/-- The qualified name of a class is its plain name unless another one is written. -/
def hostClass (name : String) (qualified : Option String) (properties : List (Field String))
    (methods : List (Method String)) : HostClass String :=
  ⟨name, match qualified with
    | some q => if q.isEmpty then name else q
    | none => name, properties, methods⟩

/-- A class of the host. -/
def typeEntry : Data → Reading (HostClass String) :=
  tableOf fun fs =>
    hostClass <$> required "name" text fs <*> optional "qualified_name" none (nullable text) fs
      <*> optional "properties" [] (listOf field) fs <*> optional "methods" [] (listOf method) fs

/-! ## Names -/

/-- The words for the kinds of values; whether a parameter is taken by reference is written apart. -/
def valueKinds : List (String × (Bool → ValueKind)) :=
  [("constant", fun _ => .constant), ("static", fun _ => .staticVariable), ("local", fun _ => .localVariable),
   ("parameter", .parameter)]

/-- A symbol written at a name. -/
def symbolNote : Data → Reading Draft.SymbolNote :=
  tableOf fun fs =>
    (fun kind name type byRef => ⟨kind byRef, name, type⟩) <$> required "kind" (oneOf valueKinds) fs
      <*> required "name" text fs <*> optional "type" none (nullable text) fs <*> optional "by_ref" false flag fs

/-- The record is of the given kind. -/
def kindIs (kind : NodeKind) (fs : List (String × Data)) : Reading Unit :=
  required "kind" (oneOf [(kind.text, ())]) fs

/-- A slot that takes one kind of record. -/
def fixed {α : Type} (kind : NodeKind) (read : List (String × Data) → Reading α) : Data → Reading α :=
  tableOf fun fs => (fun _ a => a) <$> kindIs kind fs <*> read fs

/-- The fields of a name. -/
def nameFields (fs : List (String × Data)) : Reading Draft.Name :=
  Draft.Name.mk <$> required "range" range fs <*> required "name" text fs
    <*> optional "type" none (nullable text) fs <*> optional "symbol" none (nullable symbolNote) fs

/-- A slot that takes a name. -/
def name : Data → Reading Draft.Name := fixed .nameExpression nameFields

/-! ## Records with nodes inside -/

section Nodes

variable {N : Type} (node : Data → Reading N)

/-- The fields of a run of items under the given key. -/
def groupFields {α : Type} (key : String) (read : Data → Reading α) (fs : List (String × Data)) : Reading (Group α) :=
  Group.mk <$> required "range" range fs <*> optional key [] (listOf read) fs

/-- The fields of a declaration. -/
def declarationFields (fs : List (String × Data)) : Reading (Declaration Draft.Name N) :=
  Declaration.mk <$> required "range" range fs <*> optional "type_node" none (nullable node) fs
    <*> required "name" name fs <*> optional "initializer" none (nullable node) fs

/-- The fields of a parameter. -/
def parameterFields (fs : List (String × Data)) : Reading (Parameter Draft.Name N) :=
  Parameter.mk <$> required "range" range fs <*> required "type_node" node fs <*> required "name" name fs
    <*> optional "by_ref" false flag fs

/-- The fields of a parameter list. -/
def parametersFields : List (String × Data) → Reading (Group (Parameter Draft.Name N)) :=
  groupFields "parameters" (fixed .parameter (parameterFields node))

/-- The fields of a block. -/
def blockFields : List (String × Data) → Reading (Group N) := groupFields "statements" node

/-- The fields of a function. -/
def functionFields (fs : List (String × Data)) : Reading (FunctionDef Draft.Name N) :=
  FunctionDef.mk <$> required "range" range fs <*> required "return_type" node fs <*> required "name" name fs
    <*> required "parameters" (fixed .parameterList (parametersFields node)) fs
    <*> required "body" (fixed .statementsList (blockFields node)) fs

/-- The fields of a counting loop. -/
def forLoopFields (fs : List (String × Data)) : Reading (ForLoop N) :=
  ForLoop.mk <$> required "range" range fs <*> optional "init" none (nullable node) fs
    <*> optional "condition" none (nullable node) fs <*> optional "update" none (nullable node) fs
    <*> required "body" node fs

/-- The fields of a loop over items. -/
def foreachLoopFields (fs : List (String × Data)) : Reading (ForeachLoop Draft.Name N) :=
  ForeachLoop.mk <$> required "range" range fs <*> required "type_node" node fs <*> required "name" name fs
    <*> required "iterable" node fs <*> required "body" node fs

/-- The fields of the static section. -/
def staticsFields : List (String × Data) → Reading (Group (Declaration Draft.Name N)) :=
  groupFields "variables" (fixed .variableDeclaration (declarationFields node))

/-- The fields of the function section. -/
def functionsFields : List (String × Data) → Reading (Group (FunctionDef Draft.Name N)) :=
  groupFields "functions" (fixed .function (functionFields node))

/-- The fields of a unit. -/
def unitFields (fs : List (String × Data)) : Reading (CompilationUnit Draft.Name N) :=
  CompilationUnit.mk <$> required "range" range fs
    <*> required "variables" (fixed .staticVariablesList (staticsFields node)) fs
    <*> required "functions" (fixed .functionsList (functionsFields node)) fs
    <*> required "statements" (fixed .statementsList (blockFields node)) fs

end Nodes

/-- The fields of a node of the given kind. -/
def nodeFields (node : Data → Reading Draft.Node) (kind : NodeKind) (fs : List (String × Data)) : Reading Draft.Node :=
  match kind with
  | .literal k => (Draft.Node.literal · k) <$> required "range" range fs
  | .plain k => Draft.Node.plain k <$> groupFields "children" node fs
  | .operation k =>
    Draft.Node.operation k <$> groupFields "children" node fs <*> optional "type" none (nullable text) fs
  | .nameExpression => Draft.Node.name <$> nameFields fs
  | .propertyAccess =>
    Draft.Node.access <$> required "range" range fs <*> required "callee" node fs <*> required "name" text fs
      <*> optional "member" none (nullable text) fs <*> optional "type" none (nullable text) fs
  | .method =>
    Draft.Node.method <$> required "range" range fs <*> required "owner" text fs <*> required "method" text fs
  | .binaryOperator =>
    Draft.Node.binary <$> required "range" range fs <*> required "operator" text fs <*> required "type" text fs
      <*> required "left" node fs <*> required "right" node fs
  | .predefinedType => Draft.Node.typeName <$> required "range" range fs <*> required "type" text fs
  | .variableDeclaration => Draft.Node.declaration <$> declarationFields node fs
  | .parameter => Draft.Node.parameter <$> parameterFields node fs
  | .parameterList => Draft.Node.parameters <$> parametersFields node fs
  | .statementsList => Draft.Node.block <$> blockFields node fs
  | .function => Draft.Node.function <$> functionFields node fs
  | .forLoop => Draft.Node.forLoop <$> forLoopFields node fs
  | .foreachLoop => Draft.Node.foreachLoop <$> foreachLoopFields node fs
  | .staticVariablesList => Draft.Node.statics <$> staticsFields node fs
  | .functionsList => Draft.Node.functions <$> functionsFields node fs
  | .compilationUnit => Draft.Node.unit <$> unitFields node fs

/-- A slot that takes any node: the record says its kind, and the kind decides its fields. -/
def anyNode (node : Data → Reading Draft.Node) : Data → Reading Draft.Node
  | .table fs =>
    match Data.get? fs "kind" with
    | none => fault .noKind
    | some (.text word) =>
      match NodeKind.ofText? word with
      | some kind => (nodeFields node kind fs).under (.tag kind)
      | none => fault .unknownKind
    | some _ => fault .unknownKind
  | _ => fault .notNode

/-- A node with other nodes inside it down to a bound. -/
def nodeWithin : Nat → Data → Reading Draft.Node
  | 0, _ => fault .notNode
  | bound + 1, d => anyNode (nodeWithin bound) d

/-- A node. A value holds no more levels of nodes than it has levels at all. -/
def node (d : Data) : Reading Draft.Node := nodeWithin d.depth d

/-- A whole document. -/
def script (d : Data) : Reading Draft.Script :=
  tableOf (fun fs =>
    Draft.Script.mk <$> optional "types" [] (listOf typeEntry) fs <*> optional "constants" [] (listOf field) fs
      <*> required "unit" (fixed .compilationUnit (unitFields node)) fs) d

end Caret.Schema
