import Caret.Symbol
import Caret.Tree.Kind
import Caret.Tree.Shape
/-!
# `Caret.Document.Draft` — trees as documents write them

A draft has the shape of a bound tree, but types, members and symbols are names that are still to be looked up.
-/

namespace Caret.Draft

/-- A symbol written at a name. Without a type it has that of the name. -/
structure SymbolNote where
  kind : ValueKind
  name : String
  type : Option String

/-- A name where it stands, with what is written about it. -/
structure Name where
  range : Range
  name : String
  type : Option String
  symbol : Option SymbolNote

/-- A node before binding. -/
inductive Node where
  | literal (range : Range) (kind : LiteralKind)
  | plain (kind : PlainKind) (body : Group Node)
  | operation (kind : OperationKind) (body : Group Node) (type : Option String)
  | name (ref : Name)
  | access (range : Range) (callee : Node) (name : String) (member : Option String) (type : Option String)
  | method (range : Range) (owner : String) (method : String)
  | binary (range : Range) (operator : String) (type : String) (left right : Node)
  | typeName (range : Range) (type : String)
  | declaration (parts : Declaration Name Node)
  | parameter (parts : Parameter Name Node)
  | parameters (parts : Group (Parameter Name Node))
  | block (parts : Group Node)
  | function (parts : FunctionDef Name Node)
  | forLoop (parts : ForLoop Node)
  | foreachLoop (parts : ForeachLoop Name Node)
  | statics (parts : Group (Declaration Name Node))
  | functions (parts : Group (FunctionDef Name Node))
  | unit (parts : CompilationUnit Name Node)

/-- A whole document: the types and constants of the host, and the script. -/
structure Script where
  types : List (HostClass String)
  constants : List (Field String)
  unit : CompilationUnit Name Node

end Caret.Draft
