import Caret.Position
/-!
# `Caret.Tree.Shape` — the shapes that nodes with several parts take

A document and the tree bound from it have the same shapes and differ in what stands for a name and for a node. The
shapes are therefore parameterized: `M` is the type of names, `N` that of nodes.
-/

namespace Caret

/-- A run of items and the range that encloses them: a section, a block, a list of parameters. -/
structure Group (α : Type) where
  range : Range
  items : List α
  deriving Repr

/-- A variable declaration: a type if one is written, the name, and an initializer if there is one. -/
structure Declaration (M N : Type) where
  range : Range
  typeNode : Option N
  name : M
  initializer : Option N
  deriving Repr

/-- A parameter of a function. -/
structure Parameter (M N : Type) where
  range : Range
  typeNode : N
  name : M
  byRef : Bool
  deriving Repr

/-- A function of the script. -/
structure FunctionDef (M N : Type) where
  range : Range
  returnType : N
  name : M
  parameters : Group (Parameter M N)
  body : Group N
  deriving Repr

/-- A counting loop, whose three head parts may be left out. -/
structure ForLoop (N : Type) where
  range : Range
  init : Option N
  condition : Option N
  update : Option N
  body : N
  deriving Repr

/-- A loop over the items of a value. -/
structure ForeachLoop (M N : Type) where
  range : Range
  typeNode : N
  name : M
  iterable : N
  body : N
  deriving Repr

/-- A whole script: static variables, then functions, then statements. -/
structure CompilationUnit (M N : Type) where
  range : Range
  statics : Group (Declaration M N)
  functions : Group (FunctionDef M N)
  statements : Group N
  deriving Repr

end Caret
