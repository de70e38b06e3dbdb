import Caret.Symbol
import Caret.Tree.Kind
import Caret.Tree.Shape
/-!
# `Caret.Tree.Node` — bound trees

A node has a kind, a range and its children in source order. Everything that walks a tree does so through
`Node.children`, and every recursion over a tree is an instance of `Node.fold`.

## Contents
- **Nodes.** `Node`, the views `kind`/`range`/`type?`/`children`, and `Script`, a unit with the constants around it.
- **Recursion.** `fold` with its equation `fold_eq`; `height` drops from a node to its children (`height_lt`), which
  gives the induction principle `Node.induction`.
-/

namespace Caret

/-- A name where it stands in a script, with the symbol it was bound to. -/
structure NameRef where
  range : Range
  name : String
  symbol : Option Symbol
  type : Option ScriptType
  deriving Repr

/-- A binary operation on typed operands. -/
structure Operation where
  operator : String
  left : ScriptType
  right : ScriptType
  result : ScriptType
  deriving Repr

/-- A property access `callee.name`. There is no member when the name was not found among the properties of the
callee. -/
structure Access (N : Type) where
  range : Range
  callee : N
  name : String
  member : Option (Field ScriptType)
  type : Option ScriptType
  deriving Repr

/-- A node of a bound tree. -/
inductive Node where
  | literal (range : Range) (kind : LiteralKind)
  | plain (kind : PlainKind) (body : Group Node)
  | operation (kind : OperationKind) (body : Group Node) (type : Option ScriptType)
  | name (ref : NameRef)
  | access (parts : Access Node)
  /-- The method name inside a call. -/
  | method (range : Range) (owner : ScriptType) (method : Method ScriptType)
  | binary (range : Range) (left right : Node) (operation : Operation)
  | typeName (range : Range) (type : ScriptType)
  | declaration (parts : Declaration NameRef Node)
  | parameter (parts : Parameter NameRef Node)
  | parameters (parts : Group (Parameter NameRef Node))
  | block (parts : Group Node)
  | function (parts : FunctionDef NameRef Node)
  | forLoop (parts : ForLoop Node)
  | foreachLoop (parts : ForeachLoop NameRef Node)
  | statics (parts : Group (Declaration NameRef Node))
  | functions (parts : Group (FunctionDef NameRef Node))
  | unit (parts : CompilationUnit NameRef Node)

/-- A whole bound script. -/
abbrev UnitNode := CompilationUnit NameRef Node

/-- The built-in type of a literal. -/
def LiteralKind.type : LiteralKind → Predefined
  | .boolean => Predefined.boolean
  | .integer => Predefined.int
  | .char => Predefined.char
  | .float => Predefined.float
  | .string => Predefined.string

namespace Node

/-- The kind of a node. -/
def kind : Node → NodeKind
  | .literal _ k => .literal k
  | .plain k _ => .plain k
  | .operation k _ _ => .operation k
  | .name _ => .nameExpression
  | .access _ => .propertyAccess
  | .method .. => .method
  | .binary .. => .binaryOperator
  | .typeName .. => .predefinedType
  | .declaration _ => .variableDeclaration
  | .parameter _ => .parameter
  | .parameters _ => .parameterList
  | .block _ => .statementsList
  | .function _ => .function
  | .forLoop _ => .forLoop
  | .foreachLoop _ => .foreachLoop
  | .statics _ => .staticVariablesList
  | .functions _ => .functionsList
  | .unit _ => .compilationUnit

/-- The range of a node. -/
def range : Node → Range
  | .literal r _ => r
  | .plain _ g => g.range
  | .operation _ g _ => g.range
  | .name n => n.range
  | .access a => a.range
  | .method r .. => r
  | .binary r .. => r
  | .typeName r _ => r
  | .declaration d => d.range
  | .parameter p => p.range
  | .parameters g => g.range
  | .block g => g.range
  | .function f => f.range
  | .forLoop l => l.range
  | .foreachLoop l => l.range
  | .statics g => g.range
  | .functions g => g.range
  | .unit u => u.range

/-- The type of an expression, or the type that a type name stands for. -/
def type? : Node → Option ScriptType
  | .literal _ k => some (.predefined k.type)
  | .operation _ _ t => t
  | .name n => n.type
  | .access a => a.type
  | .binary _ _ _ op => some op.result
  | .typeName _ t => some t
  | _ => none

/-- The node stands for a value. -/
def isExpression : Node → Bool
  | .literal .. | .operation .. | .name _ | .access _ | .binary .. => true
  | _ => false

/-- A section as a list of nodes: nothing when it has no items, so that an empty section never claims a position. -/
def sectionNode {α : Type} (node : Group α → Node) (g : Group α) : List Node :=
  if g.items.isEmpty then [] else [node g]

/-- The children of a node, in source order. -/
def children : Node → List Node
  | .literal .. | .name _ | .method .. | .typeName .. => []
  | .plain _ g | .operation _ g _ | .block g => g.items
  | .access a => [a.callee]
  | .binary _ left right _ => [left, right]
  | .declaration d => d.typeNode.toList ++ .name d.name :: d.initializer.toList
  | .parameter p => [p.typeNode, .name p.name]
  | .parameters g => g.items.map .parameter
  | .function f => [f.returnType, .name f.name, .parameters f.parameters, .block f.body]
  | .forLoop l => l.init.toList ++ (l.condition.toList ++ (l.update.toList ++ [l.body]))
  | .foreachLoop l => [l.typeNode, .name l.name, l.iterable, l.body]
  | .statics g => g.items.map .declaration
  | .functions g => g.items.map .function
  | .unit u =>
    sectionNode .statics u.statics ++ (sectionNode .functions u.functions ++ sectionNode .block u.statements)

/-! ## Recursion over a tree -/

section Fold

variable {α : Type} (f : Node → List α → α)

mutual

/-- Combines a tree from the leaves up: `f` is given each node with the results for its children. -/
def fold : Node → α
  | .literal r k => f (.literal r k) []
  | .plain k g => f (.plain k g) (foldGroup g)
  | .operation k g t => f (.operation k g t) (foldGroup g)
  | .name n => f (.name n) []
  | .access ⟨r, callee, n, m, t⟩ => f (.access ⟨r, callee, n, m, t⟩) [fold callee]
  | .method r o m => f (.method r o m) []
  | .binary r left right op => f (.binary r left right op) [fold left, fold right]
  | .typeName r t => f (.typeName r t) []
  | .declaration d => foldDeclaration d
  | .parameter p => foldParameter p
  | .parameters g => foldParameters g
  | .block g => f (.block g) (foldGroup g)
  | .function g => foldFunction g
  | .forLoop ⟨r, i, c, u, b⟩ =>
    f (.forLoop ⟨r, i, c, u, b⟩) (foldOption i ++ (foldOption c ++ (foldOption u ++ [fold b])))
  | .foreachLoop ⟨r, t, n, i, b⟩ => f (.foreachLoop ⟨r, t, n, i, b⟩) [fold t, f (.name n) [], fold i, fold b]
  | .statics g => foldStatics g
  | .functions g => foldFunctions g
  | .unit ⟨r, vs, fs, ss⟩ =>
    f (.unit ⟨r, vs, fs, ss⟩)
      ((if vs.items.isEmpty then [] else [foldStatics vs]) ++
        ((if fs.items.isEmpty then [] else [foldFunctions fs]) ++
          (if ss.items.isEmpty then [] else [f (.block ss) (foldGroup ss)])))

def foldGroup : Group Node → List α
  | ⟨_, ns⟩ => foldList ns

def foldList : List Node → List α
  | [] => []
  | n :: ns => fold n :: foldList ns

def foldOption : Option Node → List α
  | none => []
  | some n => [fold n]

def foldDeclaration : Declaration NameRef Node → α
  | ⟨r, t, n, i⟩ => f (.declaration ⟨r, t, n, i⟩) (foldOption t ++ f (.name n) [] :: foldOption i)

def foldDeclarationList : List (Declaration NameRef Node) → List α
  | [] => []
  | d :: ds => foldDeclaration d :: foldDeclarationList ds

def foldStatics : Group (Declaration NameRef Node) → α
  | ⟨r, ds⟩ => f (.statics ⟨r, ds⟩) (foldDeclarationList ds)

def foldParameter : Parameter NameRef Node → α
  | ⟨r, t, n, b⟩ => f (.parameter ⟨r, t, n, b⟩) [fold t, f (.name n) []]

def foldParameterList : List (Parameter NameRef Node) → List α
  | [] => []
  | p :: ps => foldParameter p :: foldParameterList ps

def foldParameters : Group (Parameter NameRef Node) → α
  | ⟨r, ps⟩ => f (.parameters ⟨r, ps⟩) (foldParameterList ps)

def foldFunction : FunctionDef NameRef Node → α
  | ⟨r, t, n, ps, b⟩ =>
    f (.function ⟨r, t, n, ps, b⟩) [fold t, f (.name n) [], foldParameters ps, f (.block b) (foldGroup b)]

def foldFunctionList : List (FunctionDef NameRef Node) → List α
  | [] => []
  | g :: gs => foldFunction g :: foldFunctionList gs

def foldFunctions : Group (FunctionDef NameRef Node) → α
  | ⟨r, gs⟩ => f (.functions ⟨r, gs⟩) (foldFunctionList gs)

end

theorem foldList_eq (ns : List Node) : foldList f ns = ns.map (fold f) := by
  induction ns with
  | nil => simp [foldList]
  | cons n ns ih => simp [foldList, ih]

theorem foldGroup_eq (g : Group Node) : foldGroup f g = g.items.map (fold f) := by
  cases g; simp [foldGroup, foldList_eq]

theorem foldOption_eq (n : Option Node) : foldOption f n = n.toList.map (fold f) := by
  cases n <;> simp [foldOption]

theorem foldDeclarationList_eq (ds : List (Declaration NameRef Node)) :
    foldDeclarationList f ds = (ds.map Node.declaration).map (fold f) := by
  induction ds with
  | nil => simp [foldDeclarationList]
  | cons d ds ih => simp only [foldDeclarationList, ih, List.map_cons]; simp [fold]

theorem foldParameterList_eq (ps : List (Parameter NameRef Node)) :
    foldParameterList f ps = (ps.map Node.parameter).map (fold f) := by
  induction ps with
  | nil => simp [foldParameterList]
  | cons p ps ih => simp only [foldParameterList, ih, List.map_cons]; simp [fold]

theorem foldFunctionList_eq (gs : List (FunctionDef NameRef Node)) :
    foldFunctionList f gs = (gs.map Node.function).map (fold f) := by
  induction gs with
  | nil => simp [foldFunctionList]
  | cons g gs ih => simp only [foldFunctionList, ih, List.map_cons]; simp [fold]

/-- A fold gives each node the results for its children, in order. -/
theorem fold_eq (n : Node) : fold f n = f n (n.children.map (fold f)) := by
  cases n with
  | literal => simp [fold, children]
  | plain => simp [fold, children, foldGroup_eq]
  | operation => simp [fold, children, foldGroup_eq]
  | name => simp [fold, children]
  | access a => cases a; simp [fold, children]
  | method => simp [fold, children]
  | binary => simp [fold, children]
  | typeName => simp [fold, children]
  | declaration d => cases d; simp [fold, foldDeclaration, children, foldOption_eq]
  | parameter p => cases p; simp [fold, foldParameter, children]
  | parameters g => cases g; simp [fold, foldParameters, children, foldParameterList_eq]
  | block => simp [fold, children, foldGroup_eq]
  | function g => cases g; simp [fold, foldFunction, children, foldGroup_eq]
  | forLoop l => cases l; simp [fold, children, foldOption_eq]
  | foreachLoop l => cases l; simp [fold, children]
  | statics g => cases g; simp [fold, foldStatics, children, foldDeclarationList_eq]
  | functions g => cases g; simp [fold, foldFunctions, children, foldFunctionList_eq]
  | unit u =>
    obtain ⟨r, vs, fs, ss⟩ := u
    simp only [fold, children, sectionNode, List.map_append]
    congr 2
    · split <;> simp [fold]
    · congr 1
      · split <;> simp [fold]
      · split <;> simp [fold]

end Fold

/-- The number of nodes on the longest way down from a node. -/
def height : Node → Nat := fold fun _ below => 1 + below.foldr max 0

theorem le_foldr_max {h : Nat} {hs : List Nat} (m : h ∈ hs) : h ≤ hs.foldr max 0 := by
  induction hs with
  | nil => cases m
  | cons x xs ih =>
    simp only [List.foldr_cons]
    rcases List.mem_cons.mp m with rfl | m
    · exact Nat.le_max_left _ _
    · exact Nat.le_trans (ih m) (Nat.le_max_right _ _)

theorem height_lt {n c : Node} (m : c ∈ n.children) : c.height < n.height := by
  have h : n.height = 1 + (n.children.map height).foldr max 0 := fold_eq _ n
  have := le_foldr_max (List.mem_map_of_mem (f := height) m)
  omega

/-- What holds of a node whenever it holds of its children holds of every node. -/
theorem induction {P : Node → Prop} (step : ∀ n, (∀ c ∈ n.children, P c) → P n) (n : Node) : P n := by
  have bounded : ∀ h n, height n < h → P n := by
    intro h
    induction h with
    | zero => intro n hn; exact absurd hn (Nat.not_lt_zero _)
    | succ h ih =>
      intro n hn
      exact step n fun c m => ih c (by have := height_lt m; omega)
  exact bounded (n.height + 1) n (Nat.lt_succ_self _)

end Node

/-! ## Whole scripts -/

/-- The unit as a node has no children: all three sections are empty. -/
def CompilationUnit.isEmpty (u : UnitNode) : Bool := (Node.unit u).children.isEmpty

/-- A bound script with the constants that the host provides to it. -/
structure Script where
  unit : UnitNode
  constants : List Symbol

end Caret
