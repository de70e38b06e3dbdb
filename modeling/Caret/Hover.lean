import Caret.Settings.Theme
import Caret.Text.Markup
import Caret.Tree.Node
/-!
# `Caret.Hover` — what is shown for the node under a cursor

A hover text is a few lines of coloured pieces. Which pieces stand in a line depends on the node alone; the theme only
gives them their colours when they are written as markup.

## Contents
- **Pieces.** `Piece` and its markup; `Line` is a list of pieces.
- **Lines.** One function per kind of thing that is shown; `Node.hover?` chooses among them.
-/

namespace Caret

/-- What a coloured piece of text is, which decides its colour. -/
inductive Role where
  | predefinedType | type | method | parameter | description
  deriving DecidableEq, Repr, Inhabited

/-- The colour of a role. -/
def Theme.colourOf (t : Theme) : Role → String
  | .predefinedType => t.predefinedType
  | .type => t.type
  | .method => t.method
  | .parameter => t.parameter
  | .description => t.description

/-- A piece of a line: a text in the colour of its role, or a plain space. -/
inductive Piece where
  | span (role : Role) (text : String)
  | space
  deriving DecidableEq, Repr

/-- A line of a hover text. -/
abbrev Line := List Piece

namespace Piece

/-- A piece as markup. -/
def markup (theme : Theme) : Piece → String
  | .span role text => "<span style=\"color:#" ++ theme.colourOf role ++ ";\">" ++ Text.escape text ++ "</span>"
  | .space => " "

/-- The name of a built-in type, or another keyword. -/
def predefined (text : String) : Piece := .span .predefinedType text

/-- A label, a name or a punctuation mark. -/
def description (text : String) : Piece := .span .description text

/-- The name of a parameter. -/
def parameter (text : String) : Piece := .span .parameter text

/-- The name of a type; a class is shown by its qualified name. -/
def ofType : Option ScriptType → Piece
  | some (.predefined p) => predefined p.name
  | some (.host c) => .span .type (if c.qualifiedName.isEmpty then c.name else c.qualifiedName)
  | some (.function s) => .span .type (ScriptType.function s).name
  | none => description "?"

end Piece

namespace Line

/-- A line as markup. -/
def markup (theme : Theme) (l : Line) : String := String.join (l.map (Piece.markup theme))

/-- Parameters in parentheses, each with its type. -/
def parameters (ps : List (Field (Option ScriptType))) : Line :=
  let each := ps.map fun p => [Piece.ofType p.type, .space, Piece.parameter p.name]
  .description "(" :: (List.intersperse [Piece.description ", "] each).flatten ++ [.description ")"]

/-- A method of a type. -/
def ofMethod (owner : ScriptType) (m : Method ScriptType) : Line :=
  [Piece.ofType (some m.returnType), .space, Piece.ofType (some owner), .description ".", .span .method m.name]
    ++ parameters (m.parameters.map fun p => ⟨p.name, some p.type⟩)

/-- A binary operation, written as a function of its operands. -/
def ofOperation (op : Operation) : Line :=
  [Piece.ofType (some op.result), .space, .description op.operator, .description "(",
   Piece.ofType (some op.left), .space, .parameter "left", .description ",", .space,
   Piece.ofType (some op.right), .space, .parameter "right", .description ")"]

/-- A named value: what it is, its type and its name. -/
def ofValue (label : Line) (name : String) (type : Option ScriptType) : Line :=
  label ++ [.space, Piece.ofType type, .space, .description name]

/-- The words for where a value lives. -/
def labelOf : ValueKind → Line
  | .constant => [.description "(external static constant)"]
  | .staticVariable => [.description "(static variable)"]
  | .localVariable => [.description "(local variable)"]
  | .parameter false => [.description "(parameter)"]
  | .parameter true => [.description "(parameter)", .space, .predefined "ref"]

/-- A symbol. -/
def ofSymbol : Symbol → Line
  | .value kind name type => ofValue (labelOf kind) name type
  | .function name s => [Piece.ofType s.returnType, .space, .span .method name] ++ parameters s.parameters

/-- A built-in type: its name, and below it its description. -/
def ofPredefined (p : Predefined) : List Line := [[.predefined p.name], [.description p.description]]

end Line

/-- What is shown for a node: the lines, and the range they belong to. -/
structure Hover where
  lines : List Line
  range : Range
  deriving DecidableEq, Repr

/-- The lines as markup. -/
def Hover.content (h : Hover) (theme : Theme) : List String := h.lines.map (Line.markup theme)

namespace Node

/-- The lines for a node, if anything is shown for it. -/
def hoverLines? : Node → Option (List Line)
  | .literal _ k => some (Line.ofPredefined k.type)
  | .typeName _ (.predefined p) => some (Line.ofPredefined p)
  | .name n => n.symbol.map fun s => [Line.ofSymbol s]
  | .method _ owner m => some [Line.ofMethod owner m]
  | .binary _ _ _ op => some [Line.ofOperation op]
  | _ => none

/-- What is shown for a node. -/
def hover? (n : Node) : Option Hover := n.hoverLines?.map fun lines => ⟨lines, n.range⟩

end Node
end Caret
