import Caret.Symbol
/-!
# `Caret.Completion.Suggestion` — the items of a completion list

A suggestion has a label, the text to insert, and, where there is one, a type or signature as detail and a line of
documentation.
-/

namespace Caret

/-- How an editor renders a suggestion. -/
inductive ItemKind where
  | method | property | value | keyword | function | type
  deriving DecidableEq, Repr, Inhabited

/-- The word for a kind of item. -/
def ItemKind.text : ItemKind → String
  | .method => "Method"
  | .property => "Property"
  | .value => "Variable"
  | .keyword => "Keyword"
  | .function => "Function"
  | .type => "Class"

/-- One item of a completion list. -/
structure Suggestion where
  label : String
  detail : Option String := none
  documentation : Option String := none
  insertText : String
  kind : ItemKind
  deriving DecidableEq, Repr

namespace Suggestion

/-- A keyword. -/
def keyword (word : String) : Suggestion := { label := word, insertText := word, kind := .keyword }

/-- The words that a statement can start with. -/
def statementWords : List String := ["for", "foreach", "if", "return", "while"]

/-- The keywords that a statement can start with. -/
def statementStarts : List Suggestion := statementWords.map keyword

/-- The description of a type, if it is built in and has one. -/
def describe? : ScriptType → Option String
  | .predefined p => if p.description.isEmpty then none else some p.description
  | _ => none

/-- A type. -/
def ofType (t : ScriptType) : Suggestion :=
  { label := t.name, documentation := describe? t, insertText := t.name, kind := .type }

/-- A symbol, with its type as detail. -/
def ofSymbol (s : Symbol) : Suggestion :=
  { label := s.name, detail := some (ScriptType.typeText s.type), insertText := s.name,
    kind := match s with
      | .function .. => .function
      | .value .. => .value }

/-- A property, with its type as detail. -/
def ofProperty (p : Field ScriptType) : Suggestion :=
  { label := p.name, detail := some p.type.name, insertText := p.name, kind := .property }

/-- A method, with its signature as detail. -/
def ofMethod (m : Method ScriptType) : Suggestion :=
  { label := m.name, detail := some m.signatureText, insertText := m.name, kind := .method }

end Suggestion
end Caret
