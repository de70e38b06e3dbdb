import Caret.Document.Binding
import Caret.Document.Schema
/-!
# `Caret.Document.Load` — from a document to a bound script

A document is first read as a draft, with all its faults reported, and the draft is then bound.
-/

namespace Caret

/-- Why a document gives no script. -/
inductive LoadError where
  /-- The document does not have the form of a script. -/
  | schema (faults : List Fault)
  /-- A name in the document cannot be bound. -/
  | binding (error : BindingError)

namespace LoadError

/-- What is said of a document that gives no script. -/
def message : LoadError → String
  | .schema _ => "Schema validation failed"
  | .binding e => e.message

/-- The faults of the document's form. -/
def faults : LoadError → List Fault
  | .schema fs => fs
  | .binding _ => []

end LoadError

/-- The script that a document describes. -/
def Script.load (document : Data) : Except LoadError Script :=
  match Schema.script document with
  | .failed faults => .error (.schema faults)
  | .done draft =>
    match Binding.script draft with
    | .error e => .error (.binding e)
    | .ok script => .ok script

end Caret
