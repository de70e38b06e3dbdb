import Caret.Tree.Kind
/-!
# `Caret.Document.Fault` — what is wrong with a document, and where

A fault names a problem and the path to the value that has it. Behind a slot that takes any node, the path also
records the kind the node claims to have; such a step does not lead into the document and is told apart from a key.
-/

namespace Caret

/-- One step of a path into a document. -/
inductive Step where
  | key (name : String)
  | index (n : Nat)
  /-- The value just reached is read as a node of this kind. -/
  | tag (kind : NodeKind)
  deriving DecidableEq, Repr

/-- What can be wrong with a value. -/
inductive Problem where
  /-- A required field or item is absent. -/
  | missing
  | notText
  | notTable
  | notList
  /-- Something other than a table stands where any node may. -/
  | notNode
  /-- The node has no kind. -/
  | noKind
  /-- The node's kind is none of the known ones. -/
  | unknownKind
  /-- The value is none of the words or numbers allowed here. -/
  | notAllowed
  | notQuadruple
  | tooLong
  | notInteger
  /-- The text does not spell an integer. -/
  | malformedInteger
  /-- The number is too large to be taken as an integer. -/
  | hugeInteger
  | fractional
  | notFinite
  | notFlag
  /-- The value might be a flag but is neither of the two. -/
  | malformedFlag
  | unknownKey
  /-- The value has the right form and breaks a rule. -/
  | invalid (reason : String)
  deriving DecidableEq, Repr

/-- The code of a problem, as reports give it. -/
def Problem.code : Problem → String
  | .missing => "missing"
  | .notText => "string_type"
  | .notTable => "model_type"
  | .notList => "list_type"
  | .notNode => "model_attributes_type"
  | .noKind => "union_tag_not_found"
  | .unknownKind => "union_tag_invalid"
  | .notAllowed => "literal_error"
  | .notQuadruple => "tuple_type"
  | .tooLong => "too_long"
  | .notInteger => "int_type"
  | .malformedInteger => "int_parsing"
  | .hugeInteger => "int_parsing_size"
  | .fractional => "int_from_float"
  | .notFinite => "finite_number"
  | .notFlag => "bool_type"
  | .malformedFlag => "bool_parsing"
  | .unknownKey => "extra_forbidden"
  | .invalid _ => "value_error"

/-- The sentence that reports give for a broken rule. -/
def Problem.message? : Problem → Option String
  | .invalid reason => some ("Value error, " ++ reason)
  | _ => none

/-- A problem and the path to it. -/
structure Fault where
  path : List Step
  problem : Problem
  deriving DecidableEq, Repr

namespace Fault

/-- A step as reports write it. -/
def stepText : Step → String
  | .key name => name
  | .index n => toString n
  | .tag kind => kind.text

/-- The path as reports sort by it: its steps with points between them. -/
def pathText (f : Fault) : String := String.intercalate "." (f.path.map stepText)

/-- One fault is reported no later than another: by path, then by code. -/
def noLater (f g : Fault) : Bool :=
  if f.pathText = g.pathText then decide (f.problem.code ≤ g.problem.code) else decide (f.pathText ≤ g.pathText)

/-- Faults in the order of a report. -/
def report (fs : List Fault) : List Fault := fs.mergeSort noLater

end Fault
end Caret
