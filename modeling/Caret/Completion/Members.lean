import Caret.ScriptType
import Caret.Text.Lowercase
/-!
# `Caret.Completion.Members` — the members of a type whose names start as typed

Upper and lower case make no difference, and a name typed so far that is empty matches every member.
-/

namespace Caret

/-- The name starts with what was typed, in any case of the letters. -/
def startsAs (typed name : String) : Bool := (Text.lowercase typed).isPrefixOf (Text.lowercase name)

theorem startsAs_iff {typed name : String} :
    startsAs typed name = true ↔ Text.lowercase typed <+: Text.lowercase name :=
  List.isPrefixOf_iff_prefix

/-- The properties of a type whose names start as typed; none without a type. -/
def matchingProperties (type : Option ScriptType) (typed : String) : List (Field ScriptType) :=
  match type with
  | some t => t.properties.filter fun p => startsAs typed p.name
  | none => []

/-- The methods of a type whose names start as typed; none without a type. -/
def matchingMethods (type : Option ScriptType) (typed : String) : List (Method ScriptType) :=
  match type with
  | some t => t.methods.filter fun m => startsAs typed m.name
  | none => []

end Caret
