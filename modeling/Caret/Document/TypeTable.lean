import Caret.ScriptType
/-!
# `Caret.Document.TypeTable` — the types that a document may refer to

Built-in types are known from the start. The classes of the host are declared one after the other, each referring
only to what was known before it; a later declaration of a name replaces an earlier one.
-/

namespace Caret

/-- The types known so far under their names, the latest declaration first. -/
abbrev TypeTable := List (String × ScriptType)

namespace TypeTable

/-- The table before any declaration: the built-in types. -/
def builtIn : TypeTable := Predefined.all.map fun p => (p.name, .predefined p)

/-- The type under a name. -/
def get? (table : TypeTable) (name : String) : Option ScriptType := table.lookup name

/-- The table with one more declaration. -/
def declare (table : TypeTable) (name : String) (type : ScriptType) : TypeTable := (name, type) :: table

theorem get?_declare (table : TypeTable) (name other : String) (type : ScriptType) :
    (table.declare name type).get? other = if other = name then some type else table.get? other := by
  by_cases h : other = name
  · subst h; simp [declare, get?]
  · have : (other == name) = false := by simpa using h
    simp [declare, get?, List.lookup_cons, this, h]

end TypeTable
end Caret
