import Caret.ScriptType
/-!
# `Caret.Symbol` — what a name in a script stands for

A name stands for a value (a constant of the host, a static or local variable, a parameter) or for a function.
-/

namespace Caret

/-- Where a named value lives. -/
inductive ValueKind where
  /-- Provided by the host program, in scope everywhere. -/
  | constant
  /-- Declared in the static section of the script. -/
  | staticVariable
  /-- Declared in a block, in scope after its declaration. -/
  | localVariable
  /-- Taken by a function, by reference or by value. -/
  | parameter (byRef : Bool)
  deriving DecidableEq, Repr, Inhabited

/-- A symbol: a named value with its type, if that is known, or a function with its signature. -/
inductive Symbol where
  | value (kind : ValueKind) (name : String) (type : Option ScriptType)
  | function (name : String) (signature : Signature ScriptType)
  deriving Repr

namespace Symbol

/-- The name of the symbol. -/
def name : Symbol → String
  | .value _ n _ => n
  | .function n _ => n

/-- The type of the symbol; that of a function is its signature. -/
def type : Symbol → Option ScriptType
  | .value _ _ t => t
  | .function _ s => some (.function s)

/-- The word for the symbol's kind. -/
def kindText : Symbol → String
  | .value .constant _ _ => "constant"
  | .value .staticVariable _ _ => "static"
  | .value .localVariable _ _ => "local"
  | .value (.parameter _) _ _ => "parameter"
  | .function _ _ => "function"

@[simp] theorem name_value (k : ValueKind) (n : String) (t : Option ScriptType) : (Symbol.value k n t).name = n := rfl
@[simp] theorem type_value (k : ValueKind) (n : String) (t : Option ScriptType) : (Symbol.value k n t).type = t := rfl

end Symbol
end Caret
