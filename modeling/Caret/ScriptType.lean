/-!
# `Caret.ScriptType` — the types of a script

A type is built in, declared by the host program as a class with members, or the signature of a function of the script.
Only what an editor shows is kept: names, descriptions and instance members.

## Contents
- **Members.** `Field` (a name with a type), `Method`, and the lists `ScriptType.properties`/`ScriptType.methods`.
- **Names.** `ScriptType.name` is the text by which a type is shown; `typeText` also covers the absence of a type.
-/

namespace Caret

/-- A built-in type: its keyword and a line that describes it. -/
structure Predefined where
  name : String
  description : String
  deriving DecidableEq, Repr, Inhabited

namespace Predefined

def boolean : Predefined := ⟨"boolean", "true or false value"⟩
def int : Predefined := ⟨"int", "32-bit signed integer"⟩
def char : Predefined := ⟨"char", "Single character"⟩
def float : Predefined := ⟨"float", "Double-precision floating-point number"⟩
def string : Predefined := ⟨"string", "Text as sequence of characters"⟩
def void : Predefined := ⟨"void", "No value"⟩

/-- The built-in types that a value can have, in the order in which they are offered. -/
def offered : List Predefined := [boolean, int, char, float, string]

/-- Every built-in type. -/
def all : List Predefined := offered ++ [void]

end Predefined

/-- A name with the type that belongs to it: a property or a parameter. -/
structure Field (T : Type) where
  name : String
  type : T
  deriving Repr

/-- An instance method: its name, what it returns and what it takes. -/
structure Method (T : Type) where
  name : String
  returnType : T
  parameters : List (Field T)
  deriving Repr

/-- A type that the host program provides, with its instance members in order. -/
structure HostClass (T : Type) where
  name : String
  qualifiedName : String
  properties : List (Field T)
  methods : List (Method T)
  deriving Repr

/-- What a function of the script returns and takes. Where a type is not known there is none. -/
structure Signature (T : Type) where
  returnType : Option T
  parameters : List (Field (Option T))
  deriving Repr

/-- A type of the scripting language. -/
inductive ScriptType where
  | predefined (type : Predefined)
  | host (type : HostClass ScriptType)
  | function (signature : Signature ScriptType)
  deriving Repr

namespace ScriptType

mutual

/-- The text by which a type is shown. -/
def name : ScriptType → String
  | .predefined p => p.name
  | .host c => c.name
  | .function s => signatureText s

/-- A signature as the name of a function type: `fn<return(parameters)>`. -/
def signatureText : Signature ScriptType → String
  | ⟨r, ps⟩ => "fn<" ++ typeText r ++ "(" ++ String.intercalate ", " (parameterTexts ps) ++ ")>"

/-- The text for a type, or for the absence of one. -/
def typeText : Option ScriptType → String
  | none => "None"
  | some t => name t

/-- The types of parameters as texts. -/
def parameterTexts : List (Field (Option ScriptType)) → List String
  | [] => []
  | p :: ps => parameterText p :: parameterTexts ps

/-- The type of one parameter as a text. -/
def parameterText : Field (Option ScriptType) → String
  | ⟨_, t⟩ => typeText t

end

@[simp] theorem name_predefined (p : Predefined) : name (.predefined p) = p.name := by simp [name]

@[simp] theorem name_host (c : HostClass ScriptType) : name (.host c) = c.name := by simp [name]

@[simp] theorem typeText_some (t : ScriptType) : typeText (some t) = t.name := by simp [typeText]

/-- The instance properties of a type, in declaration order. -/
def properties : ScriptType → List (Field ScriptType)
  | .host c => c.properties
  | _ => []

/-- The instance methods of a type, in declaration order. -/
def methods : ScriptType → List (Method ScriptType)
  | .host c => c.methods
  | _ => []

end ScriptType

/-- A method with its types, as it is shown: `return name(type parameter, ...)`. -/
def Method.signatureText (m : Method ScriptType) : String :=
  m.returnType.name ++ " " ++ m.name ++ "("
    ++ String.intercalate ", " (m.parameters.map fun p => p.type.name ++ " " ++ p.name) ++ ")"

end Caret
