import Caret.Text.Integer
import Caret.Text.Quoted
/-!
# `Caret.Command.Arguments` — the words of a command line

A command line names an action, then a tree file and a cursor; the directory of the settings is an option. Options
may stand anywhere after the action and may be shortened as long as they are not mistaken for another. After a
double dash every word is an operand.

## Contents
- **Words.** `Words.classify` tells operands, options and the double dash apart.
- **Reading.** `Query.read` goes through the words of an action, `Invocation.read` through a whole command line.
- **Errors.** `ArgumentError` with its `message`.
-/

namespace Caret

/-- What a command line asks for. -/
inductive Action where
  | complete
  | hover
  deriving DecidableEq, Repr

/-- The word for an action. -/
def Action.text : Action → String
  | .complete => "complete"
  | .hover => "hover"

/-- The action that a word stands for. -/
def Action.ofText? (word : String) : Option Action := [Action.complete, .hover].find? fun a => a.text == word

/-- A request given on a command line. -/
structure Invocation where
  action : Action
  tree : String
  line : Int
  column : Int
  configRoot : String := "."
  deriving DecidableEq, Repr

/-- Why a command line is refused. -/
inductive ArgumentError where
  | required (names : List String)
  | notInteger (name word : String)
  | unknownAction (word : String)
  | valueMissing
  /-- A value is attached to the option for help, which takes none. -/
  | valueIgnored (value : String)
  | ambiguous (word : String) (names : List String)
  | unrecognized (words : List String)
  deriving DecidableEq, Repr

/-- What is said of a command line that is refused. -/
def ArgumentError.message : ArgumentError → String
  | .required names => "the following arguments are required: " ++ String.intercalate ", " names
  | .notInteger name word => "argument " ++ name ++ ": invalid int value: " ++ Text.quoted word
  | .unknownAction word =>
    "argument command: invalid choice: " ++ Text.quoted word ++ " (choose from 'complete', 'hover')"
  | .valueMissing => "argument --config-root: expected one argument"
  | .valueIgnored value => "argument -h/--help: ignored explicit argument " ++ Text.quoted value
  | .ambiguous word names => "ambiguous option: " ++ word ++ " could match " ++ String.intercalate ", " names
  | .unrecognized words => "unrecognized arguments: " ++ String.intercalate " " words

/-- What comes of the words of a command line other than a request. -/
inductive Refusal where
  /-- Help was asked for. -/
  | help
  | error (reason : ArgumentError)
  deriving DecidableEq, Repr

/-! ## Words -/

/-- The options there are. -/
inductive Flag where
  | help
  | configRoot
  deriving DecidableEq, Repr

/-- A value attached to an option: after an equals sign, or directly behind a short option. -/
structure Attached where
  equals : Bool
  value : List Char

/-- What a word is. -/
inductive Word where
  | operand
  | separator
  /-- An option under its full name; an unknown one has no flag. -/
  | option (flag : Option Flag) (name : String) (attached : Option Attached)

/-- The word is an option. -/
def Word.isOption : Word → Bool
  | .option .. => true
  | _ => false

/-- The full name of an option; other words have none. -/
def Word.name : Word → String
  | .option _ name _ => name
  | _ => ""

namespace Words

/-- The options before an action. -/
def programOptions : List (String × Flag) := [("-h", .help), ("--help", .help)]

/-- The options of an action. -/
def actionOptions : List (String × Flag) := programOptions ++ [("--config-root", .configRoot)]

/-- A word split at its first equals sign. -/
def splitEquals (cs : List Char) : List Char × Option Attached :=
  match cs.dropWhile (· != '=') with
  | _ :: value => (cs.takeWhile (· != '='), some ⟨true, value⟩)
  | [] => (cs, none)

/-- The options that a word may be short for, or have a value attached to. -/
def candidates (options : List (String × Flag)) (cs : List Char) : List Word :=
  match cs with
  | _ :: '-' :: _ =>
    let (start, attached) := splitEquals cs
    (options.filter fun o => start.isPrefixOf o.1.toList).map fun o => .option (some o.2) o.1 attached
  | _ =>
    options.filterMap fun o =>
      if o.1.toList = cs.take 2 then some (.option (some o.2) o.1 (some ⟨false, cs.drop 2⟩))
      else if cs.isPrefixOf o.1.toList then some (.option (some o.2) o.1 none)
      else none

/-- The word is a minus sign with a number, which may have a point; a line end after it does no harm. -/
def isNegativeNumber (cs : List Char) : Bool :=
  let isDigit := fun c => (Text.digitValue? c).isSome
  let cs := if cs.getLast? = some '\n' then cs.dropLast else cs
  match cs with
  | '-' :: digits =>
    match digits.dropWhile isDigit with
    | [] => !digits.isEmpty
    | '.' :: fraction => !fraction.isEmpty && fraction.all isDigit
    | _ => false
  | _ => false

/-- What a word other than the double dash is, given the options there are. -/
def classify (options : List (String × Flag)) (word : String) : Except ArgumentError Word :=
  let cs := word.toList
  if cs.head? ≠ some '-' then .ok .operand
  else
    match options.lookup word with
    | some flag => .ok (.option (some flag) word none)
    | none =>
      if cs.length = 1 then .ok .operand
      else
        let (start, attached) := splitEquals cs
        match attached, options.lookup (String.ofList start) with
        | some a, some flag => .ok (.option (some flag) (String.ofList start) (some a))
        | _, _ =>
          match candidates options cs with
          | [w] => .ok w
          | [] => if isNegativeNumber cs || cs.contains ' ' then .ok .operand else .ok (.option none word none)
          | ws => .error (.ambiguous word (ws.map Word.name))

/-- What the words are; after the first double dash all are operands. -/
def classifyAll (options : List (String × Flag)) : List String → Except ArgumentError (List (Word × String))
  | [] => .ok []
  | word :: rest =>
    if word = "--" then .ok ((.separator, word) :: rest.map fun w => (.operand, w))
    else do
      let w ← classify options word
      return (w, word) :: (← classifyAll options rest)

/-- What comes of the help option with a value attached to it. Behind the short option more short options may follow. -/
def helpWith (equals : Bool) : List Char → Refusal
  | [] => .error (.valueIgnored "")
  | c :: rest =>
    if equals ∨ c = '-' then .error (.valueIgnored (String.ofList (c :: rest)))
    else if c = 'h' then
      match rest with
      | [] => .help
      | '=' :: rest => helpWith true rest
      | rest => helpWith false rest
    else .help

/-- What comes of the help option. -/
def help (name : String) : Option Attached → Refusal
  | none => .help
  | some a => if name = "-h" then helpWith a.equals a.value else .error (.valueIgnored (String.ofList a.value))

/-- The words for one operand: the double dash may stand on either side of it. The rest follows. -/
def operandWords (ws : List (Word × String)) : Option (List String × List (Word × String)) :=
  let isSeparator := fun w : Word × String => match w.1 with
    | .separator => true
    | _ => false
  match ws.dropWhile isSeparator with
  | (.operand, word) :: rest =>
    some ((ws.takeWhile isSeparator).map (·.2) ++ word :: (rest.takeWhile isSeparator).map (·.2),
      rest.dropWhile isSeparator)
  | _ => none

/-- The operand among its words: what is left when one double dash is taken out. -/
def operandOf (words : List String) : String := ((words.erase "--").head?).getD "--"

end Words

/-! ## The words of an action -/

/-- An action's request while its words are read. -/
structure Query where
  tree : Option String := none
  line : Option Int := none
  column : Option Int := none
  configRoot : String := "."
  /-- Words that nothing is known about. -/
  extras : List String := []

namespace Query

/-- Takes one operand: the tree, then the line, then the column. There is none left to take after that. -/
def takeOperand (q : Query) (word : String) : Except ArgumentError Query :=
  match q.tree, q.line with
  | none, _ => .ok { q with tree := some word }
  | some _, none =>
    match Text.integer? word with
    | some n => .ok { q with line := some n }
    | none => .error (.notInteger "line" word)
  | some _, some _ =>
    match Text.integer? word with
    | some n => .ok { q with column := some n }
    | none => .error (.notInteger "column" word)

/-- The number of operands still to come. -/
def operandsLeft (q : Query) : Nat :=
  if q.tree.isNone then 3 else if q.line.isNone then 2 else if q.column.isNone then 1 else 0

/-- Takes as many operands as stand in a row, at most the given number. -/
def takeOperands (q : Query) : Nat → List (Word × String) → Except ArgumentError (Query × List (Word × String))
  | 0, ws => .ok (q, ws)
  | n + 1, ws =>
    match Words.operandWords ws with
    | none => .ok (q, ws)
    | some (words, rest) =>
      match q.takeOperand (Words.operandOf words) with
      | .error e => .error e
      | .ok q => takeOperands q n rest

/-- Takes an option, and the word after it where the option needs one. -/
def takeOption (q : Query) (flag : Option Flag) (name word : String) (attached : Option Attached)
    (rest : List (Word × String)) : Except Refusal (Query × List (Word × String)) :=
  match flag with
  | none => .ok ({ q with extras := q.extras ++ [word] }, rest)
  | some .help => .error (Words.help name attached)
  | some .configRoot =>
    match attached with
    | some a => .ok ({ q with configRoot := String.ofList a.value }, rest)
    | none =>
      match rest with
      | (.operand, value) :: rest => .ok ({ q with configRoot := value }, rest)
      | _ => .error (.error .valueMissing)

/-- Goes through the words: operands and options in turn, up to the last option, and then the operands after it.
Words that are neither taken as operands nor options are kept as extras. -/
def takeAll (q : Query) : (fuel : Nat) → List (Word × String) → Except Refusal Query
  | 0, _ => .ok q
  | fuel + 1, ws =>
    match ws with
    | (.option flag name attached, word) :: rest =>
      match q.takeOption flag name word attached rest with
      | .error e => .error e
      | .ok (q, rest) => takeAll q fuel rest
    | ws =>
      match q.takeOperands q.operandsLeft ws with
      | .error e => .error (.error e)
      | .ok (q, rest) =>
        if rest.length < ws.length ∧ rest.any (·.1.isOption) then takeAll q fuel rest
        else
          let plain := rest.takeWhile fun w => !w.1.isOption
          let q := { q with extras := q.extras ++ plain.map (·.2) }
          if rest.any (·.1.isOption) then takeAll q fuel (rest.dropWhile fun w => !w.1.isOption) else .ok q

/-- The operands that were not given. -/
def missing (q : Query) : List String :=
  (if q.tree.isNone then ["tree"] else []) ++ (if q.line.isNone then ["line"] else [])
    ++ (if q.column.isNone then ["column"] else [])

/-- Reads the words of an action. -/
def read (words : List String) : Except Refusal Query :=
  match Words.classifyAll Words.actionOptions words with
  | .error e => .error (.error e)
  | .ok ws =>
    match takeAll {} (2 * ws.length + 1) ws with
    | .error e => .error e
    | .ok q => if q.missing.isEmpty then .ok q else .error (.error (.required q.missing))

/-- The request, if all its operands were given. -/
def toInvocation? (q : Query) (action : Action) : Option Invocation :=
  match q.tree, q.line, q.column with
  | some tree, some line, some column => some ⟨action, tree, line, column, q.configRoot⟩
  | _, _, _ => none

end Query

/-! ## Whole command lines -/

namespace Invocation

/-- A command line that is refused, with the action that was being read, if any. -/
structure Refused where
  action : Option Action
  reason : Refusal

/-- The name of the program in messages. -/
def programName : String := "script-assist"

/-- The line that says why a command line is refused. -/
def errorLine (action : Option Action) (e : ArgumentError) : String :=
  programName ++ (action.map fun a => " " ++ a.text).getD "" ++ ": error: " ++ e.message

/-- Reads an action with its words. `extras` are unknown words before it. -/
def readAction (extras : List String) : List String → Except Refused Invocation
  | [] => .error ⟨none, .error (.required ["command"])⟩
  | word :: rest =>
    match Action.ofText? word with
    | none => .error ⟨none, .error (.unknownAction word)⟩
    | some action =>
      match Query.read rest with
      | .error reason => .error ⟨some action, reason⟩
      | .ok q =>
        match extras ++ q.extras, q.toInvocation? action with
        | [], some invocation => .ok invocation
        | words, _ => .error ⟨none, .error (.unrecognized words)⟩

/-- Goes through the words before the action. The action is the first operand, and all that follows belongs to it. -/
def readWords (extras : List String) : List (Word × String) → Except Refused Invocation
  | [] => .error ⟨none, .error (.required ["command"])⟩
  | (.option none _ _, word) :: rest => readWords (extras ++ [word]) rest
  | (.option (some _) name attached, _) :: _ => .error ⟨none, Words.help name attached⟩
  | (.separator, _) :: [] => .error ⟨none, .error (.required ["command"])⟩
  | ws => readAction extras (ws.map (·.2))

/-- Reads a command line. -/
def read (words : List String) : Except Refused Invocation :=
  match Words.classifyAll Words.programOptions words with
  | .error e => .error ⟨none, .error e⟩
  | .ok ws => readWords [] ws

end Invocation
end Caret
