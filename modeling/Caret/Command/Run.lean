import Caret.Command.Arguments
import Caret.Completion.Complete
import Caret.Document.Load
import Caret.Hover
import Caret.Json.Reader
import Caret.Json.Writer
import Caret.Settings.Config
/-!
# `Caret.Command.Run` — what a command line comes to

The settings are read first, then the tree; completion or hover is answered with a JSON document. What stands at a
path is a parameter, so that a run is a function of the command line and the files.

## Contents
- **Outcomes.** `Outcome`: a run finishes with an exit code, two output streams and log records, or it is cut short.
- **Steps.** `loadConfig`, `readScript`, `completeOutcome`, `hoverOutcome`.
- **Runs.** `Invocation.run` and `Command.run`.
-/

namespace Caret

/-- A log record. -/
structure LogRecord where
  level : LogLevel
  logger : String
  message : String
  deriving DecidableEq, Repr

/-- What a finished run leaves behind. -/
structure Output where
  exit : Nat
  stdout : String := ""
  /-- The messages on the error stream, each with a line end after it. -/
  stderr : List String := []
  logs : List LogRecord := []
  deriving DecidableEq, Repr

/-- Why a run is cut short. -/
inductive Crash where
  /-- The settings file cannot be opened. -/
  | unreadable (reason : ReadError) (path : String)
  /-- The settings file is not text. -/
  | encoding
  /-- The settings file has an integer with too many digits. -/
  | oversized (digits : Nat)
  /-- A path holds the null character. -/
  | nullInPath
  /-- An integer that was to be written in a message has too many digits. -/
  | unwritable
  /-- An integer that was to be written in a document does not fit into 64 bits. -/
  | integerRange
  deriving DecidableEq, Repr

/-- What is said of a run that is cut short. -/
def Crash.message : Crash → String
  | .unreadable reason path => reason.message path
  | .encoding => "Invalid encoding"
  | .oversized digits => Text.digitLimitText (some digits)
  | .nullInPath => "embedded null byte"
  | .unwritable => Text.digitLimitText none
  | .integerRange => "Integer exceeds 64-bit range"

/-- How a run ends. -/
inductive Outcome where
  | finished (output : Output)
  | crashed (reason : Crash)
  /-- The command line is refused with this line. -/
  | refused (line : String)
  /-- Help is to be shown. -/
  | help
  deriving DecidableEq, Repr

namespace Command

/-! ## Settings -/

/-- The settings in a directory; without a settings file all have their defaults. -/
def loadConfig (files : String → Entry) (directory : String) : Except Config.FileError Config :=
  match files (Path.join directory Config.fileName) with
  | .ok content => Config.ofContent content
  | .error reason => if reason.isAbsence then .ok .initial else .error (.unreadable reason)

/-- How a run ends when its settings cannot be read. -/
def configFailure (directory : String) (e : Config.FileError) : Outcome :=
  match e with
  | .unreadable reason => .crashed (.unreadable reason (Path.join directory Config.fileName))
  | .encoding => .crashed .encoding
  | .oversized digits => .crashed (.oversized digits)
  | e => .finished { exit := 2, stderr := ["error: " ++ e.message (Path.join directory Config.fileName)] }

/-! ## Trees -/

/-- Why a tree file gives no script. -/
inductive TreeError where
  | unreadable (reason : ReadError)
  | notJson
  | load (error : LoadError)

/-- What is said of a tree file at a path that gives no script. -/
def TreeError.message (path : String) : TreeError → String
  | .unreadable reason => reason.message path
  | .notJson => "Invalid JSON in " ++ path
  | .load error => error.message

/-- The script that the content of a tree file describes. -/
def scriptOf (content : ByteArray) : Except TreeError Script :=
  match Json.document? content with
  | none => .error .notJson
  | some document =>
    match Script.load document with
    | .error e => .error (.load e)
    | .ok script => .ok script

/-- The script in the file at a path. -/
def readScript (files : String → Entry) (path : String) : Except TreeError Script :=
  match files path with
  | .error reason => .error (.unreadable reason)
  | .ok content => scriptOf content

/-- How a run ends when its tree cannot be read. -/
def treeFailure (path : String) (e : TreeError) : Outcome :=
  .finished { exit := 2, stderr := ["tree: " ++ path, "error: " ++ e.message path] }

/-! ## Completion -/

/-- A suggestion as a document. -/
def suggestionJson (s : Suggestion) : Json :=
  .object [("label", .text s.label), ("detail", Json.ofText? s.detail), ("documentation", Json.ofText? s.documentation),
    ("insert_text", .text s.insertText), ("kind", .text s.kind.text)]

/-- The records of a completion that succeeds. They tell the position, and without it there are none. -/
def successLogs (s : Script) (p : Position) (count : Nat) : List LogRecord :=
  let context := Context.ofPosition s.unit p
  match p.text? with
  | none => []
  | some place =>
    [⟨.debug, "completion.context", "Classified " ++ place ++ " as " ++ context.region.text ++ "/"
        ++ (context.rule.map Rule.text).getD "-"⟩,
     ⟨.debug, "completion.provider", "Completion at " ++ place ++ ": " ++ toString count ++ " suggestions"⟩]

/-- The records of a completion that fails. They tell the position, and without it there are none. -/
def failureLogs (path : String) (p : Position) (e : CompletionError) : List LogRecord :=
  match p.text? with
  | none => []
  | some place =>
    (match e with
      | .refused _ =>
        [⟨.warning, "completion.provider", "Rejected completion request at " ++ place ++ ": " ++ e.message⟩]
      | _ => [])
    ++ [⟨.error, "cli", "Completion failed at " ++ place ++ " in " ++ path⟩]

/-- What a completion request comes to: the suggestions, or an empty list when it fails. When what is wrong with it
cannot be written, the run is cut short. -/
def completeOutcome (config : Config) (path : String) (s : Script) (p : Position) : Outcome :=
  let kept := fun logs : List LogRecord => logs.filter fun r => r.level.reaches config.level
  match s.complete config.base.val p with
  | .error (.unwritable _) => .crashed .unwritable
  | .error e => .finished { exit := 1, stdout := (Json.list []).written, logs := kept (failureLogs path p e) }
  | .ok suggestions =>
    .finished
      { exit := 0, stdout := (Json.list (suggestions.map suggestionJson)).written,
        logs := kept (successLogs s p suggestions.length) }

/-! ## Hover -/

/-- The integer can be written. -/
def isWritable (n : Int) : Bool := decide (Json.minInteger ≤ n) && decide (n ≤ Json.maxInteger)

/-- A hover text as a document. -/
def hoverJson (theme : Theme) (h : Hover) : Json :=
  .object [("content", .list ((h.content theme).map .text)), ("range", .list (h.range.coordinates.map .int))]

/-- What a hover request comes to. -/
def hoverOutcome (config : Config) (s : Script) (p : Position) : Outcome :=
  match ((Node.unit s.unit).find? p).bind Node.hover? with
  | none => .finished { exit := 0, stdout := Json.null.written }
  | some h =>
    if h.range.coordinates.all isWritable then
      .finished { exit := 0, stdout := (hoverJson config.theme h).written }
    else .crashed .integerRange

end Command

/-! ## Runs -/

/-- The paths that a request looks at: that of the settings, then that of the tree. -/
def Invocation.paths (directory : String) (i : Invocation) : List String :=
  [Path.join (Path.resolve directory i.configRoot) Config.fileName, Path.resolve directory i.tree]

/-- Runs a request in a working directory. -/
def Invocation.run (files : String → Entry) (directory : String) (i : Invocation) : Outcome :=
  if i.configRoot.toList.contains '\x00' then .crashed .nullInPath
  else
    let configRoot := Path.resolve directory i.configRoot
    match Command.loadConfig files configRoot with
    | .error e => Command.configFailure configRoot e
    | .ok config =>
      if i.tree.toList.contains '\x00' then .crashed .nullInPath
      else
        let path := Path.resolve directory i.tree
        match Command.readScript files path with
        | .error e => Command.treeFailure path e
        | .ok script =>
          match i.action with
          | .complete => Command.completeOutcome config path script ⟨i.line, i.column⟩
          | .hover => Command.hoverOutcome config script ⟨i.line, i.column⟩

/-- How a run ends whose command line is refused. -/
def Invocation.Refused.outcome : Invocation.Refused → Outcome
  | ⟨_, .help⟩ => .help
  | ⟨action, .error e⟩ => .refused (Invocation.errorLine action e)

/-- Runs a command line in a working directory. -/
def Command.run (files : String → Entry) (directory : String) (words : List String) : Outcome :=
  match Invocation.read words with
  | .ok invocation => invocation.run files directory
  | .error refused => refused.outcome

end Caret
