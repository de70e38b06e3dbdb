import Caret.Files
import Caret.Settings.Theme
import Caret.Text.Uppercase
import Caret.Toml.Reader
/-!
# `Caret.Settings.Config` — the settings of a workspace

Settings come from a TOML file; what the file leaves out has its default, and keys that are not known are refused.
-/

namespace Caret

/-- How grave a log record is. -/
inductive LogLevel where
  | debug | info | warning | error | critical
  deriving DecidableEq, Repr, Inhabited

namespace LogLevel

/-- The word for a level. -/
def text : LogLevel → String
  | .debug => "DEBUG"
  | .info => "INFO"
  | .warning => "WARNING"
  | .error => "ERROR"
  | .critical => "CRITICAL"

/-- Every level, the least grave first. -/
def all : List LogLevel := [.debug, .info, .warning, .error, .critical]

/-- Records of this level are kept when the threshold is the given one. -/
def reaches (level threshold : LogLevel) : Bool := decide (threshold.ctorIdx ≤ level.ctorIdx)

end LogLevel

/-- The settings of a workspace. -/
structure Config where
  /-- The number of the first line and column. -/
  base : Fin 2 := 0
  /-- The least grave level that is logged. -/
  level : LogLevel := .warning
  theme : Theme := {}
  deriving DecidableEq, Repr, Inhabited

namespace Config

/-- The settings of a workspace without a settings file. -/
def initial : Config := {}

open Reading

/-- Zero or one, as a number or a truth value. -/
def base? : Data → Option (Fin 2)
  | .bool b => some (if b then 1 else 0)
  | .int n => if n = 0 then some 0 else if n = 1 then some 1 else none
  | .real x =>
    match x.toInt? with
    | some n => if n = 0 then some 0 else if n = 1 then some 1 else none
    | none => none
  | _ => none

/-- The number of the first line and column. -/
def readBase (d : Data) : Reading (Fin 2) :=
  match base? d with
  | some b => .done b
  | none => fault .notAllowed

/-- A log level, in any case of its letters. -/
def readLevel : Data → Reading LogLevel
  | .text s =>
    match LogLevel.all.find? fun l => l.text == Text.uppercase s with
    | some l => .done l
    | none => fault .notAllowed
  | _ => fault .notAllowed

/-- The keys of a settings file. -/
def keys : List String := ["position_base", "log_level", "theme"]

/-- Settings. -/
def read : Data → Reading Config :=
  tableOf fun fs =>
    (fun base level theme _ => Config.mk base level theme)
      <$> optional "position_base" ({} : Config).base readBase fs
      <*> optional "log_level" ({} : Config).level readLevel fs
      <*> optional "theme" ({} : Config).theme Theme.read fs
      <*> Theme.onlyKeys keys fs

/-- The name of the settings file. -/
def fileName : String := "script-assist.toml"

/-- Why a settings file gives no settings. -/
inductive FileError where
  /-- There is a file, and it cannot be opened. -/
  | unreadable (reason : ReadError)
  /-- The file is not text. -/
  | encoding
  /-- The file is no TOML document. -/
  | notToml
  /-- The file has a decimal integer with too many digits. -/
  | oversized (digits : Nat)
  /-- The file does not have the form of settings. -/
  | invalid (faults : List Fault)

/-- The settings that the content of a file describes. -/
def ofContent (content : ByteArray) : Except FileError Config :=
  match String.fromUTF8? content with
  | none => .error .encoding
  | some text =>
    match Toml.parse text with
    | .error .malformed => .error .notToml
    | .error (.oversized digits) => .error (.oversized digits)
    | .ok fields =>
      match read (.table fields) with
      | .done config => .ok config
      | .failed faults => .error (.invalid faults)

/-- What is said of a settings file at a path that gives no settings. -/
def FileError.message (path : String) : FileError → String
  | .unreadable reason => reason.message path
  | .encoding => "Invalid encoding in " ++ path
  | .notToml => "Invalid TOML in " ++ path
  | .oversized digits => Text.digitLimitText (some digits)
  | .invalid _ => "Invalid config in " ++ path

end Config
end Caret
