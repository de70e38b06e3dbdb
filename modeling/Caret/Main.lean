import Caret.Command.Run
/-!
# `Caret.Main` — the command line

Reads the files that a request looks at and prints what the run leaves behind.
-/

namespace Caret.Main

/-- The reason that a system error stands for. Some calls give the number of the error negated. -/
def readError (code : UInt32) (words : String) : ReadError :=
  match if code.toNat < Nat.pow 2 31 then code.toNat else Nat.pow 2 32 - code.toNat with
  | 2 => .missing
  | 20 => .blocked
  | 21 => .directory
  | n => .other n words.capitalize

/-- What stands at a path of the file system. -/
def entry (path : String) : IO Entry := do
  try
    return .ok (← IO.FS.readBinFile path)
  catch
    | .noFileOrDirectory .. => return .error .missing
    | .inappropriateType _ code words => return .error (readError code words)
    | .permissionDenied _ code words => return .error (readError code words)
    | .invalidArgument _ code words => return .error (readError code words)
    | e => return .error (.other 0 e.toString)

/-- How the program is called. -/
def usage : String :=
  "usage: " ++ Invocation.programName ++ " [-h] \x7bcomplete,hover\x7d TREE LINE COLUMN [--config-root DIRECTORY]"

/-- Prints how a run ended, and gives its exit code. -/
def report : Outcome → IO UInt32
  | .finished o => do
    o.logs.forM fun r => IO.eprintln (r.level.text ++ " " ++ r.logger ++ ": " ++ r.message)
    o.stderr.forM IO.eprintln
    IO.print o.stdout
    return o.exit.toUInt32
  | .crashed reason => do
    IO.eprintln reason.message
    return 1
  | .refused line => do
    IO.eprintln usage
    IO.eprintln line
    return 2
  | .help => do
    IO.println usage
    return 0

/-- The request with paths in the home directory written out. -/
def atHome (home : Option String) (i : Invocation) : Invocation :=
  { i with tree := Path.expandHome home i.tree, configRoot := Path.expandHome home i.configRoot }

end Caret.Main

open Caret in
def main (words : List String) : IO UInt32 := do
  match Invocation.read words with
  | .error refused => Main.report refused.outcome
  | .ok invocation =>
    let directory := (← IO.currentDir).toString
    let invocation := Main.atHome (← IO.getEnv "HOME") invocation
    let entries ← (invocation.paths directory).mapM fun path => return (path, ← Main.entry path)
    Main.report (invocation.run (fun path => (entries.lookup path).getD (.error .missing)) directory)
