/-
  File:      Retro24/Main.lean
  Subject:   The command line of the machine: one session over the files of the system.

  * `systemFiles`: the files of the system as a file store.
  * `main`: reads the command line, runs the session, and writes what it printed and reported.
-/
import Retro24.Session

namespace Retro24

/-! ## 1. The files of the system -/

/-- The number of a system error, which may come with either sign. -/
def errorNumber (code : UInt32) : UInt32 := min code (0 - code)

/-- A report of the system, by its cause where that is one of a file's own. -/
def FileError.ofReport (report : IO.Error) : FileError :=
  match report with
  | .noFileOrDirectory _ _ _ => .notFound
  | .inappropriateType _ code details =>
    if errorNumber code = 20 then .notDirectory
    else if errorNumber code = 21 then .isDirectory
    else .other details
  | .permissionDenied _ code details =>
    .other (details ++ " (os error " ++ toString (errorNumber code) ++ ")")
  | report => .other (toString report)

/-- An operation of the system, with its failure as a value. -/
def attempt {α : Type} (operation : IO α) : IO (Except FileError α) := do
  try
    return .ok (← operation)
  catch report =>
    return .error (.ofReport report)

/-- The files of the system. -/
def systemFiles : FileStore IO where
  read path := attempt (IO.FS.readBinFile path)
  write path bytes := attempt (IO.FS.writeBinFile path bytes)

/-! ## 2. The command line -/

/-- How a session is asked for. -/
def usageLine : String := "Usage: retro24 [OPTIONS] [PROGRAM]"

/-- The session of a command line; its answer is the exit code. -/
def command (words : List String) : IO UInt32 := do
  match Arguments.parse words with
  | .error .help =>
    (← IO.getStdout).putStr (usageLine ++ "\n")
    return 0
  | .error .rejected =>
    (← IO.getStderr).putStr (usageLine ++ "\n")
    return 2
  | .ok arguments =>
    let outcome ← Session.run systemFiles arguments
    (← IO.getStdout).putStr outcome.output.text
    (← IO.getStderr).putStr (String.join (outcome.errorLines.map (· ++ "\n")))
    return outcome.exitCode

end Retro24

/-- The program. -/
def main (words : List String) : IO UInt32 := Retro24.command words
