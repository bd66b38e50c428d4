/-
  The command line tool.

  The tool runs on the files of the computer what `Command.run` runs on a file
  tree.
-/
import DualRail.Command.Run

set_option autoImplicit false

namespace DualRail

open Files (FileError Script)

/-- The error of a file that the system reports, by its number. -/
def fileErrorOf : IO.Error → FileError
  | .noFileOrDirectory .. => .notFound
  | .inappropriateType _ number _ =>
      if number = 20 ∨ number = 0 - 20 then .notADirectory else .isADirectory
  | .resourceExhausted _ number _ =>
      if number = 36 then .nameTooLong else if number = 12 then .outOfMemory else .noSpace
  | .permissionDenied .. => .permissionDenied
  | _ => .invalidArgument

/-- Do something with files. -/
def attempt {α : Type} (action : IO α) : IO (Except FileError α) := do
  try
    let a ← action
    return .ok a
  catch e => return .error (fileErrorOf e)

/-- Read the text of a file. -/
def readTextFile (path : String) : IO (Except FileError String) := do
  match ← attempt (IO.FS.readBinFile path) with
  | .error e => return .error e
  | .ok bytes =>
      match String.fromUTF8? bytes with
      | some text => return .ok text
      | none => return .error .notText

/-- Whether there is something at a path. -/
def pathIsThere (path : String) : IO Bool := do
  match ← attempt (IO.FS.readBinFile path) with
  | .error .notFound | .error .notADirectory => return false
  | _ => return true

/-- Create or replace a file. -/
def writeTextFile (path text : String) : IO Unit :=
  IO.FS.withFile path .write fun file => do
    file.putStr text
    file.flush

/-- Run a script on the files of the computer. -/
def perform {α : Type} : Script α → IO α
  | .done a => return a
  | .readText path next => do perform (next (← readTextFile path))
  | .pathExists path next => do perform (next (← pathIsThere path))
  | .writeText path text next => do perform (next (← attempt (writeTextFile path text)))

/-- The variables of the environment that the tool looks at. -/
def environmentNames : List String :=
  ["KLMC_CIRCUIT", "KLMC_OUTPUT", "KLMC_QUBITS", "KLMC_PROTOCOL", "KLMC_STRICT",
    "KLMC_LOG_LEVEL"]

/-- The environment of the tool. -/
def readEnvironment : IO Environment := do
  let pairs ← environmentNames.filterMapM fun name => do
    return (← IO.getEnv name).map fun value => (name, value)
  return fun name => pairs.lookup name

end DualRail

/-- Run the tool. -/
def main (args : List String) : IO UInt32 := do
  let env ← DualRail.readEnvironment
  let outcome ← DualRail.perform (DualRail.Command.run args env)
  let stdout ← IO.getStdout
  stdout.putStr outcome.stdout
  stdout.flush
  let stderr ← IO.getStderr
  stderr.putStr outcome.stderr
  stderr.flush
  return outcome.exit.toUInt32
