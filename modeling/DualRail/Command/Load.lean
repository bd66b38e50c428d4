/-
  Circuits named on the command line.

  A circuit is named by the path of a JSON file, which its extension shows, or by
  the name of a builtin circuit.
-/
import DualRail.Compile.Source
import DualRail.Files.Path

set_option autoImplicit false

namespace DualRail.Command

open Files (Path Script)

/-- Why there is no circuit. -/
inductive LoadError
  | fileNotFound (circuit : String)
  | unknownCircuit (reason : String)
  | failed (circuit : String) (error : CompileError)
deriving DecidableEq, Repr, Inhabited

namespace LoadError

/-- The text of an error, with all its causes. -/
def message : LoadError → String
  | fileNotFound circuit => "File not found: " ++ circuit
  | unknownCircuit reason => reason
  | failed circuit e => "Failed to load circuit: " ++ circuit ++ ": " ++ e.report

end LoadError

/-- The source that a name stands for. -/
def resolve (circuit : String) : Script (Except LoadError Source) := do
  if (Path.ofString circuit).hasExtension "json" then
    if ← Script.ask circuit then
      let source ← Source.file circuit
      return .ok source
    else return .error (.fileNotFound circuit)
  else
    match Builtin.ofName circuit with
    | .ok b => return .ok (Source.builtin b)
    | .error reason => return .error (.unknownCircuit reason)

/-- The circuit that a name stands for. -/
def load (circuit : String) : Script (Traced LoadError Circuit) := do
  match ← resolve circuit with
  | .ok source => return source.circuit.mapError (.failed circuit)
  | .error e => return Traced.fail e

end DualRail.Command
