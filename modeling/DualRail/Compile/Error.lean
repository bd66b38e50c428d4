/-
  Why a compilation fails.
-/
import DualRail.Compile.Device
import DualRail.Files.Tree

set_option autoImplicit false

namespace DualRail

/-- Why a compilation fails. -/
inductive CompileError
  | circuit (error : CircuitError)
  | violation (violation : Violation)
  | disordered (low upper : Qubit)
  | source (name reason : String)
  | sink (path : String) (error : Files.FileError)
  | pass (name reason : String)
deriving DecidableEq, Repr, Inhabited

namespace CompileError

/-- The text of an error. -/
def message : CompileError → String
  | circuit e => "IR error: " ++ e.message
  | violation v => "Constraint violation: " ++ v.message
  | disordered low upper =>
      "Malformed swap input: lower position " ++ low.index.repr ++
        " exceeds upper position " ++ upper.index.repr
  | source name reason => "Circuit source '" ++ name ++ "' failed: " ++ reason
  | sink path e => "Failed to write program to " ++ path ++ ": " ++ e.message
  | pass name reason => "Pass '" ++ name ++ "' failed: " ++ reason

/-- The text of what caused an error, if that is an error of its own. -/
def cause? : CompileError → Option String
  | circuit e => some e.message
  | violation v => some v.message
  | sink _ e => some e.message
  | _ => none

/-- The text of an error, followed by that of its cause. -/
def report (e : CompileError) : String :=
  match e.cause? with
  | some cause => e.message ++ ": " ++ cause
  | none => e.message

end CompileError

end DualRail
