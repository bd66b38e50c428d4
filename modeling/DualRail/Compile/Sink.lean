/-
  Sinks: where the texts of programs go.
-/
import DualRail.Compile.Error
import DualRail.Files.Script

set_option autoImplicit false

namespace DualRail

open Files (Script)

/-- Something that takes the text of a program, by an effect of `m`. -/
abbrev Sink (m : Type → Type) := String → m (Traced CompileError Unit)

namespace Sink

/-- Keep texts in memory, one after the other. -/
def memory : Sink (StateM String) := fun text => do
  modify (· ++ text)
  return pure ()

/-- Where a program is written if no path is given. -/
def defaultPath : String := "quantum.qa"

/-- Write a text to a file, which is created or replaced. -/
def file (path : String) : Sink Script := fun text => do
  match ← Script.write path text with
  | .ok () =>
      return Traced.emit .info "Wrote program"
        [.plain "path" path, .number "bytes" text.utf8ByteSize]
  | .error e => return Traced.fail (.sink path e)

end Sink

end DualRail
