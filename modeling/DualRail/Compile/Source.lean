/-
  Sources: where circuits come from.

  A source has a name and gives a circuit, or says why it cannot.  Circuits are
  their own sources; others are the builtin circuits and JSON files.
-/
import DualRail.Circuit.Library
import DualRail.Compile.Error
import DualRail.Files.Script
import DualRail.Json.Circuit

set_option autoImplicit false

namespace DualRail

open Files (FileError Script)

/-- Something that gives a circuit. -/
structure Source where
  name : String
  circuit : Traced CompileError Circuit

namespace Source

/-- A circuit as its own source. -/
def ofCircuit (c : Circuit) : Source := ⟨c.name, pure c⟩

/-- A builtin circuit. -/
def builtin (b : Builtin) : Source :=
  ⟨b.name, Traced.ofExcept (b.circuit.mapError .circuit)⟩

/-- Read a circuit from the text of a file and verify it. -/
def readCircuit (path : String) (content : Except FileError String) :
    Traced CompileError Circuit := do
  let text ← Traced.ofExcept (content.mapError fun e => .source path e.message)
  let c ← Traced.ofExcept ((Circuit.ofJsonText text).mapError fun e => .source path e.message)
  Traced.ofExcept (c.verify.mapError .circuit)
  Traced.emit .debug "Loaded circuit" [.plain "path" path, .number "operations" c.operationCount]
  return c

/-- A JSON file with this content, or that cannot be read for this reason. -/
def ofFile (path : String) (content : Except FileError String) : Source :=
  ⟨path, readCircuit path content⟩

/-- A JSON file. -/
def file (path : String) : Script Source := do
  let content ← Script.read path
  return ofFile path content

end Source

end DualRail
