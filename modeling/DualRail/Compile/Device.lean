/-
  Devices: what hardware can run.

  The compiler knows hardware by its name and by what it says about a circuit.
  The device that is built here has a number of qubits.  It runs H, X, CX and
  measurements on them; an instruction on two qubits has to act on neighbours.
-/
import DualRail.Circuit.Basic
import DualRail.Log

set_option autoImplicit false

namespace DualRail

/-- Why a device refuses an operation. -/
inductive Violation
  | unsupportedOperation (operation : String)
  | unsupportedGate (gate : String)
  | qubitOutOfRange (operation : String) (qubit : Qubit) (available : UInt32)
  | nonLocalInteraction (operation : String)
deriving DecidableEq, Repr, Inhabited

namespace Violation

/-- The text of a violation. -/
def message : Violation → String
  | unsupportedOperation operation => operation ++ " is not a supported operation"
  | unsupportedGate gate => gate ++ " is not a supported gate"
  | qubitOutOfRange operation q available =>
      operation ++ " uses " ++ q.label ++ ", but the device only has " ++
        available.toNat.repr ++ " qubits"
  | nonLocalInteraction operation => "Non-local interaction: " ++ operation

end Violation

/-- What a compiler asks of hardware: its name, and whether it runs a circuit. -/
class Hardware (δ : Type) where
  name : δ → String
  check : δ → Circuit → Traced Violation Unit

/-- A device with a line of `size` qubits. -/
structure Device where
  size : UInt32
deriving DecidableEq, Repr, Inhabited

namespace Device

/-- The name of the kind of device. -/
def name (_ : Device) : String := "klm"

/-- Refuse an action that the device has no means for. -/
def checkAction (i : Instruction) : Except Violation Unit :=
  match i.action with
  | .gate .cnot | .gate .pauliX | .gate .hadamard | .measure _ => .ok ()
  | .gate g => .error (.unsupportedGate g.name)
  | .barrier => .error (.unsupportedOperation i.text)

/-- Refuse the first operand that is not a qubit of the device. -/
def checkRange (d : Device) (i : Instruction) : Except Violation Unit :=
  match i.qubits.find? fun q => d.size ≤ q.position with
  | some q => .error (.qubitOutOfRange i.text q d.size)
  | none => .ok ()

/-- Refuse exactly two operands that are not neighbours. -/
def checkLocality (i : Instruction) : Except Violation Unit :=
  match i.qubits with
  | [p, q] => if p.isAdjacent q then .ok () else .error (.nonLocalInteraction i.text)
  | _ => .ok ()

/-- Check an operation: its action, then its operands, then their places. -/
def checkOperation (d : Device) (i : Instruction) : Except Violation Unit := do
  checkAction i
  d.checkRange i
  checkLocality i

/-- Check operations from the first to the last. -/
def checkOperations (d : Device) : List Instruction → Except Violation Unit
  | [] => .ok ()
  | i :: rest => do
      d.checkOperation i
      d.checkOperations rest

/-- Check a circuit, operation by operation in compilation order. -/
def check (d : Device) (c : Circuit) : Traced Violation Unit := do
  Traced.ofExcept (d.checkOperations c.operations)
  Traced.emit .debug "Circuit satisfies device constraints" [.text "device" d.name]

@[default_instance]
instance : Hardware Device where
  name := name
  check := check

end Device

end DualRail
