/-
  Instructions and moments.

  An instruction is a gate, a measurement or a barrier together with the qubits
  it acts on.  Nothing here requires the number of qubits to fit the gate or the
  qubits to differ; that is what checking a circuit is for.  A moment is a list
  of instructions that happen together.
-/
import DualRail.Circuit.Qubit
import DualRail.Circuit.Gate

set_option autoImplicit false

namespace DualRail

/-- What an instruction does. -/
inductive Action
  | gate (g : Gate)
  | measure (key : String)
  | barrier
deriving DecidableEq, Repr, Inhabited

namespace Action

/-- The short name of an action. -/
def name : Action → String
  | gate g => g.name
  | measure _ => "measure"
  | barrier => "barrier"

/-- The number of operands an action asks for; only gates ask for one. -/
def arity? : Action → Option Nat
  | gate g => some g.arity
  | _ => none

/-- The gate of an action that is one. -/
def gate? : Action → Option Gate
  | gate g => some g
  | _ => none

/-- Whether an action is a measurement. -/
def isMeasure : Action → Bool
  | measure _ => true
  | _ => false

end Action

/-- An action on a list of qubits. -/
structure Instruction where
  action : Action
  qubits : List Qubit
deriving DecidableEq, Repr, Inhabited

namespace Instruction

/-- A gate on a list of qubits. -/
def ofGate (g : Gate) (qubits : List Qubit) : Instruction := ⟨.gate g, qubits⟩

/-- A measurement, its result stored under `key`. -/
def measure (qubits : List Qubit) (key : String) : Instruction := ⟨.measure key, qubits⟩

/-- A barrier across a list of qubits. -/
def barrier (qubits : List Qubit) : Instruction := ⟨.barrier, qubits⟩

/-- The short name of the instruction's action. -/
def name (i : Instruction) : String := i.action.name

/-- Whether the instruction acts on a qubit. -/
def actsOn (i : Instruction) (q : Qubit) : Bool := i.qubits.contains q

/-- How an instruction is written: `CX(q0, q1)`. -/
def text (i : Instruction) : String :=
  i.name.toUpper ++ "(" ++ String.intercalate ", " (i.qubits.map Qubit.label) ++ ")"

end Instruction

/-- Instructions that happen together. -/
structure Moment where
  operations : List Instruction
deriving DecidableEq, Repr, Inhabited

namespace Moment

/-- Whether some operation of the moment acts on a qubit. -/
def actsOn (m : Moment) (q : Qubit) : Bool := m.operations.any (·.actsOn q)

/-- Whether some operation of the moment acts on one of the qubits. -/
def actsOnAny (m : Moment) (qubits : List Qubit) : Bool := qubits.any m.actsOn

/-- The operands of all operations, one operation after the other. -/
def operands (m : Moment) : List Qubit := m.operations.flatMap (·.qubits)

/-- The operations, written one after the other. -/
def text (m : Moment) : String :=
  String.intercalate ", " (m.operations.map Instruction.text)

end Moment

end DualRail
