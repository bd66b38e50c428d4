/-
  Circuits: checking them and building them.

  A circuit has a name, a number of qubits and a list of moments.  It is *sound*
  when `Circuit.verify` accepts it: every gate has its number of operands, every
  operand is a qubit of the circuit and occurs once in its instruction, and the
  operations of a moment act on different qubits.  The operations that build
  circuits (`append`, `pushMoment`) refuse whatever would break this, and then
  leave the circuit as it was.
-/
import DualRail.Circuit.Instruction

set_option autoImplicit false

namespace DualRail

/-- Why a circuit or an instruction is refused. -/
inductive CircuitError
  | qubitNotFound (qubit : Qubit) (gate : Option String)
  | qubitCountMismatch (gate : String) (expected got : Nat)
  | duplicateQubit (qubit : Qubit) (gate : Option String)
  | overlappingMoment (moment : Nat) (qubit : Qubit)
deriving DecidableEq, Repr, Inhabited

namespace CircuitError

/-- The remark that names the gate, where there is one. -/
def gateRemark : Option String → String
  | some gate => " (gate: " ++ gate ++ ")"
  | none => ""

/-- The text of an error. -/
def message : CircuitError → String
  | qubitNotFound q gate => "Qubit " ++ q.label ++ " not found in circuit" ++ gateRemark gate
  | qubitCountMismatch gate expected got =>
      "Gate '" ++ gate ++ "' requires " ++ expected.repr ++ " qubits, got " ++ got.repr
  | duplicateQubit q gate => "Duplicate qubit " ++ q.label ++ " in operation" ++ gateRemark gate
  | overlappingMoment moment q =>
      "Moment " ++ moment.repr ++ " has overlapping operations on qubit " ++ q.label

end CircuitError

/-! ## Checking -/

namespace Instruction

/-- Refuse an operand outside a circuit of `size` qubits, or one that was seen
before, whichever comes first. -/
def checkOperands (name : String) (size : UInt32) (seen : List Qubit) :
    List Qubit → Except CircuitError Unit
  | [] => .ok ()
  | q :: rest =>
      if size ≤ q.position then .error (.qubitNotFound q (some name))
      else if q ∈ seen then .error (.duplicateQubit q (some name))
      else checkOperands name size (q :: seen) rest

/-- The number of operands as it is reported: the largest word of 32 bits, if there
are more. -/
def reportedCount (i : Instruction) : Nat := min i.qubits.length 4294967295

/-- Refuse a gate with the wrong number of operands. -/
def checkArity (i : Instruction) : Except CircuitError Unit :=
  match i.action.arity? with
  | some expected =>
      if i.qubits.length = expected then .ok ()
      else .error (.qubitCountMismatch i.name expected i.reportedCount)
  | none => .ok ()

/-- Check an instruction for a circuit of `size` qubits: its number of operands
first, then the operands from left to right. -/
def check (size : UInt32) (i : Instruction) : Except CircuitError Unit := do
  i.checkArity
  checkOperands i.name size [] i.qubits

end Instruction

namespace Moment

/-- Refuse a moment in which a qubit is used twice.  The index is that of the
moment in its circuit. -/
def checkDisjoint (index : Nat) (m : Moment) : Except CircuitError Unit :=
  match Qubit.firstRepeat [] m.operands with
  | some q => .error (.overlappingMoment index q)
  | none => .ok ()

/-- Check every operation of a list, from left to right. -/
def checkOperations (size : UInt32) : List Instruction → Except CircuitError Unit
  | [] => .ok ()
  | i :: rest => do
      i.check size
      checkOperations size rest

/-- Check a moment as number `index` of a circuit of `size` qubits. -/
def check (size : UInt32) (index : Nat) (m : Moment) : Except CircuitError Unit := do
  checkOperations size m.operations
  m.checkDisjoint index

end Moment

/-- A circuit on a line of qubits. -/
structure Circuit where
  name : String
  size : UInt32
  moments : List Moment
deriving DecidableEq, Repr, Inhabited

namespace Circuit

/-- A circuit without operations. -/
def empty (name : String) (size : UInt32) : Circuit := ⟨name, size, []⟩

/-- Check moments, the first of which has the given index. -/
def verifyFrom (size : UInt32) (index : Nat) : List Moment → Except CircuitError Unit
  | [] => .ok ()
  | m :: rest => do
      m.check size index
      verifyFrom size (index + 1) rest

/-- Check every moment, from the first to the last. -/
def verify (c : Circuit) : Except CircuitError Unit := verifyFrom c.size 0 c.moments

/-! ## Building -/

/-- Add a qubit at the end of the line; the result holds it and the new circuit. -/
def addQubit (c : Circuit) : Qubit × Circuit :=
  (⟨c.size⟩, { c with size := c.size + 1 })

/-- The index after the last moment that acts on one of the qubits: the first
moment in which an instruction on these qubits may stand. -/
def slot (qubits : List Qubit) : List Moment → Nat
  | [] => 0
  | m :: rest =>
      match slot qubits rest with
      | 0 => if m.actsOnAny qubits then 1 else 0
      | k + 1 => k + 2

/-- Put an instruction at the end of the moment with the given index, or into a
moment of its own after the last one. -/
def place (i : Instruction) : Nat → List Moment → List Moment
  | _, [] => [⟨[i]⟩]
  | 0, m :: rest => ⟨m.operations ++ [i]⟩ :: rest
  | k + 1, m :: rest => m :: place i k rest

/-- Add an instruction to the earliest moment after everything it depends on. -/
def append (c : Circuit) (i : Instruction) : Except CircuitError Circuit := do
  i.check c.size
  return { c with moments := place i (slot i.qubits c.moments) c.moments }

/-- Add a list of instructions, one after the other. -/
def appendAll (c : Circuit) : List Instruction → Except CircuitError Circuit
  | [] => .ok c
  | i :: rest => do
      let next ← c.append i
      next.appendAll rest

/-- Add a whole moment after the last one. -/
def pushMoment (c : Circuit) (m : Moment) : Except CircuitError Circuit := do
  m.check c.size c.moments.length
  return { c with moments := c.moments ++ [m] }

/-- Add a list of moments, one after the other. -/
def pushMoments (c : Circuit) : List Moment → Except CircuitError Circuit
  | [] => .ok c
  | m :: rest => do
      let next ← c.pushMoment m
      next.pushMoments rest

/-- Append a Hadamard gate. -/
def h (c : Circuit) (q : Qubit) : Except CircuitError Circuit :=
  c.append (.ofGate .hadamard [q])

/-- Append a Pauli X gate. -/
def x (c : Circuit) (q : Qubit) : Except CircuitError Circuit :=
  c.append (.ofGate .pauliX [q])

/-- Append a Pauli Z gate. -/
def z (c : Circuit) (q : Qubit) : Except CircuitError Circuit :=
  c.append (.ofGate .pauliZ [q])

/-- Append a controlled not gate. -/
def cx (c : Circuit) (control target : Qubit) : Except CircuitError Circuit :=
  c.append (.ofGate .cnot [control, target])

/-- Append a measurement. -/
def measure (c : Circuit) (qubits : List Qubit) (key : String) : Except CircuitError Circuit :=
  c.append (.measure qubits key)

/-! ## Reading -/

/-- The qubits of the circuit. -/
def qubits (c : Circuit) : List Qubit := Qubit.range c.size

/-- The number of moments. -/
def depth (c : Circuit) : Nat := c.moments.length

/-- The operations in compilation order: moment by moment, and in each moment in
its order. -/
def operations (c : Circuit) : List Instruction := c.moments.flatMap (·.operations)

/-- The number of operations. -/
def operationCount (c : Circuit) : Nat := c.operations.length

/-- The lines that show moments, the first of which has the given index. -/
def momentLines (index : Nat) : List Moment → String
  | [] => ""
  | m :: rest => "  " ++ index.repr ++ ": " ++ m.text ++ "\n" ++ momentLines (index + 1) rest

/-- How a circuit is shown: a line with its name and size, then a line per
moment. -/
def text (c : Circuit) : String :=
  c.name ++ " (" ++ c.size.toNat.repr ++ " qubits)\n" ++ momentLines 0 c.moments

end Circuit

end DualRail
