/-
  Lowering: from instructions to blocks of components.

  Three kinds of instruction have a lowering: H on one qubit, X on one qubit, and
  CX on two.  H is a coupler across the rails of its qubit, X is a crossing of
  them, and CX is a fixed body of five couplers, with a routing network before
  and after it when its operands are not neighbours.
-/
import DualRail.Circuit.Basic
import DualRail.Optics.Routing

set_option autoImplicit false

namespace DualRail

/-- An instruction that has a lowering. -/
inductive GateOp
  | cnot (control target : Qubit)
  | h (qubit : Qubit)
  | x (qubit : Qubit)
deriving DecidableEq, Repr, Inhabited

namespace GateOp

/-- The lowerable operation that an instruction stands for, if its action and its
number of operands have a lowering. -/
def ofInstruction? (i : Instruction) : Option GateOp :=
  match i.action, i.qubits with
  | .gate .cnot, [control, target] => some (cnot control target)
  | .gate .hadamard, [q] => some (h q)
  | .gate .pauliX, [q] => some (x q)
  | _, _ => none

end GateOp

namespace Lowering

/-- H: a coupler across the rails of the qubit. -/
def hadamard (q : Qubit) : Block :=
  let r := RailPair.ofQubit q
  .ofComponents [.coupler r.outputPort r.inputPort]

/-- X: a crossing of the rails of the qubit. -/
def pauliX (q : Qubit) : Block :=
  let r := RailPair.ofQubit q
  .ofComponents [.crossing r.output r.input]

/-- The five couplers of CX. -/
def cnotBody (control target : Qubit) : Block :=
  let c := RailPair.ofQubit control
  let t := RailPair.ofQubit target
  .ofComponents
    [.coupler t.outputPort t.inputPort,
      .coupler .vacuum c.outputPort,
      .coupler c.inputPort c.belowInput,
      .coupler t.inputPort .vacuum,
      .coupler t.outputPort t.inputPort]

/-- The routing network that CX needs; none for neighbours. -/
def cnotRouting (control target : Qubit) : Traced Routing.Disordered Block :=
  if 1 < control.distance target then
    let operands := Qubit.ordered control target
    Routing.network operands.1 operands.2
  else pure .empty

/-- CX: the routing network, the five couplers, and the same network again. -/
def cnot (control target : Qubit) : Traced Routing.Disordered Block := do
  let routing ← cnotRouting control target
  return (routing.extend (cnotBody control target)).extend routing

/-- The block of an operation. -/
def lower : GateOp → Traced Routing.Disordered Block
  | .cnot control target => cnot control target
  | .h q => pure (hadamard q)
  | .x q => pure (pauliX q)

end Lowering

end DualRail
