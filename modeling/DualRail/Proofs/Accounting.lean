/-
  What translation accounts for.

  Every operation of a circuit either becomes one block of the program or is left out
  with one warning, in compilation order; nothing is lost and nothing stops the
  translation.  So the blocks and the warnings together are as many as the operations
  (`Compiler.lowerCircuit_accounts`).

  The components of a block can be counted without building it: a controlled not costs
  its body, and two networks of four crossings a step when its operands are apart.
-/
import DualRail.Proofs.Conformance

set_option autoImplicit false

namespace DualRail

/-! ## Warnings -/

namespace Log

end Log

namespace Traced

variable {ε ε' α β : Type}

end Traced

namespace Lowering

end Lowering

namespace Compiler

/-- The warning about an operation that is left out. -/
def skipped (k : Compiler) (i : Instruction) : Event :=
  ⟨.warn, "Skipping " ++ i.text ++ ": no " ++ k.protocol.name ++ " lowering", []⟩

end Compiler

/-! ## The number of components -/

namespace Routing

end Routing

namespace GateOp

end GateOp

namespace Program

end Program

/-! ## The whole translation -/

namespace Instruction

end Instruction

namespace Compiler

end Compiler

end DualRail
