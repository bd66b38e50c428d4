/-
  Routing networks.

  A controlled not between distant qubits is preceded and followed by a network
  of crossings.  Each step of the network exchanges the qubits of two
  neighbouring positions, rail by rail, with four crossings; the steps start at
  the lower operand and move up two positions at a time.
-/
import DualRail.Log
import DualRail.Optics.Program

set_option autoImplicit false

namespace DualRail.Routing

/-- Operands that were given with the higher position first. -/
structure Disordered where
  low : Qubit
  upper : Qubit
deriving DecidableEq, Repr, Inhabited

/-- The crossing of two rails, given by their numbers. -/
def cross (a b : Nat) : Component := .crossing a.toUInt64 b.toUInt64

/-- Four crossings that exchange the qubits at the positions `p` and `p + 1`. -/
def exchange (p : Nat) : List Component :=
  [cross (2 * p + 2) (2 * p + 1), cross (2 * p + 1) (2 * p),
    cross (2 * p + 3) (2 * p + 2), cross (2 * p + 2) (2 * p + 1)]

/-- The positions at which the steps of a network start.  There is a step at
`low` while the output rail of the next position lies at most one above the
number of the upper position. -/
def starts (low upper : Nat) : List Nat :=
  if 2 * low + 3 ≤ upper + 1 then low :: starts (low + 2) upper else []
termination_by upper - low

/-- The lines of the network between two positions: all steps, then a blank line. -/
def networkBlock (low upper : Nat) : Block :=
  ⟨((starts low upper).flatMap exchange).map Line.component ++ [.blank]⟩

/-- The network for a controlled not between two qubits.  Neighbours need none,
and the lower position has to come first. -/
def network (low upper : Qubit) : Traced Disordered Block :=
  if upper.index < low.index then .fail ⟨low, upper⟩
  else if low.distance upper ≤ 1 then pure .empty
  else do
    Traced.emit .debug "Built swap network"
      [.number "steps" (starts low.index upper.index).length, .number "upper" upper.index]
    return networkBlock low.index upper.index

end DualRail.Routing
