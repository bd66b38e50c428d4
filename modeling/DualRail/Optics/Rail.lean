/-
  Rails and ports.

  A qubit travels on two neighbouring waveguides, its rails: the qubit at
  position `p` owns rail `2p` (input) and rail `2p + 1` (output).  A component is
  connected to rails by its ports; a port without a rail sees the vacuum.  Rails
  are 64-bit words, so the rails of every 32-bit position fit.
-/
import DualRail.Circuit.Qubit

set_option autoImplicit false

namespace DualRail

/-- Where a component is connected. -/
inductive Port
  | rail (index : UInt64)
  | vacuum
deriving DecidableEq, Repr, Inhabited

namespace Port

/-- How a port is written: the number of its rail, or `~`. -/
def text : Port → String
  | rail index => index.toNat.repr
  | vacuum => "~"

end Port

/-- The two ports on one side of a component. -/
structure PortPair where
  first : Port
  second : Port
deriving DecidableEq, Repr, Inhabited

namespace PortPair

/-- How a pair of ports is written: `(1,0)`. -/
def text (p : PortPair) : String := "(" ++ p.first.text ++ "," ++ p.second.text ++ ")"

end PortPair

/-- The rails of a qubit. -/
structure RailPair where
  input : UInt64
  output : UInt64
deriving DecidableEq, Repr, Inhabited

namespace RailPair

/-- The rails of the qubit at a position, as numbers. -/
def inputIndex (position : Nat) : Nat := 2 * position

/-- The rail after the input rail. -/
def outputIndex (position : Nat) : Nat := 2 * position + 1

/-- The rails of the position `p`: `2p` and `2p + 1`. -/
def ofPosition (position : Nat) : RailPair :=
  ⟨(inputIndex position).toUInt64, (outputIndex position).toUInt64⟩

/-- The rails of a qubit. -/
def ofQubit (q : Qubit) : RailPair := ofPosition q.index

/-- The input rail as a port. -/
def inputPort (r : RailPair) : Port := .rail r.input

/-- The output rail as a port. -/
def outputPort (r : RailPair) : Port := .rail r.output

/-- The rail next to the input rail on the side of the neighbour below, or the
vacuum where the line ends. -/
def belowInput (r : RailPair) : Port :=
  if r.input = 0 then .vacuum else .rail (r.input - 1)

theorem toNat_input (q : Qubit) : (ofQubit q).input.toNat = 2 * q.index := by
  have hlt := q.index_lt
  simp only [ofQubit, ofPosition, inputIndex, Nat.toUInt64, UInt64.toNat_ofNat']
  omega

theorem toNat_output (q : Qubit) : (ofQubit q).output.toNat = 2 * q.index + 1 := by
  have hlt := q.index_lt
  simp only [ofQubit, ofPosition, outputIndex, Nat.toUInt64, UInt64.toNat_ofNat']
  omega

end RailPair

end DualRail
