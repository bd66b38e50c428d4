/-
  The gates a circuit may name, with their number of operands.
-/
set_option autoImplicit false

namespace DualRail

/-- A quantum gate without its operands. -/
inductive Gate
  | identity
  | pauliX
  | pauliY
  | pauliZ
  | hadamard
  | phase
  | tee
  | cnot
  | cphase
  | swap
deriving DecidableEq, Repr, Inhabited

namespace Gate

/-- Every gate, in the order in which a list of them is written. -/
def all : List Gate :=
  [identity, pauliX, pauliY, pauliZ, hadamard, phase, tee, cnot, cphase, swap]

/-- The short name of a gate, as messages show it. -/
def name : Gate → String
  | identity => "id"
  | pauliX => "x"
  | pauliY => "y"
  | pauliZ => "z"
  | hadamard => "h"
  | phase => "s"
  | tee => "t"
  | cnot => "cx"
  | cphase => "cz"
  | swap => "swap"

/-- The symbol that stands for a gate in a circuit file. -/
def symbol : Gate → String
  | identity => "I"
  | pauliX => "X"
  | pauliY => "Y"
  | pauliZ => "Z"
  | hadamard => "H"
  | phase => "S"
  | tee => "T"
  | cnot => "CX"
  | cphase => "CZ"
  | swap => "Swap"

/-- The number of qubits a gate acts on. -/
def arity : Gate → Nat
  | cnot | cphase | swap => 2
  | _ => 1

/-- The gate of a symbol. -/
def ofSymbol? (text : String) : Option Gate := all.find? (·.symbol == text)

theorem ofSymbol?_symbol (g : Gate) : ofSymbol? g.symbol = some g := by
  cases g <;> decide

end Gate

end DualRail
