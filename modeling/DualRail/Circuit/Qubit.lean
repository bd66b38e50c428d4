/-
  Qubits on a line.

  A qubit is named by its position on a one-dimensional line.  Positions are
  32-bit words; every calculation on them is done in `Nat`, so that nothing
  wraps around.
-/
set_option autoImplicit false

namespace DualRail

/-- A qubit, named by its position on the line. -/
structure Qubit where
  position : UInt32
deriving DecidableEq, Repr, Inhabited

namespace Qubit

/-- The position as a natural number. -/
def index (q : Qubit) : Nat := q.position.toNat

/-- How a qubit is written: `q` and its position. -/
def label (q : Qubit) : String := "q" ++ q.index.repr

/-- The number of steps along the line between two qubits. -/
def distance (a b : Qubit) : Nat := (a.index - b.index) + (b.index - a.index)

/-- Two qubits are adjacent when they are one step apart. -/
def isAdjacent (a b : Qubit) : Bool := a.distance b == 1

/-- The two qubits with the lower position first. -/
def ordered (a b : Qubit) : Qubit × Qubit :=
  if a.index ≤ b.index then (a, b) else (b, a)

/-- The first `count` qubits of the line. -/
def range (count : UInt32) : List Qubit :=
  (List.range count.toNat).map fun i => ⟨i.toUInt32⟩

/-- The first qubit of the list that is already in `seen` or occurs earlier in
the list. -/
def firstRepeat (seen : List Qubit) : List Qubit → Option Qubit
  | [] => none
  | q :: rest => if q ∈ seen then some q else firstRepeat (q :: seen) rest

theorem index_lt (q : Qubit) : q.index < 4294967296 := q.position.toNat_lt

theorem ext_index {a b : Qubit} (h : a.index = b.index) : a = b := by
  cases a
  cases b
  simpa [index, UInt32.toNat_inj] using h

end Qubit

end DualRail
