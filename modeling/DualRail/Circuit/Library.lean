/-
  Ready-made circuits.

  Three of them have a name by which they can be asked for: the Bell pair, the
  entangling stage of teleportation, and a tour of the gates that can be
  lowered.  The GHZ states form a family with one circuit per size.
-/
import DualRail.Circuit.Basic

set_option autoImplicit false

namespace DualRail

namespace Circuit

/-- A Bell pair on two qubits, measured. -/
def bell : Except CircuitError Circuit := do
  let c ← (empty "bell" 2).h ⟨0⟩
  let c ← c.cx ⟨1⟩ ⟨0⟩
  c.measure [⟨0⟩, ⟨1⟩] "result"

/-- The entangling stage of teleportation. -/
def teleportation : Except CircuitError Circuit := do
  let c ← (empty "teleportation" 3).h ⟨1⟩
  let c ← c.cx ⟨1⟩ ⟨2⟩
  let c ← c.cx ⟨0⟩ ⟨1⟩
  c.h ⟨0⟩

/-- H, X and CNOT on every position of three qubits. -/
def gateTour : Except CircuitError Circuit := do
  let c ← (empty "gate_tour" 3).h ⟨0⟩
  let c ← c.h ⟨1⟩
  let c ← c.h ⟨2⟩
  let c ← c.x ⟨0⟩
  let c ← c.x ⟨2⟩
  let c ← c.cx ⟨1⟩ ⟨0⟩
  let c ← c.cx ⟨1⟩ ⟨2⟩
  let c ← c.cx ⟨1⟩ ⟨2⟩
  let c ← c.cx ⟨1⟩ ⟨0⟩
  let c ← c.h ⟨0⟩
  let c ← c.x ⟨2⟩
  let c ← c.h ⟨1⟩
  c.h ⟨2⟩

/-- A chain of `count` controlled nots, each from qubit `i` to qubit `i + 1`,
starting at `start`. -/
def entangleFrom (start count : Nat) (c : Circuit) : Except CircuitError Circuit :=
  match count with
  | 0 => .ok c
  | k + 1 => do
      let next ← c.cx ⟨start.toUInt32⟩ ⟨(start + 1).toUInt32⟩
      entangleFrom (start + 1) k next

/-- The GHZ state on `n` qubits; no qubits, no operations. -/
def ghz (n : UInt32) : Except CircuitError Circuit :=
  if n = 0 then .ok (empty "ghz" n)
  else do
    let c ← (empty "ghz" n).h ⟨0⟩
    entangleFrom 0 (n.toNat - 1) c

end Circuit

/-- A circuit that can be asked for by name. -/
inductive Builtin
  | bell
  | teleportation
  | gateTour
deriving DecidableEq, Repr, Inhabited

namespace Builtin

/-- Every builtin circuit, in the order in which they are listed. -/
def all : List Builtin := [bell, teleportation, gateTour]

/-- The name of a builtin circuit. -/
def name : Builtin → String
  | bell => "bell"
  | teleportation => "teleportation"
  | gateTour => "gate-tour"

/-- One line on what the circuit does. -/
def description : Builtin → String
  | bell => "Bell pair with measurement (2 qubits)"
  | teleportation => "Teleportation entangling stage (3 qubits)"
  | gateTour => "H, X and CNOT on every position (3 qubits)"

/-- The number of qubits of the circuit. -/
def size : Builtin → UInt32
  | bell => 2
  | teleportation | gateTour => 3

/-- The circuit itself. -/
def circuit : Builtin → Except CircuitError Circuit
  | bell => Circuit.bell
  | teleportation => Circuit.teleportation
  | gateTour => Circuit.gateTour

/-- A name as it is compared: lower case for ASCII letters, and a hyphen for
each underscore. -/
def normalizeName (text : String) : String :=
  text.map fun c => if c = '_' then '-' else c.toLower

/-- The builtin circuit of a name; the error is the text that says which names
there are. -/
def ofName (text : String) : Except String Builtin :=
  let name := normalizeName text
  if name = "bell" then .ok bell
  else if name = "teleportation" ∨ name = "teleport" then .ok teleportation
  else if name = "gate-tour" ∨ name = "tour" then .ok gateTour
  else .error ("Unknown circuit: '" ++ name ++ "'. Available: bell, teleportation, gate-tour")

end Builtin

end DualRail
