/-
  Circuits as JSON.

  A circuit is a record of its name, its number of qubits and its moments, which
  may be left out when there are none.  A moment is a record of its operations;
  an instruction is a record of its kind and its qubits.
-/
import DualRail.Circuit.Basic
import DualRail.Json.Decode

set_option autoImplicit false

namespace DualRail

open Json (Value Decoder)

/-! ## Gates and qubits -/

namespace Gate

/-- A gate as JSON: its symbol. -/
def toJson (g : Gate) : Value := .ofString g.symbol

/-- Read a gate. -/
def decode : Decoder Gate := Json.decodeSymbol (all.map symbol) ofSymbol?

end Gate

namespace Qubit

/-- A qubit as JSON: its position. -/
def toJson (q : Qubit) : Value := .ofNat q.index

/-- Read a qubit. -/
def decode : Decoder Qubit := fun v => (Json.decodeUInt32 v).map Qubit.mk

end Qubit

/-! ## Instructions -/

namespace Action

/-- An action as JSON: a variant with its content. -/
def toJson : Action → Value
  | gate g => .record [("Gate", g.toJson)]
  | measure key => .record [("Measure", .record [("key", .ofString key)])]
  | barrier => .ofString "Barrier"

/-- Read the content of a measurement. -/
def decodeMeasure : Decoder Action := fun v =>
  (Json.decodeOnly "struct variant InstructionKind::Measure" "key" Json.decodeString v).map measure

/-- Read an action. -/
def decode : Decoder Action :=
  Json.decodeVariant ["Gate", "Measure", "Barrier"] fun name =>
    if name = "Gate" then
      some (Json.contentVariant "newtype variant" fun v => (Gate.decode v).map gate)
    else if name = "Measure" then some (Json.contentVariant "struct variant" decodeMeasure)
    else if name = "Barrier" then some (Json.bareVariant barrier)
    else none

end Action

namespace Instruction

/-- An instruction as JSON. -/
def toJson (i : Instruction) : Value :=
  .record [("kind", i.action.toJson), ("qubits", .list (i.qubits.map Qubit.toJson))]

/-- The fields of an instruction that were read so far. -/
structure Draft where
  action : Option Action
  qubits : Option (List Qubit)

/-- Store a field of an instruction. -/
def takeField (name : String) (d : Draft) (v : Value) : Option (Except Fault Draft) :=
  if name = "kind" then
    some ((Json.takeField "kind" d.action Action.decode v).map fun a =>
      { d with action := some a })
  else if name = "qubits" then
    some ((Json.takeField "qubits" d.qubits (Json.decodeList Qubit.decode) v).map fun qs =>
      { d with qubits := some qs })
  else none

/-- Read an instruction. -/
def decode : Decoder Instruction
  | .object members closed => do
      let d ← Json.decodeMembers takeField closed members ⟨none, none⟩
      let action ← Json.requireField "kind" d.action
      let qubits ← Json.requireField "qubits" d.qubits
      return ⟨action, qubits⟩
  | .array items closed => do
      let short (n : Nat) := Fault.invalidLength n "struct Instruction with 2 elements"
      let (action, rest) ← Json.nextItem Action.decode (.error (short 0)) closed items
      let (qubits, rest) ←
        Json.nextItem (Json.decodeList Qubit.decode) (.error (short 1)) closed rest
      Json.endItems closed rest
      return ⟨action, qubits⟩
  | v => v.refuse "struct Instruction"

end Instruction

/-! ## Moments -/

namespace Moment

/-- A moment as JSON. -/
def toJson (m : Moment) : Value :=
  .record [("operations", .list (m.operations.map Instruction.toJson))]

/-- Read a moment. -/
def decode : Decoder Moment := fun v =>
  (Json.decodeOnly "struct Moment" "operations" (Json.decodeList Instruction.decode) v).map
    Moment.mk

end Moment

/-! ## Circuits -/

namespace Circuit

/-- A circuit as JSON. -/
def toJson (c : Circuit) : Value :=
  .record
    [("name", .ofString c.name), ("num_qubits", .ofNat c.size.toNat),
      ("moments", .list (c.moments.map Moment.toJson))]

/-- The fields of a circuit that were read so far. -/
structure Draft where
  name : Option String
  size : Option UInt32
  moments : Option (List Moment)

/-- Store a field of a circuit. -/
def takeField (name : String) (d : Draft) (v : Value) : Option (Except Fault Draft) :=
  if name = "name" then
    some ((Json.takeField "name" d.name Json.decodeString v).map fun s =>
      { d with name := some s })
  else if name = "num_qubits" then
    some ((Json.takeField "num_qubits" d.size Json.decodeUInt32 v).map fun n =>
      { d with size := some n })
  else if name = "moments" then
    some ((Json.takeField "moments" d.moments (Json.decodeList Moment.decode) v).map fun ms =>
      { d with moments := some ms })
  else none

/-- Read a circuit.  It is not checked. -/
def decode : Decoder Circuit
  | .object members closed => do
      let d ← Json.decodeMembers takeField closed members ⟨none, none, none⟩
      let name ← Json.requireField "name" d.name
      let size ← Json.requireField "num_qubits" d.size
      return ⟨name, size, d.moments.getD []⟩
  | .array items closed => do
      let short (n : Nat) := Fault.invalidLength n "struct Circuit with 3 elements"
      let (name, rest) ← Json.nextItem Json.decodeString (.error (short 0)) closed items
      let (size, rest) ← Json.nextItem Json.decodeUInt32 (.error (short 1)) closed rest
      let (moments, rest) ← Json.nextItem (Json.decodeList Moment.decode) (.ok []) closed rest
      Json.endItems closed rest
      return ⟨name, size, moments⟩
  | v => v.refuse "struct Circuit"

/-- The text of a circuit. -/
def jsonText (c : Circuit) : String := c.toJson.text

/-- Read a circuit from a text.  It is not checked. -/
def ofJsonText (text : String) : Except Fault Circuit := Json.decodeText decode text

end Circuit

end DualRail
