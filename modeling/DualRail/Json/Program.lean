/-
  Programs as JSON.

  A program is a record of its operations, an operation is a record of its lines,
  and a line is blank or a component.  A component is a record of its part and
  its two pairs of ports.
-/
import DualRail.Optics.Program
import DualRail.Json.Decode

set_option autoImplicit false

namespace DualRail

open Json (Value Decoder)

/-! ## Parts and ports -/

namespace Part

/-- A part as JSON: its symbol. -/
def toJson (p : Part) : Value := .ofString p.symbol

/-- Read a part. -/
def decode : Decoder Part := Json.decodeSymbol (all.map symbol) ofSymbol?

end Part

namespace Port

/-- A port as JSON. -/
def toJson : Port → Value
  | rail index => .record [("Rail", .ofNat index.toNat)]
  | vacuum => .ofString "Open"

/-- Read a port. -/
def decode : Decoder Port :=
  Json.decodeVariant ["Rail", "Open"] fun name =>
    if name = "Rail" then
      some (Json.contentVariant "newtype variant" fun v => (Json.decodeUInt64 v).map rail)
    else if name = "Open" then some (Json.bareVariant vacuum)
    else none

end Port

namespace PortPair

/-- A pair of ports as JSON. -/
def toJson (p : PortPair) : Value := .list [p.first.toJson, p.second.toJson]

/-- Read a pair of ports. -/
def decode : Decoder PortPair
  | .array items closed => do
      let short (n : Nat) := Fault.invalidLength n "tuple struct PortPair with 2 elements"
      let (first, rest) ← Json.nextItem Port.decode (.error (short 0)) closed items
      let (second, rest) ← Json.nextItem Port.decode (.error (short 1)) closed rest
      Json.endItems closed rest
      return ⟨first, second⟩
  | v => v.refuse "tuple struct PortPair"

end PortPair

/-! ## Components -/

namespace Component

/-- A component as JSON. -/
def toJson (c : Component) : Value :=
  .record [("part", c.part.toJson), ("input", c.input.toJson), ("output", c.output.toJson)]

/-- The fields of a component that were read so far. -/
structure Draft where
  part : Option Part
  input : Option PortPair
  output : Option PortPair

/-- Store a field of a component. -/
def takeField (name : String) (d : Draft) (v : Value) : Option (Except Fault Draft) :=
  if name = "part" then
    some ((Json.takeField "part" d.part Part.decode v).map fun p => { d with part := some p })
  else if name = "input" then
    some ((Json.takeField "input" d.input PortPair.decode v).map fun p =>
      { d with input := some p })
  else if name = "output" then
    some ((Json.takeField "output" d.output PortPair.decode v).map fun p =>
      { d with output := some p })
  else none

/-- Read a component. -/
def decode : Decoder Component
  | .object members closed => do
      let d ← Json.decodeMembers takeField closed members ⟨none, none, none⟩
      let part ← Json.requireField "part" d.part
      let input ← Json.requireField "input" d.input
      let output ← Json.requireField "output" d.output
      return ⟨part, input, output⟩
  | .array items closed => do
      let short (n : Nat) := Fault.invalidLength n "struct ComponentInstance with 3 elements"
      let (part, rest) ← Json.nextItem Part.decode (.error (short 0)) closed items
      let (input, rest) ← Json.nextItem PortPair.decode (.error (short 1)) closed rest
      let (output, rest) ← Json.nextItem PortPair.decode (.error (short 2)) closed rest
      Json.endItems closed rest
      return ⟨part, input, output⟩
  | v => v.refuse "struct ComponentInstance"

/-- The text of a component. -/
def jsonText (c : Component) : String := c.toJson.text

end Component

/-! ## Lines, blocks and programs -/

namespace Line

/-- A line as JSON. -/
def toJson : Line → Value
  | component c => .record [("Component", c.toJson)]
  | blank => .ofString "Blank"

/-- Read a line. -/
def decode : Decoder Line :=
  Json.decodeVariant ["Component", "Blank"] fun name =>
    if name = "Component" then
      some (Json.contentVariant "newtype variant" fun v => (Component.decode v).map component)
    else if name = "Blank" then some (Json.bareVariant blank)
    else none

end Line

namespace Block

/-- A block as JSON. -/
def toJson (b : Block) : Value := .record [("lines", .list (b.lines.map Line.toJson))]

/-- Read a block. -/
def decode : Decoder Block := fun v =>
  (Json.decodeOnly "struct Block" "lines" (Json.decodeList Line.decode) v).map Block.mk

/-- The text of a block. -/
def jsonText (b : Block) : String := b.toJson.text

end Block

namespace Program

/-- A program as JSON. -/
def toJson (p : Program) : Value :=
  .record [("operations", .list (p.operations.map Block.toJson))]

/-- Read a program. -/
def decode : Decoder Program := fun v =>
  (Json.decodeOnly "struct Program" "operations" (Json.decodeList Block.decode) v).map Program.mk

/-- The text of a program. -/
def jsonText (p : Program) : String := p.toJson.text

/-- Read a program from a text. -/
def ofJsonText (text : String) : Except Fault Program := Json.decodeText decode text

end Program

end DualRail
