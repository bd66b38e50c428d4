/-
  Protocols: the physical schemes that circuits are compiled for.
-/
import DualRail.Json.Decode

set_option autoImplicit false

namespace DualRail

/-- A physical scheme for computing with photons.  `klm` encodes a qubit in two
rails and needs only passive optics and detectors. -/
inductive Protocol
  | klm
deriving DecidableEq, Repr, Inhabited

namespace Protocol

/-- Every protocol. -/
def all : List Protocol := [klm]

/-- The name of a protocol. -/
def name : Protocol → String
  | klm => "klm"

/-- The name of a protocol in the summary of a compiler. -/
def title : Protocol → String
  | klm => "Klm"

/-- The protocol with exactly this name. -/
def ofName? (text : String) : Option Protocol := all.find? (·.name == text)

/-- The protocol with this name in upper or lower case, or a text that says which
names there are. -/
def ofName (text : String) : Except String Protocol :=
  let lower := text.map Char.toLower
  match ofName? lower with
  | some p => .ok p
  | none => .error ("Unknown protocol: '" ++ lower ++ "'. Available: klm")

/-- A protocol as JSON: its name. -/
def toJson (p : Protocol) : Json.Value := .ofString p.name

/-- Read a protocol. -/
def decode : Json.Decoder Protocol := Json.decodeSymbol (all.map name) ofName?

theorem ofName?_name (p : Protocol) : ofName? p.name = some p := by cases p; decide

end Protocol

end DualRail
