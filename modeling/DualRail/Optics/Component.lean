/-
  Optical components: the parts of the catalogue, and parts placed on rails.
-/
import DualRail.Optics.Rail

set_option autoImplicit false

namespace DualRail

/-- A part of the catalogue. -/
inductive Part
  | directionalStandard
  | directionalHeated
  | ringResonator
  | hybridDirectional
  | photonDetector
  | crossing
deriving DecidableEq, Repr, Inhabited

namespace Part

/-- Every part, in the order of the catalogue. -/
def all : List Part :=
  [directionalStandard, directionalHeated, ringResonator, hybridDirectional, photonDetector,
    crossing]

/-- How a part is called in a program: its name and its parameters. -/
def template : Part → String
  | directionalStandard => "directional_standard 5 20 0.4 15"
  | directionalHeated => "directional_heated 5 20 0.4 15"
  | ringResonator => "hresonator"
  | hybridDirectional => "hdirectional"
  | photonDetector => "waveguide_sspd"
  | crossing => "waveguide_crossing"

/-- The symbol that stands for a part in a program file. -/
def symbol : Part → String
  | directionalStandard => "DirectionalStandard"
  | directionalHeated => "DirectionalHeated"
  | ringResonator => "HResonator"
  | hybridDirectional => "HDirectional"
  | photonDetector => "WaveguideSspd"
  | crossing => "WaveguideCrossing"

/-- The part of a symbol. -/
def ofSymbol? (text : String) : Option Part := all.find? (·.symbol == text)

/-- Whether a part exchanges two rails. -/
def isCrossing : Part → Bool
  | crossing => true
  | _ => false

/-- The place of a part in the catalogue. -/
def index (p : Part) : Nat := all.idxOf p

theorem ofSymbol?_symbol (p : Part) : ofSymbol? p.symbol = some p := by
  cases p <;> decide

end Part

/-- A part placed on rails. -/
structure Component where
  part : Part
  input : PortPair
  output : PortPair
deriving DecidableEq, Repr, Inhabited

namespace Component

/-- A part that leaves by the ports by which it is entered. -/
def straight (part : Part) (a b : Port) : Component := ⟨part, ⟨a, b⟩, ⟨a, b⟩⟩

/-- A crossing of two rails. -/
def crossing (a b : UInt64) : Component := straight .crossing (.rail a) (.rail b)

/-- A directional coupler between two ports. -/
def coupler (a b : Port) : Component := straight .directionalStandard a b

/-- How a component is written: its part, then its ports on both sides. -/
def text (c : Component) : String :=
  c.part.template ++ " " ++ c.input.text ++ " " ++ c.output.text

end Component

end DualRail
