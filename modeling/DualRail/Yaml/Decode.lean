/-
  From nodes to typed values.

  A text takes every scalar as it is written.  Numbers and truth values have to
  be plain, or literal with a tag that says so.  A fault is named after the
  setting that it is found in.
-/
import DualRail.Yaml.Node
import DualRail.Yaml.Plain

set_option autoImplicit false

namespace DualRail.Yaml

/-! ## Tags -/

/-- The tag of a type that the format itself knows. -/
def coreTag (name : String) : TagName := .ofString ("tag:yaml.org,2002:" ++ name)

/-! ## Descriptions -/

namespace Scalar

/-- The fault of a scalar in the place of what was expected, if its tag gives its
type. -/
def tagFault? (s : Scalar) (tag : TagName) (expected : String) : Option Fault :=
  let refuse (m : Option Meaning) (type : String) : Fault :=
    match m with
    | some m => .invalidType m.describe expected
    | none => .invalidValue (Found.string s.text) type
  if tag = coreTag "bool" then some (refuse ((boolean? s.text).map .boolean) "a boolean")
  else if tag = coreTag "int" then some (refuse (integer? s.text.toList) "an integer")
  else if tag = coreTag "float" then some (refuse ((float? s.text.toList).map .float) "a float")
  else if tag = coreTag "null" then
    some (refuse (if isNull s.text then some .null else none) "null")
  else none

/-- What a scalar stands for, if its tag leaves that open. -/
def meaning (s : Scalar) : Meaning :=
  let isOpen : Bool :=
    match s.tag with
    | none => true
    | some tag => tag.isPrivate
  if s.style = .plain ∧ isOpen then Yaml.meaning s.text else .text s.text

/-- The fault of a scalar in the place of what was expected. -/
def fault (s : Scalar) (expected : String) : Fault :=
  (s.tag.bind fun tag => s.tagFault? tag expected).getD (.invalidType s.meaning.describe expected)

/-- Whether a scalar may stand for a value of a type with this tag. -/
def mayBe (s : Scalar) (type : String) : Bool :=
  s.style == .plain || (s.style == .literal && s.tag == some (coreTag type))

end Scalar

namespace Node

/-- The fault of a node in the place of what was expected. -/
def fault (expected : String) : Node → Fault
  | scalar s => s.fault expected
  | sequence _ => .invalidType "sequence" expected
  | mapping _ _ => .invalidType "map" expected

end Node

/-! ## Values -/

/-- Read a text; `expected` is what it is called. -/
def decodeText (expected : String) : Node → Except Fault String
  | .scalar s => .ok s.text
  | n => .error (n.fault expected)

/-- Read a number of 32 bits. -/
def decodeUInt32 (n : Node) : Except Fault UInt32 :=
  match n with
  | .scalar s =>
      match (if s.mayBe "int" then natural? s.text.toList else none) with
      | some k =>
          if k < Nat.pow 2 32 then .ok k.toUInt32
          else if k < Nat.pow 2 64 then .error (.invalidValue (Found.natural k) "u32")
          else .error (n.fault "u32")
      | none => .error (n.fault "u32")
  | _ => .error (n.fault "u32")

/-- Read a truth value. -/
def decodeBool (n : Node) : Except Fault Bool :=
  match n with
  | .scalar s =>
      match (if s.mayBe "bool" then boolean? s.text else none) with
      | some b => .ok b
      | none => .error (n.fault "a boolean")
  | _ => .error (n.fault "a boolean")

/-- Read nothing, after a tag that says which variant it belongs to. -/
def decodeUnit (n : Node) : Except Fault Unit :=
  match n with
  | .scalar s =>
      if s.style = .plain ∧ (s.text = "" ∨ isNull s.text) then .ok ()
      else .error (.invalidValue (Found.string s.text) "null")
  | _ => .error (n.fault "unit")

/-- Read the value of a setting. -/
def decodeSetting {α : Type} (name : String) (decode : Node → Except Fault α) (n : Node) :
    Except Fault α :=
  (decode n).mapError (·.within name)

/-- Read the value of a setting that may be null. -/
def decodeOptional {α : Type} (name : String) (decode : Node → Except Fault α) (n : Node) :
    Except Fault (Option α) :=
  match n with
  | .scalar s =>
      if s.style ≠ .plain then (decodeSetting name decode n).map some
      else if s.tag = some (coreTag "null") then
        if isNull s.text then .ok none else .error (.invalidValue (Found.string s.text) "null")
      else if s.tag = none ∧ (s.text = "" ∨ isNull s.text) then .ok none
      else (decodeSetting name decode n).map some
  | _ => (decodeSetting name decode n).map some

/-- The symbol with a name. -/
def symbol {α : Type} (names : List String) (ofName? : String → Option α) (text : String) :
    Except Fault α :=
  match ofName? text with
  | some a => .ok a
  | none => .error (.unknownVariant text names)

/-- The tag of a node. -/
def Node.tag? : Node → Option TagName
  | .scalar s => s.tag
  | .sequence tag => tag
  | .mapping _ tag => tag

/-- Read the value of a setting that is one of several symbols, given by its name
or by a tag with nothing after it. -/
def decodeSymbol {α : Type} (name : String) (names : List String) (ofName? : String → Option α)
    (n : Node) : Except Fault α :=
  match n.tag?.bind TagName.variant? with
  | some variant => do
      let a ← symbol names ofName? variant
      decodeSetting name decodeUnit n
      return a
  | none =>
      decodeSetting name
        (fun n =>
          match n with
          | .scalar s => symbol names ofName? s.text
          | _ => .error (n.fault "a YAML tag starting with '!'"))
        n

end DualRail.Yaml
