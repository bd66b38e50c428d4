/-
  From JSON values to typed values.

  A decoder goes through a value in the order of the text and stops at the first
  fault.  A record may be given as an object, its members in any order and
  further members among them, or as an array of its fields.  A variant is given
  by its name, or by an object with the name as its only key.
-/
import DualRail.Json.Value
import DualRail.Text.Fault

set_option autoImplicit false

namespace DualRail.Json

/-- A reader of values of type `α`. -/
abbrev Decoder (α : Type) := Value → Except Fault α

namespace Value

/-- The text of a string; half characters cannot be read. -/
def unitsText (units : List StringUnit) : Except Fault String :=
  match joinUnits units with
  | some cs => .ok (String.ofList cs)
  | none => .error .malformed

/-- How a value is described that is not what was expected.  Only its beginning
counts, as far as the text goes. -/
def describe : Value → Except Fault String
  | .broken => .error .malformed
  | .null => .ok "null"
  | .bool b => .ok (Found.boolean b)
  | .number n =>
      match n.value? with
      | some (.natural k) => .ok (Found.natural k)
      | some (.negative k) => .ok (Found.negative k)
      | some (.float text) => .ok (Found.float text)
      | none => .error .malformed
  | .string units => (unitsText units).map Found.string
  | .array _ _ => .ok "sequence"
  | .object _ _ => .ok "map"

/-- Refuse a value in the place of what was expected. -/
def refuse {α : Type} (v : Value) (expected : String) : Except Fault α :=
  match v.describe with
  | .ok found => .error (.invalidType found expected)
  | .error e => .error e

end Value

/-! ## Simple values -/

/-- Read a text. -/
def decodeString : Decoder String
  | .string units => Value.unitsText units
  | v => v.refuse "a string"

/-- Read a natural number below `bound`; `type` is what such numbers are called. -/
def decodeNat (bound : Nat) (type : String) : Decoder Nat
  | .number n =>
      match n.value? with
      | some (.natural k) =>
          if k < bound then .ok k else .error (.invalidValue (Found.natural k) type)
      | some (.negative k) => .error (.invalidValue (Found.negative k) type)
      | some (.float text) => .error (.invalidType (Found.float text) type)
      | none => .error .malformed
  | v => v.refuse type

/-- Read a number of 32 bits. -/
def decodeUInt32 : Decoder UInt32 := fun v => (decodeNat (Nat.pow 2 32) "u32" v).map Nat.toUInt32

/-- Read a number of 64 bits. -/
def decodeUInt64 : Decoder UInt64 := fun v => (decodeNat (Nat.pow 2 64) "u64" v).map Nat.toUInt64

/-- Read nothing: the value has to be `null`. -/
def decodeUnit : Decoder Unit
  | .null => .ok ()
  | v => v.refuse "unit"

/-! ## Lists -/

/-- Read values one after the other. -/
def decodeItems {α : Type} (decode : Decoder α) : List Value → Except Fault (List α)
  | [] => .ok []
  | v :: rest => do
      let a ← decode v
      let as ← decodeItems decode rest
      return a :: as

/-- Refuse an array or an object that was not closed. -/
def checkClosed (closed : Bool) : Except Fault Unit :=
  if closed then .ok () else .error .malformed

/-- Read a list. -/
def decodeList {α : Type} (decode : Decoder α) : Decoder (List α)
  | .array items closed => do
      let as ← decodeItems decode items
      checkClosed closed
      return as
  | v => v.refuse "a sequence"

/-! ## Records given as arrays -/

/-- Read the next field of a record that is given as an array.  `missing` is what
a closed array without the field gives. -/
def nextItem {α : Type} (decode : Decoder α) (missing : Except Fault α) (closed : Bool) :
    List Value → Except Fault (α × List Value)
  | v :: rest => (decode v).map fun a => (a, rest)
  | [] => if closed then missing.map fun a => (a, []) else .error .malformed

/-- Refuse an array that holds more than the fields of its record, or that was
not closed. -/
def endItems (closed : Bool) (rest : List Value) : Except Fault Unit :=
  if rest.isEmpty then checkClosed closed else .error .malformed

/-! ## Records given as objects -/

/-- Read the members of a record.  `take` stores the value of a field, and is
`none` for a key that names no field; such a member only has to be well-formed. -/
def decodeMembers {σ : Type} (take : String → σ → Value → Option (Except Fault σ)) (closed : Bool) :
    Members → σ → Except Fault σ
  | [], s => (checkClosed closed).map fun _ => s
  | (units, v) :: rest, s => do
      let key ← Value.unitsText units
      match take key s v with
      | some taken => do
          let s' ← taken
          decodeMembers take closed rest s'
      | none =>
          if v.isWhole then decodeMembers take closed rest s else .error .malformed

/-- Read the value of a field, unless the field was read before. -/
def takeField {α : Type} (name : String) (before : Option α) (decode : Decoder α) (v : Value) :
    Except Fault α :=
  match before with
  | some _ => .error (.duplicateField name)
  | none => decode v

/-- The value of a field that has to be there. -/
def requireField {α : Type} (name : String) : Option α → Except Fault α
  | some a => .ok a
  | none => .error (.missingField name)

/-! ## Records with one field -/

/-- Store the only field of a record. -/
def takeOnly {α : Type} (field : String) (decode : Decoder α) (name : String) (before : Option α)
    (v : Value) : Option (Except Fault (Option α)) :=
  if name = field then some ((takeField field before decode v).map some) else none

/-- Read a record with only one field; `title` is what such a record is called. -/
def decodeOnly {α : Type} (title field : String) (decode : Decoder α) : Decoder α
  | .object members closed => do
      let a ← decodeMembers (takeOnly field decode) closed members none
      requireField field a
  | .array items closed => do
      let missing := .error (.invalidLength 0 (title ++ " with 1 element"))
      let (a, rest) ← nextItem decode missing closed items
      endItems closed rest
      return a
  | v => v.refuse title

/-! ## Variants -/

/-- Read a variant.  `pick` gives the reader of the variant with a name; that
reader gets what the name stands for, if anything is given. -/
def decodeVariant {α : Type} (names : List String)
    (pick : String → Option (Option Value → Except Fault α)) : Decoder α
  | .string units => do
      let name ← Value.unitsText units
      match pick name with
      | some decode => decode none
      | none => .error (.unknownVariant name names)
  | .object ((units, v) :: rest) closed => do
      let name ← Value.unitsText units
      match pick name with
      | some decode => do
          let a ← decode (some v)
          if rest.isEmpty then checkClosed closed else .error .malformed
          return a
      | none => .error (.unknownVariant name names)
  | _ => .error .malformed

/-- The reader of a variant that stands for itself. -/
def bareVariant {α : Type} (a : α) : Option Value → Except Fault α
  | none => .ok a
  | some v => (decodeUnit v).map fun _ => a

/-- The reader of a variant with a content. -/
def contentVariant {α : Type} (kind : String) (decode : Decoder α) : Option Value → Except Fault α
  | none => .error (.invalidType "unit variant" kind)
  | some v => decode v

/-- Read one of several symbols. -/
def decodeSymbol {α : Type} (names : List String) (ofName? : String → Option α) : Decoder α :=
  decodeVariant names fun name => (ofName? name).map bareVariant

/-! ## Texts -/

/-- Read a typed value from a text.  Nothing but blanks may follow it. -/
def decodeText {α : Type} (decode : Decoder α) (text : String) : Except Fault α := do
  let (v, rest) := read text.toList
  let a ← decode v
  if rest.isEmpty then return a else .error .malformed

end DualRail.Json
