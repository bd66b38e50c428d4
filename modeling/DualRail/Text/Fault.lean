/-
  Why a text cannot be read as a value.

  Readers work through a text from its start to its end and stop at the first
  fault.  A text that breaks the rules of its format is `malformed`; every other
  fault says what was found and what would have been right.
-/
import DualRail.Text.Quoted

set_option autoImplicit false

namespace DualRail

/-- Why a text cannot be read as a value. -/
inductive Fault
  | malformed
  | invalidType (found expected : String)
  | invalidValue (found expected : String)
  | invalidLength (length : Nat) (expected : String)
  | unknownVariant (name : String) (expected : List String)
  | unknownField (name : String) (expected : List String)
  | duplicateField (name : String)
  | missingField (name : String)
  | inField (field : String) (fault : Fault)
deriving DecidableEq, Repr, Inhabited

namespace Fault

/-- The names that would have been right. -/
def alternatives (names : List String) : String :=
  match names with
  | [a] => Text.ticked a
  | [a, b] => Text.ticked a ++ " or " ++ Text.ticked b
  | _ => "one of " ++ String.intercalate ", " (names.map Text.ticked)

/-- The text of a fault. -/
def message : Fault → String
  | malformed => "<syntax>"
  | invalidType found expected => "invalid type: " ++ found ++ ", expected " ++ expected
  | invalidValue found expected => "invalid value: " ++ found ++ ", expected " ++ expected
  | invalidLength length expected =>
      "invalid length " ++ length.repr ++ ", expected " ++ expected
  | unknownVariant name expected =>
      "unknown variant " ++ Text.ticked name ++ ", expected " ++ alternatives expected
  | unknownField name expected =>
      "unknown field " ++ Text.ticked name ++ ", expected " ++ alternatives expected
  | duplicateField name => "duplicate field " ++ Text.ticked name
  | missingField name => "missing field " ++ Text.ticked name
  | inField field fault => field ++ ": " ++ message fault

/-- The fault of the value of a field.  A malformed text is no more so for
standing in a field. -/
def within (field : String) : Fault → Fault
  | malformed => malformed
  | fault => inField field fault

end Fault

/-! ## How found things are described -/

namespace Found

/-- A truth value. -/
def boolean (b : Bool) : String := "boolean " ++ Text.ticked (if b then "true" else "false")

/-- A natural number. -/
def natural (n : Nat) : String := "integer " ++ Text.ticked n.repr

/-- The negative of a natural number. -/
def negative (n : Nat) : String := "integer " ++ Text.ticked ("-" ++ n.repr)

/-- An integer. -/
def integer (n : Int) : String := if n < 0 then negative n.natAbs else natural n.natAbs

/-- A floating point number, given by its text. -/
def float (text : String) : String := "floating point " ++ Text.ticked text

/-- A text. -/
def string (s : String) : String := "string " ++ Text.quoted s

end Found

end DualRail
