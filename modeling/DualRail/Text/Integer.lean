/-
  Numbers written in digits.

  A sign may come before a decimal integer, and then at least one digit.  Digits are
  taken in from the left, so of two faults the first one counts.
-/
set_option autoImplicit false

namespace DualRail.Text

/-- The value of a digit in a base of at most sixteen. -/
def digitIn? (base : Nat) (c : Char) : Option Nat :=
  let value :=
    if '0' ≤ c ∧ c ≤ '9' then c.toNat - '0'.toNat
    else if 'a' ≤ c ∧ c ≤ 'f' then c.toNat - 'a'.toNat + 10
    else if 'A' ≤ c ∧ c ≤ 'F' then c.toNat - 'A'.toNat + 10
    else base
  if value < base then some value else none

/-- Take in digits after a number already read. -/
def naturalFrom? (base : Nat) (n : Nat) : List Char → Option Nat
  | [] => some n
  | c :: rest =>
      match digitIn? base c with
      | some d => naturalFrom? base (base * n + d) rest
      | none => none

/-- The natural number of at least one digit. -/
def natural? (base : Nat) (cs : List Char) : Option Nat :=
  if cs.isEmpty then none else naturalFrom? base 0 cs

/-- The natural number of digits that a plus sign may precede. -/
def unsigned? (text : String) : Option Nat :=
  match text.toList with
  | '+' :: rest => natural? 10 rest
  | cs => natural? 10 cs

/-- Why a text is no integer of a range. -/
inductive IntegerError
  | empty
  | invalidDigit
  | tooLarge
  | tooSmall
deriving DecidableEq, Repr, Inhabited

namespace IntegerError

/-- The text of an error. -/
def message : IntegerError → String
  | empty => "cannot parse integer from empty string"
  | invalidDigit => "invalid digit found in string"
  | tooLarge => "number too large to fit in target type"
  | tooSmall => "number too small to fit in target type"

end IntegerError

/-- Take in digits as long as the number is at most `greatest`. -/
def boundedFrom (greatest : Nat) (overflow : IntegerError) (n : Nat) :
    List Char → Except IntegerError Nat
  | [] => .ok n
  | c :: rest =>
      match digitIn? 10 c with
      | none => .error .invalidDigit
      | some d =>
          if 10 * n + d ≤ greatest then boundedFrom greatest overflow (10 * n + d) rest
          else .error overflow

/-- The number of at least one digit. -/
def bounded (greatest : Nat) (overflow : IntegerError) (cs : List Char) :
    Except IntegerError Nat :=
  if cs.isEmpty then .error .invalidDigit else boundedFrom greatest overflow 0 cs

/-- The integer of 64 bits that a text stands for. -/
def integer64 (text : String) : Except IntegerError Int :=
  match text.toList with
  | [] => .error .empty
  | '-' :: rest => (bounded (Nat.pow 2 63) .tooSmall rest).map fun n => -(n : Int)
  | '+' :: rest => (bounded (Nat.pow 2 63 - 1) .tooLarge rest).map Int.ofNat
  | cs => (bounded (Nat.pow 2 63 - 1) .tooLarge cs).map Int.ofNat

end DualRail.Text
