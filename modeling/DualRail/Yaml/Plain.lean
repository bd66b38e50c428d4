/-
  What a plain scalar stands for.

  A plain scalar may be null, a truth value, an integer or a floating point
  number, and is a text otherwise.  Integers are decimal, hexadecimal, octal or
  binary; digits with a zero before them are a text.
-/
import DualRail.Text.Decimal
import DualRail.Text.Fault
import DualRail.Text.Integer

set_option autoImplicit false

namespace DualRail.Yaml

/-- What a plain scalar stands for.  An integer beyond 64 bits tells the width of
its type. -/
inductive Meaning
  | null
  | boolean (b : Bool)
  | integer (n : Int)
  | wideInteger (n : Int) (type : String)
  | float (text : String)
  | text (s : String)
deriving DecidableEq, Repr, Inhabited

/-- Whether a text stands for nothing. -/
def isNull (s : String) : Bool := ["null", "Null", "NULL", "~"].contains s

/-- The truth value of a text. -/
def boolean? (s : String) : Option Bool :=
  if ["true", "True", "TRUE"].contains s then some true
  else if ["false", "False", "FALSE"].contains s then some false
  else none

/-! ## Integers -/

/-- Whether a text starts with a sign. -/
def isSigned : List Char → Bool
  | c :: _ => c == '+' || c == '-'
  | [] => false

/-- A text without a plus sign at its start. -/
def dropPlus : List Char → List Char
  | '+' :: rest => rest
  | cs => cs

/-- Whether a text is a zero with more digits after it. -/
def isZeroPadded (cs : List Char) : Bool :=
  match (if isSigned cs then cs.drop 1 else cs) with
  | '0' :: d :: rest => (d :: rest).all Char.isDigit
  | _ => false

/-- The digits of a natural number and their base. -/
def baseOf : List Char → Nat × List Char
  | '0' :: 'x' :: rest => (16, rest)
  | '0' :: 'o' :: rest => (8, rest)
  | '0' :: 'b' :: rest => (2, rest)
  | cs => (10, cs)

/-- The natural number that a text stands for. -/
def natural? (cs : List Char) : Option Nat :=
  let (base, digits) := baseOf (dropPlus cs)
  if isZeroPadded cs then none else Text.natural? base digits

/-- The number that a text stands for the negative of. -/
def negative? (cs : List Char) : Option Nat :=
  match cs with
  | '-' :: rest =>
      let (base, digits) := baseOf rest
      if isZeroPadded cs then none else Text.natural? base digits
  | _ => none

/-- The integer that a text stands for, unless it is too large for any type. -/
def integer? (cs : List Char) : Option Meaning :=
  match natural? cs, negative? cs with
  | some n, _ =>
      if n < Nat.pow 2 64 then some (.integer n)
      else if n < Nat.pow 2 128 then some (.wideInteger n "u128")
      else none
  | none, some n =>
      if n ≤ Nat.pow 2 63 then some (.integer (-(n : Int)))
      else if n ≤ Nat.pow 2 127 then some (.wideInteger (-(n : Int)) "i128")
      else none
  | none, none => none

/-! ## Floating point numbers -/

/-- The digits of a floating point number and its exponent, which may be missing. -/
def exponent? : List Char → Option Int
  | [] => some 0
  | c :: rest =>
      if c == 'e' || c == 'E' then
        match rest with
        | '-' :: digits => (Text.natural? 10 digits).map fun n => -(n : Int)
        | '+' :: digits => (Text.natural? 10 digits).map Int.ofNat
        | digits => (Text.natural? 10 digits).map Int.ofNat
      else none

/-- The double next to `significand * 10 ^ power`, if that is in the range of
doubles. -/
def scaled? (significand : Nat) (power : Int) : Option Float :=
  let places : Int := (Nat.toDigits 10 significand).length + power
  if significand = 0 ∨ places < -400 then some 0.0
  else if 400 < places then none
  else
    let x := Float.ofScientific significand (power < 0) power.natAbs
    if x.isInf then none else some x

/-- The magnitude of a floating point number. -/
def magnitude? (cs : List Char) : Option Float :=
  let whole := cs.takeWhile Char.isDigit
  let afterWhole := cs.dropWhile Char.isDigit
  let pointed := afterWhole.head? == some '.'
  let fraction := if pointed then (afterWhole.drop 1).takeWhile Char.isDigit else []
  let rest := if pointed then (afterWhole.drop 1).dropWhile Char.isDigit else afterWhole
  match Text.natural? 10 (whole ++ fraction), exponent? rest with
  | some significand, some e => scaled? significand (e - fraction.length)
  | _, _ => none

/-- Numbers are written positionally, and a tie goes up. -/
def floatFormat : Text.FloatFormat := ⟨.up, Text.Decimal.positional⟩

/-- The text of the floating point number that a text stands for. -/
def float? (cs : List Char) : Option String :=
  let write (x : Float) := Text.doubleText floatFormat x
  let s := String.ofList cs
  if [".inf", ".Inf", ".INF", "+.inf", "+.Inf", "+.INF"].contains s then some "inf"
  else if ["-.inf", "-.Inf", "-.INF"].contains s then some "-inf"
  else if [".nan", ".NaN", ".NAN"].contains s then some "NaN"
  else
    match cs with
    | '-' :: rest => (magnitude? rest).map fun x => write (-x)
    | '+' :: rest => (magnitude? rest).map write
    | _ => (magnitude? cs).map write

/-! ## All together -/

/-- What a plain scalar stands for. -/
def meaning (s : String) : Meaning :=
  let cs := s.toList
  if s = "" ∨ isNull s then .null
  else
    match boolean? s, integer? cs with
    | some b, _ => .boolean b
    | none, some m => m
    | none, none =>
        match (if isZeroPadded cs then none else float? cs) with
        | some text => .float text
        | none => .text s

namespace Meaning

/-- How something is described that is not what was expected. -/
def describe : Meaning → String
  | null => "unit value"
  | boolean b => Found.boolean b
  | integer n => Found.integer n
  | wideInteger n type => Found.integer n ++ " as " ++ type
  | float digits => Found.float digits
  | text s => Found.string s

end Meaning

end DualRail.Yaml
