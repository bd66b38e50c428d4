/-
  Number literals of JSON and what they stand for.

  A literal without fraction and exponent is an integer if it fits into 64 bits,
  signed or unsigned.  All other literals are floating point numbers: a
  significand of 64 bits, which ignores digits that do not fit any more, is
  multiplied or divided by a power of ten.  A number beyond the largest double
  stands for nothing.
-/
import DualRail.Text.Decimal

set_option autoImplicit false

namespace DualRail.Json

/-- A number literal: sign, whole digits, digits after the point, and an exponent
with its sign. -/
structure Numeral where
  negative : Bool
  whole : List Char
  fraction : List Char
  exponent : Option (Bool × List Char)
deriving DecidableEq, Repr, Inhabited

/-- What a number literal stands for. -/
inductive Number
  | natural (n : Nat)
  | negative (n : Nat)
  | float (text : String)
deriving DecidableEq, Repr, Inhabited

namespace Numeral

/-- The largest significand of a floating point literal. -/
def maxSignificand : Nat := Nat.pow 2 64 - 1

/-- The largest exponent that is calculated with. -/
def maxExponent : Nat := Nat.pow 2 31 - 1

/-- The literal of a natural number. -/
def ofNat (n : Nat) : Numeral := ⟨false, Nat.toDigits 10 n, [], none⟩

/-- Take in whole digits: a digit that does not fit and all after it only count
as powers of ten. -/
def takeWhole (significand : Nat) : List Char → Nat × Nat
  | [] => (significand, 0)
  | c :: rest =>
      let next := Nat.ofDigitChars 10 [c] significand
      if next ≤ maxSignificand then takeWhole next rest else (significand, rest.length + 1)

/-- Take in digits after the point, up to the first that does not fit; the second
result counts them. -/
def takeFraction (significand count : Nat) : List Char → Nat × Nat
  | [] => (significand, count)
  | c :: rest =>
      let next := Nat.ofDigitChars 10 [c] significand
      if next ≤ maxSignificand then takeFraction next (count + 1) rest else (significand, count)

/-- A power of ten as a double. -/
def powerOfTen (n : Nat) : Float := Float.ofScientific 1 false n

/-- Divide by `10 ^ n`, in steps that stay in the range of doubles. -/
def scaleDown (f : Float) (n : Nat) : Float :=
  if n ≤ 308 then f / powerOfTen n
  else if f == 0.0 then f
  else scaleDown (f / powerOfTen 308) (n - 308)
termination_by n

/-- Multiply by `10 ^ n`, if the result is a finite double. -/
def scaleUp? (f : Float) (n : Nat) : Option Float :=
  if n ≤ 308 then
    let product := f * powerOfTen n
    if product.isInf then none else some product
  else if f == 0.0 then some f
  else none

/-- The magnitude of a floating point literal, if it is in the range of doubles. -/
def magnitude? (x : Numeral) : Option Float :=
  let (significand, dropped) := takeWhole 0 x.whole
  let (significand, places) := takeFraction significand 0 x.fraction
  let scale (power : Int) : Option Float :=
    let f := significand.toUInt64.toFloat
    if power < 0 then some (scaleDown f power.natAbs) else scaleUp? f power.toNat
  match x.exponent with
  | none => scale ((dropped : Int) - places)
  | some (negative, digits) =>
      let e := Nat.ofDigitChars 10 digits 0
      if e ≤ maxExponent then
        scale ((dropped : Int) - places + (if negative then -(e : Int) else e))
      else if significand = 0 ∨ negative then some 0.0
      else none

/-- Whether a literal has neither fraction nor exponent. -/
def isInteger (x : Numeral) : Bool := x.fraction.isEmpty && x.exponent.isNone

/-- Numbers are written positionally or with an exponent, and a tie goes to the
even digit. -/
def floatFormat : Text.FloatFormat := ⟨.even, Text.Decimal.compact⟩

/-- What a literal stands for; nothing if it is out of range. -/
def value? (x : Numeral) : Option Number :=
  let n := Nat.ofDigitChars 10 x.whole 0
  if x.isInteger ∧ ¬ x.negative ∧ n < Nat.pow 2 64 then some (.natural n)
  else if x.isInteger ∧ x.negative ∧ 0 < n ∧ n ≤ Nat.pow 2 63 then some (.negative n)
  else x.magnitude?.map fun f =>
    .float (Text.doubleText floatFormat (if x.negative then -f else f))

end Numeral

end DualRail.Json
