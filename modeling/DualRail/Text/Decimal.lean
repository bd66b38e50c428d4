/-
  The shortest decimal text of a binary floating point number.

  A finite positive number `m * 2 ^ q` stands for every real that rounds to it:
  an interval whose ends lie halfway to the neighbouring numbers and belong to it
  when `m` is even.  Its shortest decimal is the one with the fewest digits that
  lies in this interval; of several with the same number of digits it is the
  nearest, and of two that are equally near the one that a rule for ties picks.
  The search is exact: for each number of digits, the two decimals next to the
  number are tried.
-/
set_option autoImplicit false

namespace DualRail.Text

/-- A positive number `significand * 2 ^ exponent`.  `narrowBelow` marks the
numbers whose lower neighbour is only half as far away as the upper one. -/
structure Binary where
  significand : Nat
  exponent : Int
  narrowBelow : Bool
deriving DecidableEq, Repr, Inhabited

/-- Which of two decimals is taken when a number lies halfway between them: the
greater one, or the one with an even last digit. -/
inductive Tie
  | up
  | even
deriving DecidableEq, Repr, Inhabited

namespace Tie

/-- Whether a number halfway between `d` and `d + 1` goes to `d + 1`. -/
def goesUp (tie : Tie) (d : Nat) : Bool :=
  match tie with
  | up => true
  | even => d % 2 == 1

end Tie

/-- A positive decimal number `0.d₁d₂d₃… * 10 ^ point`. -/
structure Decimal where
  digits : List Char
  point : Int
deriving DecidableEq, Repr, Inhabited

namespace Binary

/-- The binary number of the bits of a positive finite double. -/
def ofBits (bits : Nat) : Binary :=
  let fraction : Nat := bits % Nat.pow 2 52
  let biased : Nat := bits / Nat.pow 2 52 % Nat.pow 2 11
  if biased = 0 then ⟨fraction, -1074, false⟩
  else ⟨fraction + Nat.pow 2 52, Int.ofNat biased - 1075, fraction == 0 && 1 < biased⟩

/-- Compare `a * 10 ^ s` with `b * 2 ^ t`. -/
def compareScaled (a : Nat) (s : Int) (b : Nat) (t : Int) : Ordering :=
  compare (a * Nat.pow 10 s.toNat * Nat.pow 2 (-t).toNat)
    (b * Nat.pow 2 t.toNat * Nat.pow 10 (-s).toNat)

/-- Whether `d * 10 ^ s` rounds to the number. -/
def holds (x : Binary) (d : Nat) (s : Int) : Bool :=
  let quarter := x.exponent - 2
  let low := 4 * x.significand - (if x.narrowBelow then 1 else 2)
  let high := 4 * x.significand + 2
  let even := x.significand % 2 == 0
  let above := compareScaled d s low quarter
  let below := compareScaled d s high quarter
  (above == .gt || (even && above == .eq)) && (below == .lt || (even && below == .eq))

/-- The whole part of `x / 10 ^ s`. -/
def scaledFloor (x : Binary) (s : Int) : Nat :=
  x.significand * Nat.pow 2 x.exponent.toNat * Nat.pow 10 (-s).toNat /
    (Nat.pow 2 (-x.exponent).toNat * Nat.pow 10 s.toNat)

/-- Whether `x / 10 ^ s` is rounded to `d + 1` rather than to `d`, its whole part. -/
def roundsUp (tie : Tie) (x : Binary) (d : Nat) (s : Int) : Bool :=
  match compareScaled (2 * d + 1) s (2 * x.significand) x.exponent with
  | .lt => true
  | .eq => tie.goesUp d
  | .gt => false

/-- The decimal `d * 10 ^ s` of those next to the number with this `s` that is in
its interval, if there is one. -/
def candidate? (tie : Tie) (x : Binary) (s : Int) : Option Nat :=
  let d := x.scaledFloor s
  match x.holds d s, x.holds (d + 1) s with
  | true, true => some (if x.roundsUp tie d s then d + 1 else d)
  | true, false => some d
  | false, true => some (d + 1)
  | false, false => none

/-- The least power of ten above the number, as an exponent. -/
def point (x : Binary) : Int :=
  ((Nat.toDigits 10 (x.scaledFloor (-350))).length : Int) - 350

/-- Search from `count` digits on, for at most `tries` numbers of digits. -/
def shortestFrom (tie : Tie) (x : Binary) (count : Nat) : Nat → Nat × Int
  | 0 => (x.scaledFloor (x.point - count), x.point - count)
  | tries + 1 =>
      let s := x.point - count
      match x.candidate? tie s with
      | some d => (d, s)
      | none => shortestFrom tie x (count + 1) tries

/-- The shortest decimal of a number.  Seventeen digits always suffice. -/
def shortest (tie : Tie) (x : Binary) : Decimal :=
  let (d, s) := x.shortestFrom tie 1 17
  let digits := Nat.toDigits 10 d
  let kept := (digits.reverse.dropWhile (· == '0')).reverse
  ⟨kept, digits.length + s⟩

end Binary

namespace Decimal

/-- All digits written out, with a point among, before or after them. -/
def positional (x : Decimal) : String :=
  if x.point ≤ 0 then
    "0." ++ String.ofList (List.replicate (-x.point).toNat '0' ++ x.digits)
  else if x.digits.length ≤ x.point.toNat then
    String.ofList (x.digits ++ List.replicate (x.point.toNat - x.digits.length) '0') ++ ".0"
  else
    String.ofList (x.digits.take x.point.toNat) ++ "." ++
      String.ofList (x.digits.drop x.point.toNat)

/-- One digit before the point, and the power of ten with its sign after an `e`. -/
def scientific (x : Decimal) : String :=
  let first := String.ofList (x.digits.take 1)
  let rest := String.ofList (x.digits.drop 1)
  let power := x.point - 1
  let sign := if power < 0 then "-" else "+"
  first ++ (if rest = "" then "" else "." ++ rest) ++ "e" ++ sign ++ power.natAbs.repr

/-- Positional between `0.00001` and `10 ^ 16`, scientific elsewhere. -/
def compact (x : Decimal) : String :=
  if -5 < x.point ∧ x.point ≤ 16 then x.positional else x.scientific

end Decimal

/-- How floating point numbers are written: what becomes of ties, and the text of
a decimal. -/
structure FloatFormat where
  tie : Tie
  write : Decimal → String

/-- The text of a finite double: its sign, and its shortest decimal. -/
def doubleText (format : FloatFormat) (x : Float) : String :=
  let bits := x.toBits.toNat
  let sign := if bits < Nat.pow 2 63 then "" else "-"
  let magnitude := bits % Nat.pow 2 63
  if magnitude = 0 then sign ++ "0.0"
  else sign ++ format.write ((Binary.ofBits magnitude).shortest format.tie)

end DualRail.Text
