/-
  How strings and numbers may be spelled.

  The same string can be spelled in many ways: a character may stand for itself, or
  be written as an escape.  A number has fewer spellings, but where it ends is only
  seen by what follows it.  Here the spellings are given as relations that do not
  mention the reader, and the reader is shown to take in every one of them, a string
  before any text whatever and a number before every text that could not be a part
  of it (`readToken_string`, `readToken_number`).

  What the writer writes is one of the spellings.
-/
import Mathlib.Tactic.SplitIfs
import DualRail.Json.Value

set_option autoImplicit false

namespace DualRail.Json

/-! ## Spellings of strings -/

/-- The letters of the short escapes, each with the character it stands for. -/
inductive ShortEscape : Char → Char → Prop
  | quote : ShortEscape '"' '"'
  | backslash : ShortEscape '\\' '\\'
  | slash : ShortEscape '/' '/'
  | backspace : ShortEscape 'b' '\x08'
  | formFeed : ShortEscape 'f' '\x0c'
  | lineFeed : ShortEscape 'n' '\n'
  | carriageReturn : ShortEscape 'r' '\r'
  | tab : ShortEscape 't' '\t'

/-- The hexadecimal digits of either case, each with its value. -/
inductive HexDigit : Char → Nat → Prop
  | lower {n : Nat} (h : n < 16) : HexDigit n.digitChar n
  | upper {n : Nat} (h : n < 16) : HexDigit n.digitChar.toUpper n

/-- The unit that a code stands for: half of a pair, or a character. -/
inductive CodeUnit : Nat → StringUnit → Prop
  | half {code : Nat} (hfirst : 0xD800 ≤ code) (hlast : code ≤ 0xDFFF) :
      CodeUnit code (.half code)
  | char (c : Char) : CodeUnit c.toNat (.char c)

/-- The spellings of a unit of a string. -/
inductive UnitSpelled : StringUnit → List Char → Prop
  /-- A character that needs no escape stands for itself. -/
  | plain {c : Char} (hquote : c ≠ '"') (hslash : c ≠ '\\') (hcontrol : ¬ c.toNat < 0x20) :
      UnitSpelled (.char c) [c]
  | short {e c : Char} (h : ShortEscape e c) : UnitSpelled (.char c) ['\\', e]
  | code {a b c d : Char} {i j k l : Nat} {u : StringUnit} (ha : HexDigit a i)
      (hb : HexDigit b j) (hc : HexDigit c k) (hd : HexDigit d l)
      (hu : CodeUnit (16 * (16 * (16 * i + j) + k) + l) u) :
      UnitSpelled u ['\\', 'u', a, b, c, d]

/-- The spellings of the units of a string, one after the other. -/
inductive UnitsSpelled : List StringUnit → List Char → Prop
  | nil : UnitsSpelled [] []
  | cons {u : StringUnit} {us : List StringUnit} {cs ds : List Char} (hu : UnitSpelled u cs)
      (hus : UnitsSpelled us ds) : UnitsSpelled (u :: us) (cs ++ ds)

/-- The spellings of a string: its units between quotes. -/
inductive StringSpelled : List StringUnit → List Char → Prop
  | quoted {us : List StringUnit} {cs : List Char} (h : UnitsSpelled us cs) :
      StringSpelled us ('"' :: (cs ++ ['"']))

theorem readUnits_plain {c : Char} (hquote : c ≠ '"') (hslash : c ≠ '\\')
    (hcontrol : ¬ c.toNat < 0x20) (rest : List Char) :
    readUnits (c :: rest) = (readUnits rest).map fun (us, r) => (.char c :: us, r) := by
  rw [readUnits]
  · rw [if_neg (not_or.mpr ⟨hslash, hcontrol⟩)]
  · exact hquote
  all_goals
    intros
    contradiction

theorem ShortEscape.shortEscape?_eq {e c : Char} (h : ShortEscape e c) :
    shortEscape? e = some c := by
  cases h <;> rfl

theorem readUnits_short {e c : Char} (h : ShortEscape e c) (rest : List Char) :
    readUnits ('\\' :: e :: rest) = (readUnits rest).map fun (us, r) => (.char c :: us, r) := by
  have hcode : e ≠ 'u' := by
    rintro rfl
    cases h
  rw [readUnits, h.shortEscape?_eq]
  intros
  contradiction

theorem digitIn?_digitChar :
    ∀ n < 16, Text.digitIn? 16 n.digitChar = some n ∧
      Text.digitIn? 16 n.digitChar.toUpper = some n := by decide

theorem HexDigit.digitIn?_eq {d : Char} {n : Nat} (h : HexDigit d n) :
    Text.digitIn? 16 d = some n := by
  cases h with
  | lower hn => exact (digitIn?_digitChar n hn).1
  | upper hn => exact (digitIn?_digitChar n hn).2

theorem CodeUnit.unitOfCode_eq {code : Nat} {u : StringUnit} (h : CodeUnit code u) :
    unitOfCode code = u := by
  cases h with
  | half hfirst hlast => exact if_pos ⟨hfirst, by omega⟩
  | char c =>
      -- The code of a character is never that of a half.
      have hvalid : c.toNat < 0xD800 ∨ 0xDFFF < c.toNat ∧ c.toNat < 0x110000 := c.valid
      rw [unitOfCode, if_neg (by omega), Char.ofNat_toNat]

theorem readUnits_code {a b c d : Char} {i j k l : Nat} {u : StringUnit} (ha : HexDigit a i)
    (hb : HexDigit b j) (hc : HexDigit c k) (hd : HexDigit d l)
    (hu : CodeUnit (16 * (16 * (16 * i + j) + k) + l) u) (rest : List Char) :
    readUnits ('\\' :: 'u' :: a :: b :: c :: d :: rest) =
      (readUnits rest).map fun (us, r) => (u :: us, r) := by
  have hcode : Text.natural? 16 [a, b, c, d] = some (16 * (16 * (16 * i + j) + k) + l) := by
    simp only [Text.natural?, Text.naturalFrom?, ha.digitIn?_eq, hb.digitIn?_eq, hc.digitIn?_eq,
      hd.digitIn?_eq, Nat.mul_zero, Nat.zero_add]
    rfl
  rw [readUnits, hcode]
  simp only [hu.unitOfCode_eq]

theorem readUnits_unit {u : StringUnit} {cs : List Char} (h : UnitSpelled u cs)
    (rest : List Char) :
    readUnits (cs ++ rest) = (readUnits rest).map fun (us, r) => (u :: us, r) := by
  cases h with
  | plain hquote hslash hcontrol => exact readUnits_plain hquote hslash hcontrol rest
  | short h => exact readUnits_short h rest
  | code ha hb hc hd hu => exact readUnits_code ha hb hc hd hu rest

theorem readUnits_units {us : List StringUnit} {cs : List Char} (h : UnitsSpelled us cs)
    (rest : List Char) : readUnits (cs ++ '"' :: rest) = some (us, rest) := by
  induction h with
  | nil => rw [List.nil_append, readUnits]
  | cons hu _ ih =>
      rw [List.append_assoc, readUnits_unit hu, ih]
      rfl

/-- A string is read whatever follows it. -/
theorem readToken_string {us : List StringUnit} {cs : List Char} (h : StringSpelled us cs)
    (rest : List Char) : readToken (cs ++ rest) = some (.string us, rest) := by
  obtain ⟨hunits⟩ := h
  rw [List.cons_append, List.append_assoc, List.singleton_append, readToken,
    readUnits_units hunits]
  rfl

/-! ## Spellings of numbers -/

/-- Decimal digits. -/
def AllDigits (cs : List Char) : Prop := ∀ c ∈ cs, c.isDigit = true

/-- The spellings of the whole part of a number: no zero before other digits. -/
inductive WholeSpelled : List Char → Prop
  | zero : WholeSpelled ['0']
  | digits {d : Char} {ds : List Char} (hzero : d ≠ '0') (hdigits : AllDigits (d :: ds)) :
      WholeSpelled (d :: ds)

/-- The spellings of the digits after the point. -/
inductive FractionSpelled : List Char → List Char → Prop
  | absent : FractionSpelled [] []
  | digits {d : Char} {ds : List Char} (hdigits : AllDigits (d :: ds)) :
      FractionSpelled (d :: ds) ('.' :: d :: ds)

/-- The spellings of the sign of an exponent; the second is whether it is negative. -/
inductive SignSpelled : Bool → List Char → Prop
  | absent : SignSpelled false []
  | plus : SignSpelled false ['+']
  | minus : SignSpelled true ['-']

/-- The spellings of an exponent. -/
inductive ExponentSpelled : Option (Bool × List Char) → List Char → Prop
  | absent : ExponentSpelled none []
  | digits {mark d : Char} {ds sign : List Char} {negative : Bool}
      (hmark : mark = 'e' ∨ mark = 'E') (hsign : SignSpelled negative sign)
      (hdigits : AllDigits (d :: ds)) :
      ExponentSpelled (some (negative, d :: ds)) (mark :: (sign ++ d :: ds))

/-- The spellings of a number. -/
inductive NumeralSpelled : Numeral → List Char → Prop
  | parts {negative : Bool} {whole fraction fractionText exponentText : List Char}
      {exponent : Option (Bool × List Char)} (hwhole : WholeSpelled whole)
      (hfraction : FractionSpelled fraction fractionText)
      (hexponent : ExponentSpelled exponent exponentText) :
      NumeralSpelled ⟨negative, whole, fraction, exponent⟩
        ((if negative then ['-'] else []) ++ (whole ++ (fractionText ++ exponentText)))

/-- A character that cannot continue a number. -/
def endsNumber (c : Char) : Bool := !(c.isDigit || c == '.' || c == 'e' || c == 'E')

/-- A text that cannot continue a number that stands before it. -/
def EndsNumber (rest : List Char) : Prop := ∀ c ∈ rest.head?, endsNumber c = true

theorem endsNumber_nil : EndsNumber [] := by
  intro c hc
  cases hc

theorem endsNumber_cons {c : Char} {rest : List Char} (h : endsNumber c = true) :
    EndsNumber (c :: rest) := by
  intro d hd
  cases hd
  exact h

theorem EndsNumber.not_startsWithDigit {rest : List Char} (h : EndsNumber rest) :
    startsWithDigit rest = false := by
  cases rest with
  | nil => rfl
  | cons c rest =>
      have hc := h c rfl
      simp only [endsNumber, Bool.not_eq_true', Bool.or_eq_false_iff] at hc
      exact hc.1.1.1

theorem EndsNumber.head_ne {rest : List Char} (h : EndsNumber rest) {c : Char}
    (hc : endsNumber c = false) (tail : List Char) : rest ≠ c :: tail := by
  rintro rfl
  rw [h c rfl] at hc
  cases hc

section Digits

variable {d : Char} {ds rest : List Char} (hdigits : AllDigits (d :: ds))
  (hrest : startsWithDigit rest = false)

include hdigits

theorem AllDigits.startsWithDigit_append : startsWithDigit (d :: ds ++ rest) = true :=
  hdigits d List.mem_cons_self

include hrest

theorem AllDigits.takeWhile_append : (d :: ds ++ rest).takeWhile Char.isDigit = d :: ds := by
  rw [List.takeWhile_append_of_pos hdigits]
  cases rest with
  | nil => simp
  | cons c rest =>
      have hc : c.isDigit = false := hrest
      simp [hc]

theorem AllDigits.dropWhile_append : (d :: ds ++ rest).dropWhile Char.isDigit = rest := by
  rw [List.dropWhile_append_of_pos hdigits]
  cases rest with
  | nil => rfl
  | cons c rest =>
      have hc : c.isDigit = false := hrest
      simp [hc]

theorem readWhole_digits (hzero : d ≠ '0') :
    readWhole (d :: ds ++ rest) = some (d :: ds, rest) := by
  rw [List.cons_append, readWhole, ← List.cons_append, hdigits.startsWithDigit_append,
    hdigits.takeWhile_append hrest, hdigits.dropWhile_append hrest]
  · rfl
  · intro tail heq
    cases heq
    exact hzero rfl

theorem readFraction_digits : readFraction ('.' :: (d :: ds ++ rest)) = some (d :: ds, rest) := by
  rw [readFraction, hdigits.startsWithDigit_append, hdigits.takeWhile_append hrest,
    hdigits.dropWhile_append hrest]
  rfl

theorem readExponentDigits_digits (negative : Bool) :
    readExponentDigits negative (d :: ds ++ rest) = some (some (negative, d :: ds), rest) := by
  rw [readExponentDigits, hdigits.startsWithDigit_append, hdigits.takeWhile_append hrest,
    hdigits.dropWhile_append hrest]
  rfl

theorem readExponentSign_digits {negative : Bool} {sign : List Char}
    (hsign : SignSpelled negative sign) :
    readExponentSign (sign ++ (d :: ds ++ rest)) = some (some (negative, d :: ds), rest) := by
  have hd : d.isDigit = true := hdigits d List.mem_cons_self
  cases hsign with
  | plus => exact readExponentDigits_digits hdigits hrest false
  | minus => exact readExponentDigits_digits hdigits hrest true
  | absent =>
      rw [List.nil_append, List.cons_append, readExponentSign]
      · exact readExponentDigits_digits hdigits hrest false
      · rintro tail heq
        cases heq
        cases hd
      · rintro tail heq
        cases heq
        cases hd

end Digits

theorem readWhole_spelled {whole rest : List Char} (h : WholeSpelled whole)
    (hrest : startsWithDigit rest = false) : readWhole (whole ++ rest) = some (whole, rest) := by
  cases h with
  | zero =>
      show readWhole ('0' :: rest) = _
      rw [readWhole, hrest]
      rfl
  | digits hzero hdigits => exact readWhole_digits hdigits hrest hzero

theorem readExponent_spelled {exponent : Option (Bool × List Char)} {cs rest : List Char}
    (h : ExponentSpelled exponent cs) (hrest : EndsNumber rest) :
    readExponent (cs ++ rest) = some (exponent, rest) := by
  cases h with
  | absent =>
      rw [List.nil_append, readExponent]
      · exact hrest.head_ne rfl
      · exact hrest.head_ne rfl
  | digits hmark hsign hdigits =>
      rw [List.cons_append, List.append_assoc]
      rcases hmark with rfl | rfl
      · exact readExponentSign_digits hdigits hrest.not_startsWithDigit hsign
      · exact readExponentSign_digits hdigits hrest.not_startsWithDigit hsign

theorem readFraction_spelled {fraction cs rest : List Char} (h : FractionSpelled fraction cs)
    (hdigit : startsWithDigit rest = false) (hpoint : ∀ tail, rest ≠ '.' :: tail) :
    readFraction (cs ++ rest) = some (fraction, rest) := by
  cases h with
  | absent =>
      rw [List.nil_append, readFraction]
      exact hpoint
  | digits hdigits => exact readFraction_digits hdigits hdigit

/-- What follows the fraction of a number neither is a digit nor a point. -/
theorem ExponentSpelled.append_ends {exponent : Option (Bool × List Char)} {cs rest : List Char}
    (h : ExponentSpelled exponent cs) (hrest : EndsNumber rest) :
    startsWithDigit (cs ++ rest) = false ∧ ∀ tail, cs ++ rest ≠ '.' :: tail := by
  cases h with
  | absent => exact ⟨hrest.not_startsWithDigit, hrest.head_ne rfl⟩
  | digits hmark hsign hdigits =>
      rcases hmark with rfl | rfl
      · exact ⟨rfl, by nofun⟩
      · exact ⟨rfl, by nofun⟩

theorem FractionSpelled.append_ends {fraction cs rest : List Char} (h : FractionSpelled fraction cs)
    (hrest : startsWithDigit rest = false) : startsWithDigit (cs ++ rest) = false := by
  cases h with
  | absent => exact hrest
  | digits hdigits => rfl

theorem readNumber_spelled {whole fraction fractionText exponentText : List Char}
    {exponent : Option (Bool × List Char)} (hwhole : WholeSpelled whole)
    (hfraction : FractionSpelled fraction fractionText)
    (hexponent : ExponentSpelled exponent exponentText) {rest : List Char}
    (hrest : EndsNumber rest) (negative : Bool) :
    readNumber negative (whole ++ (fractionText ++ exponentText) ++ rest) =
      some (⟨negative, whole, fraction, exponent⟩, rest) := by
  obtain ⟨hdigit, hpoint⟩ := hexponent.append_ends hrest
  rw [readNumber, List.append_assoc, List.append_assoc,
    readWhole_spelled hwhole (hfraction.append_ends hdigit)]
  simp only [Option.bind_eq_bind, Option.bind_some, readFraction_spelled hfraction hdigit hpoint,
    readExponent_spelled hexponent hrest]
  rfl

theorem readToken_digit {d : Char} {cs : List Char} (hd : d.isDigit = true) :
    readToken (d :: cs) = (readNumber false (d :: cs)).map fun (n, r) => (.number n, r) := by
  rw [readToken.eq_def]
  split
  case h_12 => rfl
  -- No other token starts with a digit.
  all_goals
    rename_i heq
    cases heq
    exact absurd hd (by decide)

theorem WholeSpelled.exists_digit {whole : List Char} (h : WholeSpelled whole) :
    ∃ (d : Char) (ds : List Char), whole = d :: ds ∧ d.isDigit = true := by
  cases h with
  | zero => exact ⟨'0', [], rfl, rfl⟩
  | digits hzero hdigits => exact ⟨_, _, rfl, hdigits _ List.mem_cons_self⟩

/-- A number is read before every text that cannot continue it. -/
theorem readToken_number {n : Numeral} {cs rest : List Char} (h : NumeralSpelled n cs)
    (hrest : EndsNumber rest) : readToken (cs ++ rest) = some (.number n, rest) := by
  obtain ⟨hwhole, hfraction, hexponent⟩ := h
  rename_i negative whole fraction fractionText exponentText exponent
  have hread := readNumber_spelled hwhole hfraction hexponent hrest negative
  cases negative with
  | true =>
      show readToken ('-' :: (whole ++ (fractionText ++ exponentText) ++ rest)) = _
      rw [readToken, hread]
      rfl
  | false =>
      show readToken (whole ++ (fractionText ++ exponentText) ++ rest) = _
      obtain ⟨d, ds, rfl, hd⟩ := hwhole.exists_digit
      rw [List.cons_append, List.cons_append] at hread ⊢
      rw [readToken_digit hd, hread]
      rfl

/-! ## What the writer writes -/

/-- Digits filled up with zeros end in the last digit, after the others filled up. -/
theorem filled_succ {width : Nat} (hwidth : 0 < width) (n : Nat) :
    List.replicate (width + 1 - (Nat.toDigits 16 n).length) '0' ++ Nat.toDigits 16 n =
      List.replicate (width - (Nat.toDigits 16 (n / 16)).length) '0' ++ Nat.toDigits 16 (n / 16) ++
        [(n % 16).digitChar] := by
  by_cases h : n < 16
  · have hdiv : n / 16 = 0 := Nat.div_eq_of_lt h
    have hmod : n % 16 = n := Nat.mod_eq_of_lt h
    obtain ⟨k, rfl⟩ : ∃ k, width = k + 1 := ⟨width - 1, by omega⟩
    rw [hdiv, hmod, Nat.toDigits_of_lt_base h, Nat.toDigits_zero]
    simp [List.replicate_succ']
  · rw [Nat.toDigits_of_base_le (by decide) (Nat.not_lt.mp h)]
    simp

theorem unitSpelled_writeCode {code : Nat} {u : StringUnit} (h : code < 65536)
    (hu : CodeUnit code u) : UnitSpelled u (Value.writeCode code) := by
  have hfirst : code / 16 / 16 / 16 < 16 := by omega
  have hdigit : ∀ n : Nat, HexDigit (n % 16).digitChar (n % 16) := by
    intro n
    exact .lower (Nat.mod_lt _ (by decide))
  have hcode : 16 * (16 * (16 * (code / 16 / 16 / 16) + code / 16 / 16 % 16) + code / 16 % 16) +
      code % 16 = code := by
    omega
  have hwrite : Value.writeCode code =
      ['\\', 'u', (code / 16 / 16 / 16).digitChar, (code / 16 / 16 % 16).digitChar,
        (code / 16 % 16).digitChar, (code % 16).digitChar] := by
    rw [Value.writeCode]
    simp only [filled_succ (show 0 < 3 by decide), filled_succ (show 0 < 2 by decide),
      filled_succ (show 0 < 1 by decide), Nat.toDigits_of_lt_base hfirst]
    rfl
  rw [hwrite]
  apply UnitSpelled.code (.lower hfirst) (hdigit _) (hdigit _) (hdigit _)
  rw [hcode]
  exact hu

theorem unitSpelled_writeUnit (c : Char) :
    UnitSpelled (.char c) (Value.writeUnit (.char c)) := by
  rw [Value.writeUnit]
  split_ifs with hquote hslash hb hf hn hr ht hcontrol
  · subst hquote
    exact .short .quote
  · subst hslash
    exact .short .backslash
  · subst hb
    exact .short .backspace
  · subst hf
    exact .short .formFeed
  · subst hn
    exact .short .lineFeed
  · subst hr
    exact .short .carriageReturn
  · subst ht
    exact .short .tab
  · exact unitSpelled_writeCode (by omega) (.char c)
  · exact .plain hquote hslash hcontrol

theorem unitsSpelled_write (cs : List Char) :
    UnitsSpelled (cs.map .char) ((cs.map .char).flatMap Value.writeUnit) := by
  induction cs with
  | nil => exact .nil
  | cons c cs ih => exact .cons (unitSpelled_writeUnit c) ih

theorem stringSpelled_write (s : String) :
    StringSpelled (s.toList.map .char) (Value.writeString (s.toList.map .char)) :=
  .quoted (unitsSpelled_write s.toList)

/-- The first digit of a number is zero for zero only. -/
theorem head_toDigits_ne_zero {n : Nat} (hn : 0 < n) : (Nat.toDigits 10 n).head? ≠ some '0' := by
  induction n using Nat.strongRecOn with
  | ind n ih =>
      by_cases h : n < 10
      · rw [Nat.toDigits_of_lt_base h, List.head?_cons, ne_eq, Option.some.injEq,
          Nat.digitChar_eq_zero]
        omega
      · have hhead := ih (n / 10) (by omega) (by omega)
        rw [Nat.toDigits_of_base_le (by decide) (Nat.not_lt.mp h)]
        cases hds : Nat.toDigits 10 (n / 10) with
        | nil => exact absurd hds Nat.toDigits_ne_nil
        | cons d ds =>
            rw [hds] at hhead
            exact hhead

theorem wholeSpelled_toDigits (n : Nat) : WholeSpelled (Nat.toDigits 10 n) := by
  rcases Nat.eq_zero_or_pos n with rfl | hn
  · exact .zero
  · have hzero := head_toDigits_ne_zero hn
    have hdigits : AllDigits (Nat.toDigits 10 n) := by
      intro c hc
      exact Nat.isDigit_of_mem_toDigits (by decide) (by decide) hc
    cases hds : Nat.toDigits 10 n with
    | nil => exact absurd hds Nat.toDigits_ne_nil
    | cons d ds =>
        rw [hds] at hzero hdigits
        refine .digits ?_ hdigits
        rintro rfl
        exact hzero rfl

theorem numeralSpelled_write (n : Nat) :
    NumeralSpelled (.ofNat n) (Value.writeNumeral (.ofNat n)) := by
  have hwrite : Value.writeNumeral (.ofNat n) = [] ++ (Nat.toDigits 10 n ++ ([] ++ [])) := by
    simp [Value.writeNumeral, Numeral.ofNat]
  rw [hwrite]
  exact .parts (wholeSpelled_toDigits n) .absent .absent

end DualRail.Json
