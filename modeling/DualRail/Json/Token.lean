/-
  The tokens of JSON.

  A text is cut into punctuation, literals, numbers and strings; blanks between
  them are dropped.  Where the text stops being JSON, the last token is `bad`.
  A string is kept as its units: characters, and halves of characters that were
  written as escapes.
-/
import DualRail.Json.Numeral
import DualRail.Text.Integer

set_option autoImplicit false

namespace DualRail.Json

/-- A piece of a string: a character, or one half of a surrogate pair. -/
inductive StringUnit
  | char (c : Char)
  | half (code : Nat)
deriving DecidableEq, Repr, Inhabited

/-- A token of JSON. -/
inductive Token
  | beginObject
  | endObject
  | beginArray
  | endArray
  | colon
  | comma
  | null
  | bool (b : Bool)
  | number (n : Numeral)
  | string (units : List StringUnit)
  | bad
deriving DecidableEq, Repr, Inhabited

/-! ## Strings -/

/-- Put the halves of characters together.  A half without its counterpart is no
character. -/
def joinUnits : List StringUnit → Option (List Char)
  | [] => some []
  | .char c :: rest => (joinUnits rest).map (c :: ·)
  | .half high :: .half low :: rest =>
      if 0xD800 ≤ high ∧ high < 0xDC00 ∧ 0xDC00 ≤ low ∧ low < 0xE000 then
        (joinUnits rest).map
          (Char.ofNat (0x10000 + (high - 0xD800) * 0x400 + (low - 0xDC00)) :: ·)
      else none
  | .half _ :: _ => none

/-- The unit of a code that was written as an escape. -/
def unitOfCode (code : Nat) : StringUnit :=
  if 0xD800 ≤ code ∧ code < 0xE000 then .half code else .char (Char.ofNat code)

/-- The character of a short escape. -/
def shortEscape? (c : Char) : Option Char :=
  if c = '"' then some '"'
  else if c = '\\' then some '\\'
  else if c = '/' then some '/'
  else if c = 'b' then some '\x08'
  else if c = 'f' then some '\x0c'
  else if c = 'n' then some '\n'
  else if c = 'r' then some '\r'
  else if c = 't' then some '\t'
  else none

/-- Read a string after its opening quote, up to its closing quote. -/
def readUnits : List Char → Option (List StringUnit × List Char)
  | [] => none
  | '"' :: rest => some ([], rest)
  | '\\' :: 'u' :: a :: b :: c :: d :: rest =>
      match Text.natural? 16 [a, b, c, d] with
      | some code => (readUnits rest).map fun (us, r) => (unitOfCode code :: us, r)
      | none => none
  | '\\' :: e :: rest =>
      match shortEscape? e with
      | some c => (readUnits rest).map fun (us, r) => (.char c :: us, r)
      | none => none
  | c :: rest =>
      if c = '\\' ∨ c.toNat < 0x20 then none
      else (readUnits rest).map fun (us, r) => (.char c :: us, r)

/-! ## Numbers -/

/-- Whether a list starts with a decimal digit. -/
def startsWithDigit : List Char → Bool
  | c :: _ => c.isDigit
  | [] => false

/-- Read the whole digits of a number: no zero before other digits. -/
def readWhole : List Char → Option (List Char × List Char)
  | '0' :: rest => if startsWithDigit rest then none else some (['0'], rest)
  | cs =>
      if startsWithDigit cs then some (cs.takeWhile Char.isDigit, cs.dropWhile Char.isDigit)
      else none

/-- Read the digits after a point, if there is a point. -/
def readFraction : List Char → Option (List Char × List Char)
  | '.' :: rest =>
      if startsWithDigit rest then
        some (rest.takeWhile Char.isDigit, rest.dropWhile Char.isDigit)
      else none
  | cs => some ([], cs)

/-- Read the digits of an exponent. -/
def readExponentDigits (negative : Bool) (cs : List Char) :
    Option (Option (Bool × List Char) × List Char) :=
  if startsWithDigit cs then
    some (some (negative, cs.takeWhile Char.isDigit), cs.dropWhile Char.isDigit)
  else none

/-- Read the sign and the digits of an exponent. -/
def readExponentSign : List Char → Option (Option (Bool × List Char) × List Char)
  | '+' :: rest => readExponentDigits false rest
  | '-' :: rest => readExponentDigits true rest
  | cs => readExponentDigits false cs

/-- Read an exponent, if there is one. -/
def readExponent : List Char → Option (Option (Bool × List Char) × List Char)
  | 'e' :: rest => readExponentSign rest
  | 'E' :: rest => readExponentSign rest
  | cs => some (none, cs)

/-- Read a number after its sign. -/
def readNumber (negative : Bool) (cs : List Char) : Option (Numeral × List Char) := do
  let (whole, cs) ← readWhole cs
  let (fraction, cs) ← readFraction cs
  let (exponent, cs) ← readExponent cs
  return (⟨negative, whole, fraction, exponent⟩, cs)

/-! ## Tokens -/

/-- The blanks of JSON. -/
def isBlank (c : Char) : Bool := c == ' ' || c == '\n' || c == '\t' || c == '\r'

/-- Read the token at the start of a text that starts with no blank. -/
def readToken : List Char → Option (Token × List Char)
  | '\x7b' :: rest => some (.beginObject, rest)
  | '\x7d' :: rest => some (.endObject, rest)
  | '[' :: rest => some (.beginArray, rest)
  | ']' :: rest => some (.endArray, rest)
  | ':' :: rest => some (.colon, rest)
  | ',' :: rest => some (.comma, rest)
  | 'n' :: 'u' :: 'l' :: 'l' :: rest => some (.null, rest)
  | 't' :: 'r' :: 'u' :: 'e' :: rest => some (.bool true, rest)
  | 'f' :: 'a' :: 'l' :: 's' :: 'e' :: rest => some (.bool false, rest)
  | '"' :: rest => (readUnits rest).map fun (us, r) => (.string us, r)
  | '-' :: rest => (readNumber true rest).map fun (n, r) => (.number n, r)
  | cs => (readNumber false cs).map fun (n, r) => (.number n, r)

/-! ## Every token takes something from the text -/

theorem length_dropWhile_digits (cs : List Char) :
    (cs.dropWhile Char.isDigit).length ≤ cs.length :=
  (List.dropWhile_suffix _).length_le

theorem length_dropWhile_of_startsWithDigit {cs : List Char} (h : startsWithDigit cs = true) :
    (cs.dropWhile Char.isDigit).length < cs.length := by
  cases cs with
  | nil => simp [startsWithDigit] at h
  | cons c rest =>
    have h' : c.isDigit = true := h
    have := length_dropWhile_digits rest
    simp only [List.dropWhile_cons, h', if_true, List.length_cons]
    omega

theorem readUnits_length {cs : List Char} {us : List StringUnit} {r : List Char}
    (h : readUnits cs = some (us, r)) : r.length < cs.length := by
  fun_induction readUnits cs generalizing us r with
  | case1 => simp at h
  | case2 rest =>
    simp only [Option.some.injEq, Prod.mk.injEq] at h
    simp [← h.2]
  | case3 a b c d rest code hcode ih =>
    obtain ⟨⟨us', r'⟩, hr, heq⟩ := Option.map_eq_some_iff.1 h
    simp only [Prod.mk.injEq] at heq
    have := ih hr
    simp only [List.length_cons, ← heq.2]
    omega
  | case4 => simp at h
  | case5 e rest _ c hc ih =>
    obtain ⟨⟨us', r'⟩, hr, heq⟩ := Option.map_eq_some_iff.1 h
    simp only [Prod.mk.injEq] at heq
    have := ih hr
    simp only [List.length_cons, ← heq.2]
    omega
  | case6 => simp at h
  | case7 => simp at h
  | case8 c rest =>
    rename_i ih
    obtain ⟨⟨us', r'⟩, hr, heq⟩ := Option.map_eq_some_iff.1 h
    simp only [Prod.mk.injEq] at heq
    have := ih hr
    simp only [List.length_cons, ← heq.2]
    omega

theorem readWhole_length {cs ds r : List Char} (h : readWhole cs = some (ds, r)) :
    r.length < cs.length := by
  unfold readWhole at h
  split at h
  · split at h
    · simp at h
    · simp only [Option.some.injEq, Prod.mk.injEq] at h
      simp [← h.2]
  · split at h
    · next hd =>
      simp only [Option.some.injEq, Prod.mk.injEq] at h
      rw [← h.2]
      exact length_dropWhile_of_startsWithDigit hd
    · simp at h

theorem readFraction_length {cs ds r : List Char} (h : readFraction cs = some (ds, r)) :
    r.length ≤ cs.length := by
  unfold readFraction at h
  split at h
  · next rest =>
    split at h
    · simp only [Option.some.injEq, Prod.mk.injEq] at h
      have := length_dropWhile_digits rest
      simp only [← h.2, List.length_cons]
      omega
    · simp at h
  · simp only [Option.some.injEq, Prod.mk.injEq] at h
    simp [← h.2]

theorem readExponentDigits_length {negative : Bool} {cs r : List Char}
    {e : Option (Bool × List Char)} (h : readExponentDigits negative cs = some (e, r)) :
    r.length ≤ cs.length := by
  unfold readExponentDigits at h
  split at h
  · simp only [Option.some.injEq, Prod.mk.injEq] at h
    rw [← h.2]
    exact length_dropWhile_digits cs
  · simp at h

theorem readExponentSign_length {cs r : List Char} {e : Option (Bool × List Char)}
    (h : readExponentSign cs = some (e, r)) : r.length ≤ cs.length := by
  unfold readExponentSign at h
  split at h
  · exact Nat.le_succ_of_le (readExponentDigits_length h)
  · exact Nat.le_succ_of_le (readExponentDigits_length h)
  · exact readExponentDigits_length h

theorem readExponent_length {cs r : List Char} {e : Option (Bool × List Char)}
    (h : readExponent cs = some (e, r)) : r.length ≤ cs.length := by
  unfold readExponent at h
  split at h
  · exact Nat.le_succ_of_le (readExponentSign_length h)
  · exact Nat.le_succ_of_le (readExponentSign_length h)
  · simp only [Option.some.injEq, Prod.mk.injEq] at h
    simp [← h.2]

theorem readNumber_length {negative : Bool} {cs r : List Char} {n : Numeral}
    (h : readNumber negative cs = some (n, r)) : r.length < cs.length := by
  simp only [readNumber, Option.bind_eq_bind, Option.bind_eq_some_iff, Prod.exists,
    Option.pure_def, Option.some.injEq, Prod.mk.injEq] at h
  obtain ⟨whole, cs₁, h₁, fraction, cs₂, h₂, exponent, cs₃, h₃, -, rfl⟩ := h
  have := readWhole_length h₁
  have := readFraction_length h₂
  have := readExponent_length h₃
  omega

theorem readToken_length {cs r : List Char} {t : Token} (h : readToken cs = some (t, r)) :
    r.length < cs.length := by
  unfold readToken at h
  split at h
  case h_10 rest =>
    obtain ⟨⟨us, r'⟩, hr, heq⟩ := Option.map_eq_some_iff.1 h
    simp only [Prod.mk.injEq] at heq
    have := readUnits_length hr
    simp only [List.length_cons, ← heq.2]
    omega
  case h_11 rest =>
    obtain ⟨⟨n, r'⟩, hr, heq⟩ := Option.map_eq_some_iff.1 h
    simp only [Prod.mk.injEq] at heq
    have := readNumber_length hr
    simp only [List.length_cons, ← heq.2]
    omega
  case h_12 =>
    obtain ⟨⟨n, r'⟩, hr, heq⟩ := Option.map_eq_some_iff.1 h
    simp only [Prod.mk.injEq] at heq
    have := readNumber_length hr
    simp only [← heq.2]
    omega
  all_goals
    simp only [Option.some.injEq, Prod.mk.injEq] at h
    simp only [← h.2, List.length_cons]
    omega

/-- The tokens of a text.  If the text stops being JSON, the last one is `bad`. -/
def tokens (cs : List Char) : List Token :=
  match cs with
  | [] => []
  | c :: rest =>
      if isBlank c then tokens rest
      else
        match h : readToken (c :: rest) with
        | none => [.bad]
        | some (t, r) =>
            have : r.length < rest.length + 1 := readToken_length h
            t :: tokens r
termination_by cs.length

end DualRail.Json
