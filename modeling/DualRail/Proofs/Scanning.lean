/-
  Scanning block mappings.

  A mapping can be written with a row for every entry: a name, a colon, and a value that is
  a name or a text between single quotes (`Yaml.Row`).  The scanner takes three steps for
  such a row.  It reads the name and notes that a key may have started there; at the colon it
  puts the token of the key before the name; and it reads the value.  Then it stands at the
  end of the row and no key is open, as it did before (`Yaml.Scanner.AtRow.run`).  So the
  tokens of rows are those of the first, then those of the second, and so on
  (`Yaml.Scanner.start_run`).  A key that is too long is out of reach when its colon comes,
  and scanning ends there.
-/
import DualRail.Yaml.Token

set_option autoImplicit false

namespace DualRail.Yaml

/-! ## Characters -/

/-- The characters of names. -/
def isNameChar (c : Char) : Bool := c.isAlphanum || c == '_'

/-- At least one character of names, and no others. -/
def IsName (cs : List Char) : Prop := cs ≠ [] ∧ ∀ c ∈ cs, isNameChar c = true

/-- Printable characters of ASCII. -/
def isPrintable (c : Char) : Bool := 0x20 ≤ c.toNat && c.toNat ≤ 0x7e

/-- A character of a class is none outside of it. -/
theorem beq_eq_false_of {P : Char → Bool} {c : Char} (hc : P c = true) (d : Char)
    (hd : P d = false) : (c == d) = false := by
  rw [beq_eq_false_iff_ne]
  rintro rfl
  rw [hc] at hd
  cases hd

theorem isPrintable_of_isNameChar {c : Char} (h : isNameChar c = true) : isPrintable c = true := by
  change (((decide ('A'.val ≤ c.val ∧ c.val ≤ 'Z'.val) || decide ('a'.val ≤ c.val) &&
    decide (c.val ≤ 'z'.val)) || decide ('0'.val ≤ c.val) && decide (c.val ≤ '9'.val)) ||
      c == '_') = true at h
  simp only [Bool.or_eq_true, Bool.and_eq_true, decide_eq_true_eq, beq_iff_eq,
    UInt32.le_iff_toNat_le, Char.toNat_val] at h
  simp only [isPrintable, Bool.and_eq_true, decide_eq_true_eq]
  change (((65 ≤ c.toNat ∧ c.toNat ≤ 90) ∨ (97 ≤ c.toNat ∧ c.toNat ≤ 122)) ∨
    (48 ≤ c.toNat ∧ c.toNat ≤ 57)) ∨ c = '_' at h
  rcases h with h | rfl
  · omega
  · decide

theorem isBreak_of_isPrintable {c : Char} (h : isPrintable c = true) : isBreak c = false := by
  have hne := beq_eq_false_of h
  simp (disch := decide) only [isBreak, hne, Bool.or_self]

theorem utf8Size_of_isPrintable {c : Char} (h : isPrintable c = true) : c.utf8Size = 1 := by
  simp only [isPrintable, Bool.and_eq_true, decide_eq_true_eq] at h
  rw [Char.utf8Size_eq_one_iff, UInt32.le_iff_toNat_le, Char.toNat_val]
  show c.toNat ≤ 127
  omega

/-- A marker is told by its first character. -/
theorem isMarker_cons_of_ne {mark c : Char} (h : (c == mark) = false) (rest : List Char) :
    isMarker mark (c :: rest) = false := by
  rcases rest with _ | ⟨a, _ | ⟨b, rest⟩⟩
  · rfl
  · rfl
  · simp only [isMarker, h, Bool.false_and]

section Names

variable {c : Char} (hc : isNameChar c = true)
include hc

theorem isBreak_of_isNameChar : isBreak c = false :=
  isBreak_of_isPrintable (isPrintable_of_isNameChar hc)

theorem isBlank_of_isNameChar : isBlank c = false := by
  have hne := beq_eq_false_of hc
  simp (disch := decide) only [isBlank, hne, Bool.or_self]

theorem startsPlain_of_isNameChar (flow : Bool) (rest : List Char) :
    Scanner.startsPlain flow c rest = true := by
  have hne := beq_eq_false_of hc
  have hindicator : Scanner.indicators.contains c = false := by
    simp (disch := decide) only [Scanner.indicators, List.contains_cons, List.contains_nil, hne,
      Bool.or_self]
  rw [Scanner.startsPlain, isBlank_of_isNameChar hc, isBreak_of_isNameChar hc, hindicator]
  rfl

/-- A character of names starts a plain scalar and nothing else. -/
theorem fetchFrom_name (s : Scanner) (rest : List Char) : s.fetchFrom c rest = s.fetchPlain := by
  have hne := beq_eq_false_of hc
  have hmarker := fun mark hmark => isMarker_cons_of_ne (hne mark hmark) rest
  simp (disch := decide) only [Scanner.fetchFrom, hne, hmarker, Bool.and_false, Bool.false_and,
    Bool.false_eq_true, if_false]
  exact if_pos (startsPlain_of_isNameChar hc s.inFlow rest)

/-- A character of names is no blank and starts no comment. -/
theorem skipBlanks_name (keyAllowed : Bool) (p : Position) (rest : List Char) :
    skipBlanks false keyAllowed false p (c :: rest) = (⟨c :: rest, p⟩, keyAllowed) := by
  have hne := beq_eq_false_of hc
  simp (disch := decide) only [skipBlanks, isBreak_of_isNameChar hc, hne, Bool.false_or,
    Bool.false_and, Bool.false_eq_true, if_false]

end Names

/-! ## Places -/

namespace Position

/-- The place some characters further on the same line, each of them one byte. -/
def along (p : Position) (n : Nat) : Position := ⟨p.line, p.column + n, p.width + n⟩

theorem after_of_isPrintable (p : Position) {c : Char} (h : isPrintable c = true) :
    p.after c = p.along 1 := by
  rw [after, isBreak_of_isPrintable h, utf8Size_of_isPrintable h]
  rfl

theorem along_along (p : Position) (m n : Nat) : (p.along m).along n = p.along (m + n) := by
  simp only [along, Nat.add_assoc]

end Position

/-! ## Scalars -/

/-- What can follow a row: the end of the text, the end of its last line, or another row. -/
def EndsRow (rest : List Char) : Prop :=
  rest = [] ∨ rest = ['\n'] ∨ ∃ c more, rest = '\n' :: c :: more ∧ isNameChar c = true

theorem EndsRow.ne_quote {rest : List Char} (h : EndsRow rest) (more : List Char) :
    rest ≠ '\'' :: more := by
  rintro rfl
  rcases h with h | h | ⟨c, rest, h, _⟩ <;> simp at h

/-- The cursor stands at the end of a row, or it has passed the break after it already. -/
def Cursor.AtEnd (cursor : Cursor) (keyAllowed : Bool) (rest : List Char) : Prop :=
  cursor.rest = rest ∨
    (rest = '\n' :: cursor.rest ∧ cursor.place.column = 0 ∧ keyAllowed = true)

theorem scanPlain_name (least : Nat) {name : List Char} (h : ∀ c ∈ name, isNameChar c = true)
    (rest : List Char) :
    ∀ p : Position, scanPlain false least .none p (name ++ rest) =
      (scanPlain false least .none (p.along name.length) rest).map fun r =>
        (name ++ r.1, r.2) := by
  induction name with
  | nil =>
      intro p
      simp [Position.along]
  | cons c name ih =>
      intro p
      obtain ⟨hc, hname⟩ := List.forall_mem_cons.mp h
      have hcolon : (c == ':') = false := beq_eq_false_of hc ':' (by decide)
      rw [List.cons_append, scanPlain, isBreak_of_isNameChar hc, isBlank_of_isNameChar hc,
        endsPlain, hcolon, Position.after_of_isPrintable p (isPrintable_of_isNameChar hc), ih hname,
        Position.along_along]
      simp [Gap.none, Gap.isOpen, Gap.fill, Nat.add_comm, Function.comp_def]

theorem scanPlain_colon (least : Nat) (p : Position) (rest : List Char) :
    scanPlain false least .none p (':' :: ' ' :: rest) =
      some ([], ⟨':' :: ' ' :: rest, p⟩, false) := rfl

/-- A row that is not indented ends a plain scalar. -/
theorem scanPlain_endsRow (least : Nat) (hleast : 0 < least) {rest : List Char}
    (h : EndsRow rest) (p : Position) :
    ∃ (cursor : Cursor) (broken : Bool),
      scanPlain false least .none p rest = some ([], cursor, broken) ∧
        cursor.AtEnd broken rest := by
  rcases h with rfl | rfl | ⟨c, more, rfl, hc⟩
  · exact ⟨_, _, rfl, .inl rfl⟩
  · exact ⟨_, _, rfl, .inr ⟨rfl, rfl, rfl⟩⟩
  · refine ⟨⟨c :: more, p.nextLine⟩, true, ?_, .inr ⟨rfl, rfl, rfl⟩⟩
    have hindented : endsAfterGap false least p.nextLine.column (c :: more) = true := by
      simp [endsAfterGap, Position.nextLine, hleast]
    show scanPlain false least (.breaks (some '\n') []) p.nextLine (c :: more) = _
    rw [scanPlain, isBreak_of_isNameChar hc, isBlank_of_isNameChar hc, hindented]
    rfl

/-- A text with its quotes written twice. -/
def doubled : List Char → List Char
  | [] => []
  | c :: rest => if c = '\'' then '\'' :: '\'' :: doubled rest else c :: doubled rest

section Quoted

variable {p : Position} (hp : p.column ≠ 0) {blanks rest : List Char}
include hp

theorem scanSingle_closing (hrest : ∀ more, rest ≠ '\'' :: more) :
    scanSingle (.blanks blanks) p ('\'' :: rest) = some (blanks, ⟨rest, p.after '\''⟩) := by
  have hcolumn : (p.column == 0) = false := beq_eq_false_iff_ne.mpr hp
  rw [scanSingle.eq_def]
  dsimp only
  rw [hcolumn]
  cases rest with
  | nil => rfl
  | cons d more =>
      have hd : d ≠ '\'' := fun hd => hrest more (hd ▸ rfl)
      simp [isBreak, isBlank, Gap.fill]

theorem scanSingle_quote :
    scanSingle (.blanks blanks) p ('\'' :: '\'' :: rest) =
      prepend (blanks ++ ['\'']) (scanSingle .none ((p.after '\'').after '\'') rest) := by
  have hcolumn : (p.column == 0) = false := beq_eq_false_iff_ne.mpr hp
  rw [scanSingle, hcolumn]
  rfl

theorem scanSingle_other {c : Char} (hc : isPrintable c = true) (hblank : c ≠ ' ')
    (hquote : c ≠ '\'') :
    scanSingle (.blanks blanks) p (c :: rest) =
      prepend (blanks ++ [c]) (scanSingle .none (p.after c) rest) := by
  have hcolumn : (p.column == 0) = false := beq_eq_false_iff_ne.mpr hp
  have hnotBlank : isBlank c = false := by
    rw [isBlank, beq_eq_false_of hc '\t' (by decide), beq_eq_false_iff_ne.mpr hblank]
    rfl
  rw [scanSingle.eq_def]
  dsimp only
  rw [isBreak_of_isPrintable hc, hnotBlank, hcolumn, beq_eq_false_iff_ne.mpr hquote]
  rfl

end Quoted

/-- Blanks are kept back until it is clear that no break follows; between printable characters
none does. -/
theorem scanSingle_doubled {rest : List Char} (hrest : ∀ more, rest ≠ '\'' :: more)
    {text : List Char} (h : ∀ c ∈ text, isPrintable c = true) :
    ∀ (blanks : List Char) (p : Position), p.column ≠ 0 →
      ∃ p' : Position, scanSingle (.blanks blanks) p (doubled text ++ '\'' :: rest) =
        some (blanks ++ text, ⟨rest, p'⟩) := by
  have hafter : ∀ {p : Position} {c : Char}, isPrintable c = true → (p.after c).column ≠ 0 := by
    intro p c hc
    rw [Position.after_of_isPrintable p hc]
    exact Nat.succ_ne_zero _
  induction text with
  | nil =>
      intro blanks p hp
      refine ⟨p.after '\'', ?_⟩
      rw [List.append_nil]
      exact scanSingle_closing hp hrest
  | cons c text ih =>
      intro blanks p hp
      obtain ⟨hc, htext⟩ := List.forall_mem_cons.mp h
      by_cases hquote : c = '\''
      · subst hquote
        obtain ⟨p', hp'⟩ := ih htext [] _ (hafter hc)
        refine ⟨p', ?_⟩
        rw [doubled, if_pos rfl, List.cons_append, List.cons_append, scanSingle_quote hp,
          Gap.none, hp']
        simp [prepend]
      · rw [doubled, if_neg hquote, List.cons_append]
        by_cases hblank : c = ' '
        · subst hblank
          obtain ⟨p', hp'⟩ := ih htext (blanks ++ [' ']) (p.after ' ') (hafter hc)
          rw [List.append_assoc, List.singleton_append] at hp'
          refine ⟨p', ?_⟩
          rw [scanSingle.eq_def]
          exact hp'
        · obtain ⟨p', hp'⟩ := ih htext [] _ (hafter hc)
          refine ⟨p', ?_⟩
          rw [scanSingle_other hp hc hblank hquote, Gap.none, hp']
          simp [prepend]

/-! ## Rows -/

/-- How the value of an entry is written: as a name, or between single quotes. -/
inductive Written
  | plain (name : List Char)
  | quoted (text : List Char)
deriving DecidableEq, Repr, Inhabited

namespace Written

/-- The characters of a value. -/
def chars : Written → List Char
  | plain name => name
  | quoted text => '\'' :: (doubled text ++ ['\''])

/-- The text of the scalar. -/
def text : Written → List Char
  | plain name => name
  | quoted text => text

/-- The style of the scalar. -/
def style : Written → Style
  | plain _ => .plain
  | quoted _ => .quoted

/-- Names are names, and quoted texts can be printed. -/
def Legible : Written → Prop
  | plain name => IsName name
  | quoted text => ∀ c ∈ text, isPrintable c = true

end Written

/-- An entry of a mapping in a line of its own. -/
structure Row where
  key : List Char
  value : Written
deriving DecidableEq, Repr, Inhabited

namespace Row

/-- The line of a row, without its end. -/
def line (r : Row) : List Char := r.key ++ ':' :: ' ' :: r.value.chars

/-- The tokens of a row. -/
def tokens (r : Row) : List Token :=
  [.key, .scalar (String.ofList r.key) .plain, .value,
    .scalar (String.ofList r.value.text) r.value.style]

/-- The key is a name, and the value is legible. -/
structure WellFormed (r : Row) : Prop where
  name : IsName r.key
  value : r.value.Legible

/-- A row that can be read: its key is not too long. -/
structure Legible (r : Row) : Prop extends r.WellFormed where
  short : r.key.length ≤ Scanner.maxKeyLength

/-- A row starts with the first character of its key. -/
theorem WellFormed.line_append {r : Row} (h : r.WellFormed) (rest : List Char) :
    ∃ c more, r.line ++ rest = c :: more ∧ isNameChar c = true := by
  obtain ⟨c, more, hkey⟩ := List.exists_cons_of_ne_nil h.name.1
  refine ⟨c, more ++ ':' :: ' ' :: r.value.chars ++ rest, ?_, ?_⟩
  · simp [line, hkey]
  · exact h.name.2 c (hkey ▸ List.mem_cons_self)

/-- More rows after a row, and what comes after them. -/
def following (rows : List Row) (rest : List Char) : List Char :=
  match rows with
  | [] => rest
  | r :: rows => '\n' :: (r.line ++ following rows rest)

theorem endsRow_following {rows : List Row} (hrows : ∀ r ∈ rows, r.Legible) {rest : List Char}
    (hrest : EndsRow rest) : EndsRow (following rows rest) := by
  cases rows with
  | nil => exact hrest
  | cons r rows =>
      obtain ⟨c, more, hline, hc⟩ :=
        (hrows r List.mem_cons_self).line_append (following rows rest)
      exact .inr (.inr ⟨c, more, congrArg ('\n' :: ·) hline, hc⟩)

end Row

namespace Scanner

/-! ## Steps outside of brackets -/

/-- The scanner at another place. -/
def moved (s : Scanner) (cursor : Cursor) (keyAllowed : Bool) : Scanner :=
  { s with cursor, keyAllowed }

theorem fetchHere_moved (s : Scanner) (c : Char) (rest : List Char) (p : Position)
    (keyAllowed : Bool) :
    (s.moved ⟨c :: rest, p⟩ keyAllowed).fetchHere =
      (s.moved ⟨c :: rest, p⟩ keyAllowed).fetchFrom c rest := rfl

theorem dropStaleKey_of_none {s : Scanner} (hkey : s.possibleKey = none) (p : Position) :
    dropStaleKey p s.possibleKey = some s.possibleKey := by
  rw [hkey]
  rfl

/-- No bracket is open, and at most the block that is not indented. -/
structure Outermost (s : Scanner) : Prop where
  outerKeys : s.outerKeys = []
  indents : s.indents = [] ∨ s.indents = [0]

namespace Outermost

variable {s : Scanner} (h : s.Outermost)
include h

theorem moved (cursor : Cursor) (keyAllowed : Bool) : (s.moved cursor keyAllowed).Outermost :=
  ⟨h.outerKeys, h.indents⟩

theorem inFlow : s.inFlow = false := by
  simp [Scanner.inFlow, h.outerKeys]

theorem unroll : s.unroll = s := by
  have hclose : closeBlocks s.cursor.place.column s.indents = ([], s.indents) := by
    rcases h.indents with hindents | hindents
    · rw [hindents]
      rfl
    · simp [hindents, closeBlocks]
  simp [Scanner.unroll, h.inFlow, hclose]

theorem dropStale :
    s.dropStale = (dropStaleKey s.cursor.place s.possibleKey).map fun key =>
      { s with possibleKey := key } := by
  obtain ⟨cursor, tokens, indents, possibleKey, outerKeys, keyAllowed⟩ := s
  obtain rfl : outerKeys = [] := h.outerKeys
  rw [Scanner.dropStale]
  cases dropStaleKey cursor.place possibleKey with
  | none => rfl
  | some key => rfl

theorem dropStale_of_fresh
    (hfresh : dropStaleKey s.cursor.place s.possibleKey = some s.possibleKey) :
    s.dropStale = some s := by
  rw [h.dropStale, hfresh]
  rfl

theorem dropStale_of_none (hkey : s.possibleKey = none) : s.dropStale = some s :=
  h.dropStale_of_fresh (dropStaleKey_of_none hkey _)

/-- A step outside of brackets: pass the blanks, then read the token that starts there. -/
theorem fetch {cursor : Cursor} {keyAllowed : Bool}
    (hskip : skipBlanks false s.keyAllowed false s.cursor.place s.cursor.rest =
      (cursor, keyAllowed))
    (hfresh : dropStaleKey cursor.place s.possibleKey = some s.possibleKey) :
    s.fetch = (s.moved cursor keyAllowed).fetchHere.bind Scanner.dropStale := by
  have hmoved := h.moved cursor keyAllowed
  rw [Scanner.fetch, h.inFlow, hskip]
  change ((s.moved cursor keyAllowed).dropStale.bind fun s =>
    s.unroll.fetchHere.bind Scanner.dropStale) = _
  rw [hmoved.dropStale_of_fresh hfresh, Option.bind_some, hmoved.unroll]

theorem fetchPlain {text : List Char} {after : Cursor} {broken : Bool}
    (hscan : scanPlain false s.leastIndent .none s.cursor.place s.cursor.rest =
      some (text, after, broken)) :
    s.fetchPlain = s.fetchContent (.scalar (String.ofList text) .plain) after broken := by
  rw [Scanner.fetchPlain, h.inFlow, hscan]
  rfl

/-- Where a key may start, content is noted as one. -/
theorem fetchContent_noted (hkey : s.possibleKey = none) (hallowed : s.keyAllowed = true)
    (t : Token) (after : Cursor) (keyAllowed : Bool) :
    s.fetchContent t after keyAllowed =
      some { s.emit t with
        cursor := after
        possibleKey :=
          some ⟨s.tokens.length, s.cursor.place, s.indents.head? == some s.cursor.place.column⟩
        keyAllowed } := by
  simp [fetchContent, noteKey, dropKey, hallowed, hkey, h.inFlow, emit]

end Outermost

theorem fetchFrom_quote (s : Scanner) (rest : List Char) :
    s.fetchFrom '\'' rest = s.fetchQuoted (scanSingle .none (s.cursor.place.after '\'') rest) := by
  simp (disch := decide) [fetchFrom, isMarker_cons_of_ne]

theorem fetchFrom_colon {s : Scanner} (rest : List Char) :
    s.fetchFrom ':' (' ' :: rest) = s.fetchValue := by
  simp (disch := decide) [fetchFrom, isMarker_cons_of_ne, endsWord, isBlank]

/-! ## A row -/

/-- A row starts here: the blanks before it end at the start of a line, where a key may be. -/
structure AtRow (s : Scanner) (text : List Char) : Prop where
  outermost : s.Outermost
  noKey : s.possibleKey = none
  skips : ∃ p : Position, p.column = 0 ∧
    skipBlanks false s.keyAllowed false s.cursor.place s.cursor.rest = (⟨text, p⟩, true)

/-- A row ended here: a block is open, and no key. -/
structure AfterRow (s : Scanner) (rest : List Char) : Prop where
  outerKeys : s.outerKeys = []
  indents : s.indents = [0]
  noKey : s.possibleKey = none
  atEnd : s.cursor.AtEnd s.keyAllowed rest

/-- The scanner after the name of a row: a key may have started there. -/
def named (s : Scanner) (p : Position) (name rest : List Char) : Scanner :=
  { s with
    cursor := ⟨':' :: ' ' :: rest, p.along name.length⟩
    tokens := s.tokens ++ [.scalar (String.ofList name) .plain]
    possibleKey := some ⟨s.tokens.length, p, s.indents.head? == some 0⟩
    keyAllowed := false }

/-- The name of a row is read as a plain scalar, and noted. -/
theorem AtRow.fetch {s : Scanner} {name rest : List Char}
    (h : s.AtRow (name ++ ':' :: ' ' :: rest)) (hname : IsName name) :
    ∃ p : Position, p.column = 0 ∧ s.fetch = (s.named p name rest).dropStale := by
  obtain ⟨p, hp, hskip⟩ := h.skips
  refine ⟨p, hp, ?_⟩
  have hfresh := dropStaleKey_of_none h.noKey p
  have hmoved := h.outermost.moved ⟨name ++ ':' :: ' ' :: rest, p⟩ true
  have hscan : scanPlain false s.leastIndent .none p (name ++ ':' :: ' ' :: rest) =
      some (name, ⟨':' :: ' ' :: rest, p.along name.length⟩, false) := by
    rw [scanPlain_name _ hname.2, scanPlain_colon, Option.map_some, List.append_nil]
  have hhere : (s.moved ⟨name ++ ':' :: ' ' :: rest, p⟩ true).fetchHere =
      some (s.named p name rest) := by
    obtain ⟨c, more, rfl⟩ := List.exists_cons_of_ne_nil hname.1
    rw [List.cons_append, fetchHere_moved, fetchFrom_name (hname.2 c List.mem_cons_self)]
    refine (hmoved.fetchPlain hscan).trans ?_
    rw [hmoved.fetchContent_noted h.noKey rfl]
    simp [Scanner.moved, named, emit, hp]
  rw [h.outermost.fetch hskip hfresh, hhere, Option.bind_some]

/-- The start of a block, unless one is open. -/
def opening (s : Scanner) : List Token :=
  if s.indents.isEmpty then [.blockMappingStart] else []

/-- The scanner after the colon of a row: the name turned out to be a key. -/
def keyed (s : Scanner) (p : Position) (name rest : List Char) : Scanner :=
  { s with
    cursor := ⟨' ' :: rest, p.along (name.length + 1)⟩
    tokens := s.tokens ++ s.opening ++ [.key, .scalar (String.ofList name) .plain, .value]
    indents := [0]
    possibleKey := none
    keyAllowed := false }

theorem fetchValue_named {s : Scanner} (h : s.Outermost) {p : Position} (hp : p.column = 0)
    (name rest : List Char) :
    (s.named p name rest).fetchValue = some (s.keyed p name rest) := by
  have hcolon : (p.along name.length).after ':' = p.along (name.length + 1) := by
    rw [Position.after_of_isPrintable _ (by decide), Position.along_along]
  rcases h.indents with hindents | hindents
  · simp [fetchValue, named, keyed, opening, roll, Scanner.inFlow, h.outerKeys, leastIndent, emit,
      advance, Cursor.skip, hindents, hp, hcolon]
  · simp [fetchValue, named, keyed, opening, roll, Scanner.inFlow, h.outerKeys, leastIndent, emit,
      advance, Cursor.skip, hindents, hp, hcolon]

/-- A key that is not too long is still in reach at its colon. -/
theorem dropStaleKey_named (s : Scanner) (p : Position) {name : List Char}
    (hshort : name.length ≤ maxKeyLength) (rest : List Char) :
    dropStaleKey (p.along name.length) (s.named p name rest).possibleKey =
      some (s.named p name rest).possibleKey := by
  simp [named, dropStaleKey, isStale, Position.along, hshort]

theorem named_fetch {s : Scanner} (h : s.Outermost) {p : Position} (hp : p.column = 0)
    {name : List Char} (hshort : name.length ≤ maxKeyLength) (rest : List Char) :
    (s.named p name rest).fetch = some (s.keyed p name rest) := by
  have houter : (s.named p name rest).Outermost := ⟨h.outerKeys, h.indents⟩
  have hkeyed : (s.keyed p name rest).Outermost := ⟨h.outerKeys, .inr rfl⟩
  have hskip : skipBlanks false false false (p.along name.length) (':' :: ' ' :: rest) =
      (⟨':' :: ' ' :: rest, p.along name.length⟩, false) := rfl
  have hhere : (s.named p name rest).fetchHere = some (s.keyed p name rest) :=
    (fetchFrom_colon rest).trans (fetchValue_named h hp name rest)
  rw [houter.fetch hskip (dropStaleKey_named s p hshort rest)]
  refine (congrArg (·.bind Scanner.dropStale) hhere).trans ?_
  exact hkeyed.dropStale_of_none rfl

/-- The scanner after a value: its token is there, and nothing else is open. -/
def valued (s : Scanner) (t : Token) (after : Cursor) (keyAllowed : Bool) : Scanner :=
  { s with cursor := after, tokens := s.tokens ++ [t], keyAllowed }

/-- Content where no key may start is only a token. -/
theorem Outermost.fetch_content {s : Scanner} (h : s.Outermost) (hkey : s.possibleKey = none)
    {cursor after : Cursor} {t : Token} {broken : Bool}
    (hskip : skipBlanks false s.keyAllowed false s.cursor.place s.cursor.rest = (cursor, false))
    (hhere : (s.moved cursor false).fetchHere =
      (s.moved cursor false).fetchContent t after broken) :
    s.fetch = some (s.valued t after broken) := by
  have hfresh := dropStaleKey_of_none hkey cursor.place
  have hvalued : (s.valued t after broken).Outermost := ⟨h.outerKeys, h.indents⟩
  rw [h.fetch hskip hfresh, hhere]
  exact hvalued.dropStale_of_none hkey

/-- The value of a row is no key, and it ends where the row ends. -/
theorem keyed_fetch {s : Scanner} (h : s.Outermost) (p : Position) (name : List Char)
    {value : Written} (hvalue : value.Legible) {rest : List Char} (hrest : EndsRow rest) :
    ∃ (after : Cursor) (broken : Bool), after.AtEnd broken rest ∧
      (s.keyed p name (value.chars ++ rest)).fetch =
        some ((s.keyed p name (value.chars ++ rest)).valued
          (.scalar (String.ofList value.text) value.style) after broken) := by
  have houter : ∀ text : List Char, (s.keyed p name text).Outermost :=
    fun _ => ⟨h.outerKeys, .inr rfl⟩
  generalize hq : (p.along (name.length + 1)).after ' ' = q
  cases value with
  | plain word =>
      -- A plain value takes the break after it as well, if there is one.
      obtain ⟨after, broken, hscan, hend⟩ :=
        scanPlain_endsRow 1 Nat.one_pos hrest (q.along word.length)
      have hword := scanPlain_name 1 hvalue.2 rest q
      rw [hscan, Option.map_some, List.append_nil] at hword
      obtain ⟨c, more, rfl⟩ := List.exists_cons_of_ne_nil hvalue.1
      have hc := hvalue.2 c List.mem_cons_self
      have hskip : skipBlanks false false false (p.along (name.length + 1))
          (' ' :: (c :: more ++ rest)) = (⟨c :: (more ++ rest), q⟩, false) := by
        rw [← hq]
        exact skipBlanks_name hc false _ _
      refine ⟨after, broken, hend, (houter _).fetch_content rfl hskip ?_⟩
      rw [fetchHere_moved, fetchFrom_name hc]
      exact ((houter _).moved _ _).fetchPlain hword
  | quoted text =>
      have hcolumn : (q.after '\'').column ≠ 0 := Nat.succ_ne_zero _
      obtain ⟨after, hscan⟩ := scanSingle_doubled hrest.ne_quote hvalue [] (q.after '\'') hcolumn
      have hchars : (Written.quoted text).chars ++ rest =
          '\'' :: (doubled text ++ '\'' :: rest) := by
        simp [Written.chars]
      have hskip : skipBlanks false false false (p.along (name.length + 1))
          (' ' :: '\'' :: (doubled text ++ '\'' :: rest)) =
            (⟨'\'' :: (doubled text ++ '\'' :: rest), q⟩, false) := by
        rw [← hq]
        rfl
      rw [hchars]
      refine ⟨⟨rest, after⟩, false, .inl rfl, (houter _).fetch_content rfl hskip ?_⟩
      rw [fetchHere_moved, fetchFrom_quote]
      change fetchQuoted _ (scanSingle (.blanks []) (q.after '\'') _) = _
      rw [hscan]
      rfl

/-! ## Runs -/

theorem run_of_fetch {s next : Scanner} (hfetch : s.fetch = some next)
    (hlast : next.tokens.getLast? ≠ some .streamEnd) (fuel : Nat) :
    s.run (fuel + 1) = next.run fuel := by
  rw [run, hfetch]
  exact if_neg hlast

/-- Three steps read a row.  Only tokens are added, and before the first row the start of the
block. -/
theorem AtRow.run {s : Scanner} {r : Row} {rest : List Char} (h : s.AtRow (r.line ++ rest))
    (hrow : r.Legible) (hrest : EndsRow rest) :
    ∃ next : Scanner, next.AfterRow rest ∧ next.tokens = s.tokens ++ s.opening ++ r.tokens ∧
      ∀ fuel : Nat, s.run (fuel + 3) = next.run fuel := by
  have hline : r.line ++ rest = r.key ++ ':' :: ' ' :: (r.value.chars ++ rest) := by
    simp [Row.line]
  rw [hline] at h
  obtain ⟨p, hp, hname⟩ := h.fetch hrow.name
  have hnamed : (s.named p r.key (r.value.chars ++ rest)).Outermost :=
    ⟨h.outermost.outerKeys, h.outermost.indents⟩
  rw [hnamed.dropStale_of_fresh (dropStaleKey_named s p hrow.short _)] at hname
  have hcolon := named_fetch h.outermost hp hrow.short (r.value.chars ++ rest)
  obtain ⟨after, broken, hend, hvalue⟩ := keyed_fetch h.outermost p r.key hrow.value hrest
  have hafter : ((s.keyed p r.key (r.value.chars ++ rest)).valued
      (.scalar (String.ofList r.value.text) r.value.style) after broken).AfterRow rest :=
    ⟨h.outermost.outerKeys, rfl, rfl, hend⟩
  refine ⟨_, hafter, ?_, ?_⟩
  · simp [valued, keyed, Row.tokens]
  · intro fuel
    rw [run_of_fetch hname (by simp [named]), run_of_fetch hcolon (by simp [keyed]),
      run_of_fetch hvalue (by simp [valued])]

theorem AfterRow.outermost {s : Scanner} {rest : List Char} (h : s.AfterRow rest) : s.Outermost :=
  ⟨h.outerKeys, .inr h.indents⟩

/-- After a row and a break, another row may start. -/
theorem AfterRow.atRow {s : Scanner} {c : Char} {rest : List Char}
    (h : s.AfterRow ('\n' :: c :: rest)) (hc : isNameChar c = true) : s.AtRow (c :: rest) := by
  refine ⟨h.outermost, h.noKey, ?_⟩
  rcases h.atEnd with hcursor | ⟨hcursor, hcolumn, hallowed⟩
  · refine ⟨s.cursor.place.nextLine, rfl, ?_⟩
    rw [hcursor, skipBlanks]
    refine (skipBlanks_name hc _ _ _).trans ?_
    rw [Bool.not_false, Bool.or_true]
    rfl
  · refine ⟨s.cursor.place, hcolumn, ?_⟩
    rw [← (List.cons.inj hcursor).2, hallowed, skipBlanks_name hc]

/-- Nothing but a break is left before the end of the text. -/
theorem AfterRow.skips_end {s : Scanner} {rest : List Char} (h : s.AfterRow rest)
    (hrest : rest = [] ∨ rest = ['\n']) :
    ∃ (p : Position) (keyAllowed : Bool),
      skipBlanks false s.keyAllowed false s.cursor.place s.cursor.rest =
        (⟨[], p⟩, keyAllowed) := by
  have hcursor : s.cursor.rest = [] ∨ s.cursor.rest = ['\n'] := by
    rcases h.atEnd with hcursor | ⟨hcursor, _⟩
    · rw [hcursor]
      exact hrest
    · rcases hrest with rfl | rfl
      · cases hcursor
      · exact .inl (List.cons.inj hcursor).2.symm
  rcases hcursor with hcursor | hcursor
  · rw [hcursor]
    exact ⟨_, _, rfl⟩
  · rw [hcursor]
    exact ⟨_, _, rfl⟩

/-- The end of the text ends the block. -/
theorem AfterRow.run_end {s : Scanner} {rest : List Char} (h : s.AfterRow rest)
    (hrest : rest = [] ∨ rest = ['\n']) (fuel : Nat) :
    s.run (fuel + 1) = s.tokens ++ [.blockEnd, .streamEnd] := by
  obtain ⟨p, keyAllowed, hskip⟩ := h.skips_end hrest
  have hfresh := dropStaleKey_of_none h.noKey p
  have hhere : (s.moved ⟨[], p⟩ keyAllowed).fetchHere =
      some ⟨(Cursor.mk [] p).endLine, s.tokens ++ [.blockEnd, .streamEnd], [], none, [],
        false⟩ := by
    simp [fetchHere, Scanner.moved, fetchEnd, unrollAll, Scanner.inFlow, h.outerKeys, h.indents,
      dropKey, h.noKey, emit]
  have hfetch := h.outermost.fetch hskip hfresh
  rw [hhere, Option.bind_some, Outermost.dropStale_of_none ⟨rfl, .inl rfl⟩ rfl] at hfetch
  rw [run, hfetch]
  exact if_pos (by simp)

/-- Rows are read one after the other. -/
theorem AfterRow.run_rows {rest : List Char} (hrest : EndsRow rest) {rows : List Row}
    (hrows : ∀ r ∈ rows, r.Legible) :
    ∀ {s : Scanner}, s.AfterRow (Row.following rows rest) →
      ∃ next : Scanner, next.AfterRow rest ∧ next.tokens = s.tokens ++ rows.flatMap Row.tokens ∧
        ∀ fuel : Nat, s.run (fuel + 3 * rows.length) = next.run fuel := by
  induction rows with
  | nil =>
      intro s h
      exact ⟨s, h, by simp, fun fuel => rfl⟩
  | cons r rows ih =>
      intro s h
      obtain ⟨hrow, hothers⟩ := List.forall_mem_cons.mp hrows
      obtain ⟨c, more, hline, hc⟩ := hrow.line_append (Row.following rows rest)
      rw [Row.following, hline] at h
      have hat := h.atRow hc
      rw [← hline] at hat
      obtain ⟨middle, hmiddle, htokens, hrun⟩ := hat.run hrow (Row.endsRow_following hothers hrest)
      obtain ⟨next, hnext, htokens', hrun'⟩ := ih hothers hmiddle
      refine ⟨next, hnext, ?_, ?_⟩
      · simp [htokens', htokens, opening, h.indents]
      · intro fuel
        rw [List.length_cons, Nat.mul_succ, ← Nat.add_assoc, hrun, hrun']

theorem start_atRow {c : Char} (hc : isNameChar c = true) (rest : List Char) :
    (Scanner.start (c :: rest)).AtRow (c :: rest) :=
  ⟨⟨rfl, .inl rfl⟩, rfl, .start, rfl, skipBlanks_name hc true .start rest⟩

/-- The first row opens the block that all of them belong to. -/
theorem start_run {r : Row} {rows : List Row} (hrows : ∀ r' ∈ r :: rows, r'.Legible)
    {rest : List Char} (hrest : EndsRow rest) :
    ∃ next : Scanner, next.AfterRow rest ∧
      next.tokens = .blockMappingStart :: (r :: rows).flatMap Row.tokens ∧
      ∀ fuel : Nat, (Scanner.start (r.line ++ Row.following rows rest)).run
        (fuel + 3 * (r :: rows).length) = next.run fuel := by
  obtain ⟨hrow, hothers⟩ := List.forall_mem_cons.mp hrows
  obtain ⟨c, more, hline, hc⟩ := hrow.line_append (Row.following rows rest)
  have hat := start_atRow hc more
  rw [← hline] at hat
  obtain ⟨middle, hmiddle, htokens, hrun⟩ := hat.run hrow (Row.endsRow_following hothers hrest)
  obtain ⟨next, hnext, htokens', hrun'⟩ := hmiddle.run_rows hrest hothers
  refine ⟨next, hnext, ?_, ?_⟩
  · rw [htokens', htokens]
    rfl
  · intro fuel
    rw [List.length_cons, Nat.mul_succ, ← Nat.add_assoc, hrun, hrun']

/-! ## Keys that are too long -/

theorem reliable_of_none {s : Scanner} (houter : s.outerKeys = []) (hkey : s.possibleKey = none) :
    s.reliable = s.tokens := by
  simp [reliable, houter, hkey]

theorem isStale_named {name : List Char} (hlong : maxKeyLength < name.length) (p : Position)
    (before : Nat) (required : Bool) :
    isStale (p.along name.length) ⟨before, p, required⟩ = true := by
  simp [isStale, Position.along, hlong]

/-- Within a block there has to be a key, so one that is out of reach breaks the rules. -/
theorem AfterRow.run_longKey {s : Scanner} {name rest : List Char}
    (h : s.AfterRow ('\n' :: (name ++ ':' :: ' ' :: rest))) (hname : IsName name)
    (hlong : maxKeyLength < name.length) (fuel : Nat) : s.run (fuel + 1) = s.tokens := by
  have hat : s.AtRow (name ++ ':' :: ' ' :: rest) := by
    obtain ⟨c, more, rfl⟩ := List.exists_cons_of_ne_nil hname.1
    exact h.atRow (hname.2 c List.mem_cons_self)
  obtain ⟨p, _, hfetch⟩ := hat.fetch hname
  have hnamed : (s.named p name rest).Outermost := ⟨h.outerKeys, .inr h.indents⟩
  have hdrop : (s.named p name rest).dropStale = none := by
    rw [hnamed.dropStale]
    simp [named, dropStaleKey, isStale_named hlong, h.indents]
  rw [run, hfetch, hdrop]
  exact reliable_of_none h.outerKeys h.noKey

/-- A colon needs a key before it or a place where one may be. -/
theorem Outermost.fetch_strayColon {s : Scanner} (h : s.Outermost) (hkey : s.possibleKey = none)
    (hallowed : s.keyAllowed = false) {rest : List Char}
    (hrest : s.cursor.rest = ':' :: ' ' :: rest) : s.fetch = none := by
  have hskip : skipBlanks false s.keyAllowed false s.cursor.place s.cursor.rest =
      (⟨':' :: ' ' :: rest, s.cursor.place⟩, false) := by
    rw [hallowed, hrest]
    rfl
  have hfresh := dropStaleKey_of_none hkey s.cursor.place
  rw [h.fetch hskip hfresh, fetchHere_moved, fetchFrom_colon]
  simp [fetchValue, Scanner.moved, hkey, Scanner.inFlow, h.outerKeys]

/-- A name that is too long for a key is a scalar, and a colon cannot follow it. -/
theorem start_run_longKey {name rest : List Char} (hname : IsName name)
    (hlong : maxKeyLength < name.length) (fuel : Nat) :
    (Scanner.start (name ++ ':' :: ' ' :: rest)).run (fuel + 2) =
      [.scalar (String.ofList name) .plain] := by
  have hat : (Scanner.start (name ++ ':' :: ' ' :: rest)).AtRow (name ++ ':' :: ' ' :: rest) := by
    obtain ⟨c, more, rfl⟩ := List.exists_cons_of_ne_nil hname.1
    exact start_atRow (hname.2 c List.mem_cons_self) _
  obtain ⟨p, _, hfetch⟩ := hat.fetch hname
  have hdrop : ((Scanner.start (name ++ ':' :: ' ' :: rest)).named p name rest).dropStale =
      some ⟨⟨':' :: ' ' :: rest, p.along name.length⟩, [.scalar (String.ofList name) .plain], [],
        none, [], false⟩ := by
    rw [Outermost.dropStale ⟨rfl, .inl rfl⟩]
    simp [named, dropStaleKey, isStale_named hlong, Scanner.start]
  have hstuck := Outermost.fetch_strayColon
    (s := ⟨⟨':' :: ' ' :: rest, p.along name.length⟩, [.scalar (String.ofList name) .plain], [],
      none, [], false⟩) ⟨rfl, .inl rfl⟩ rfl rfl rfl
  rw [run_of_fetch (hfetch.trans hdrop) (by simp), run, hstuck]
  exact reliable_of_none rfl rfl

end Scanner

end DualRail.Yaml
