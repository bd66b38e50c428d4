/-
  Characters of a YAML text, and a place in it.

  Line breaks are unified before a text is scanned, so that every break is one
  character.  A cursor holds what is still to be scanned, with its place; columns
  decide about structure, and the bytes of a line about the length of a key.
-/
set_option autoImplicit false

namespace DualRail.Yaml

/-! ## Characters -/

/-- Whether a character may stand in a text at all. -/
def isAllowed (c : Char) : Bool :=
  let n := c.toNat
  n == 0x9 || n == 0xA || n == 0xD || (0x20 ≤ n && n ≤ 0x7E) || n == 0x85 ||
    (0xA0 ≤ n && n ≤ 0xFFFD) || 0x10000 ≤ n

/-- A space or a tab. -/
def isBlank (c : Char) : Bool := c == ' ' || c == '\t'

/-- A line break, once the breaks of a text are unified. -/
def isBreak (c : Char) : Bool := c == '\n' || c == '\u2028' || c == '\u2029'

/-- The mark of the byte order, which may stand before a line. -/
def byteOrderMark : Char := '\ufeff'

/-- Letters, digits, the hyphen and the underscore. -/
def isWordChar (c : Char) : Bool := c.isAlphanum || c == '-' || c == '_'

/-- Write every kind of line break that stands for a new line as one. -/
def unifyBreaks : List Char → List Char
  | [] => []
  | '\r' :: '\n' :: rest => '\n' :: unifyBreaks rest
  | c :: rest => (if c = '\r' ∨ c = '\u0085' then '\n' else c) :: unifyBreaks rest

/-- Whether a word ends here: at the end of the text, a blank or a break. -/
def endsWord : List Char → Bool
  | [] => true
  | c :: _ => isBlank c || isBreak c

/-- Whether a document marker made of three times the same character stands here. -/
def isMarker (mark : Char) : List Char → Bool
  | a :: b :: c :: rest => a == mark && b == mark && c == mark && endsWord rest
  | _ => false

/-- Whether a document starts or ends here. -/
def atMarker (text : List Char) : Bool := isMarker '-' text || isMarker '.' text

/-! ## Places -/

/-- A place in a text: its line, and the characters and the bytes that stand
before it on that line. -/
structure Position where
  line : Nat
  column : Nat
  width : Nat
deriving DecidableEq, Repr, Inhabited

namespace Position

/-- The start of a text. -/
def start : Position := ⟨0, 0, 0⟩

/-- The start of the next line. -/
def nextLine (p : Position) : Position := ⟨p.line + 1, 0, 0⟩

/-- The place after a character. -/
def after (p : Position) (c : Char) : Position :=
  if isBreak c then p.nextLine else ⟨p.line, p.column + 1, p.width + c.utf8Size⟩

end Position

/-- What is still to be scanned, and where it stands. -/
structure Cursor where
  rest : List Char
  place : Position
deriving DecidableEq, Repr, Inhabited

namespace Cursor

/-- The start of a text. -/
def start (text : List Char) : Cursor := ⟨text, .start⟩

/-- The place after `n` more characters. -/
def skip (c : Cursor) (n : Nat) : Cursor :=
  ⟨c.rest.drop n, (c.rest.take n).foldl Position.after c.place⟩

/-- The end of a line, if one has begun. -/
def endLine (c : Cursor) : Cursor := if c.place.column = 0 then c else ⟨c.rest, c.place.nextLine⟩

end Cursor

/-- Skip blanks, comments and line breaks.  `keyAllowed` says whether a key may
start here; the second result says so for the place that is reached.  Where a key
may start outside of brackets, a tab is no blank; the mark of the byte order is
one at the start of a line. -/
def skipBlanks (flow : Bool) (keyAllowed comment : Bool) (p : Position) :
    List Char → Cursor × Bool
  | [] => (⟨[], p⟩, keyAllowed)
  | c :: rest =>
      if isBreak c then skipBlanks flow (keyAllowed || !flow) false (p.after c) rest
      else if comment || c == ' ' || (c == '\t' && (flow || !keyAllowed)) ||
          (c == byteOrderMark && p.column == 0) then
        skipBlanks flow keyAllowed comment (p.after c) rest
      else if c == '#' then skipBlanks flow keyAllowed true (p.after c) rest
      else (⟨c :: rest, p⟩, keyAllowed)

end DualRail.Yaml
