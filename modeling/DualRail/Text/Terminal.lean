/-
  Commands to the terminal inside a text.

  A command starts with the escape character.  The characters after it say what
  kind of command it is and where it ends; a cancelling character ends every
  command, and the escape character starts another one.  A text is plain once its
  commands are dropped, and with them every control character that neither moves
  to the next line nor leaves a gap.
-/

set_option autoImplicit false

namespace DualRail.Text

/-! ## Characters -/

/-- The character that starts a command. -/
def escapeChar : Char := '\x1b'

/-- The characters that end every command. -/
def isCancel (c : Char) : Bool := c = '\x18' || c = '\x1a'

/-- The control characters that are part of a plain text: the tab, the line feed,
the form feed and the carriage return. -/
def isGap (c : Char) : Bool := c = '\t' || c = '\n' || c = '\x0c' || c = '\r'

/-- The characters of a plain text.  Beyond ASCII that is every one. -/
def isPlain (c : Char) : Bool := isGap c || (' ' ≤ c && c ≠ '\x7f')

/-- Whether a character lies between two others. -/
def isBetween (low high c : Char) : Bool := low ≤ c && c ≤ high

/-- Whether a byte of a character is the byte that ends a string of a command. -/
def endsString (c : Char) : Bool := (String.utf8EncodeChar c).contains 0x9c

/-! ## Commands -/

/-- What stands before the string of a command to the device. -/
inductive DevicePart
  | start
  | parameters
  | intermediate
deriving DecidableEq, Repr, Inhabited

/-- The kind of command that the next character belongs to, as far as it is
known. -/
inductive Sequence
  | none
  | escape
  | intermediate
  | control
  | system
  | device (part : DevicePart)
  | string
deriving DecidableEq, Repr, Inhabited

namespace Sequence

/-- The sequence after the character that follows the escape character. -/
def afterEscape (c : Char) : Sequence :=
  if c = '[' then control
  else if c = ']' then system
  else if c = 'P' then device .start
  else if c = 'X' || c = '^' || c = '_' then string
  else if isBetween ' ' '/' c then intermediate
  else if isBetween '0' '~' c then none
  else escape

/-- The sequence after a character before the string of a command to the device.
A parameter out of place makes the device ignore the string. -/
def afterDevice (part : DevicePart) (c : Char) : Sequence :=
  if isBetween '@' '~' c then string
  else if isBetween ' ' '/' c then device .intermediate
  else if isBetween '0' '?' c then
    match part with
    | .start => if c = ':' then string else device .parameters
    | .parameters => if c = ':' || isBetween '<' '?' c then string else device part
    | .intermediate => string
  else device part

/-- The sequence after a character. -/
def next (s : Sequence) (c : Char) : Sequence :=
  if isCancel c then none
  else if c = escapeChar then escape
  else
    match s with
    | none => none
    | escape => afterEscape c
    | intermediate => if isBetween '0' '~' c then none else intermediate
    | control => if isBetween '@' '~' c then none else control
    | system => if c = '\x07' then none else system
    | device part => afterDevice part c
    | string => if endsString c then none else string

/-- Whether a character is part of the plain text.  A gap inside a command is,
unless the command holds a string. -/
def shows (s : Sequence) (c : Char) : Bool :=
  match s with
  | none => isPlain c
  | escape | intermediate | control => isGap c
  | system | device _ | string => false

end Sequence

/-! ## Plain text -/

/-- The point that a reader of a text has come to.  After a gap inside a command
the command is `suspended`: what follows is plain text as long as it can be. -/
structure Reading where
  sequence : Sequence
  suspended : Bool
deriving DecidableEq, Repr, Inhabited

namespace Reading

/-- A reader before a text. -/
def start : Reading := ⟨.none, false⟩

/-- Whether a character is part of the plain text. -/
def shows (r : Reading) (c : Char) : Bool :=
  if r.suspended then isPlain c else r.sequence.shows c

/-- The reader after a character.  A suspended command goes on with the first
character that is not plain, and is forgotten at one beyond ASCII. -/
def next (r : Reading) (c : Char) : Reading :=
  if r.suspended && isPlain c then ⟨if c ≤ '\x7f' then r.sequence else .none, true⟩
  else ⟨r.sequence.next c, r.sequence.shows c⟩

/-- The plain part of some characters. -/
def plain : Reading → List Char → List Char
  | _, [] => []
  | r, c :: cs => if r.shows c then c :: (r.next c).plain cs else (r.next c).plain cs

end Reading

/-- The plain part of a text. -/
def plain (s : String) : String := String.ofList (Reading.start.plain s.toList)

/-- A text that a terminal shows in bold letters. -/
def emphasised (s : String) : String := "\x1b[1m" ++ s ++ "\x1b[0m"

end DualRail.Text
