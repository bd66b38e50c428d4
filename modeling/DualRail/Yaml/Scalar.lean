/-
  Scalars: plain, quoted and block texts.

  Within a plain or a quoted scalar, blanks around a line break vanish; a single
  break becomes a space, and of several breaks the first vanishes.  Every reader
  here goes through the text once and gives what was written and the place after
  it, or nothing if the text breaks the rules.
-/
import DualRail.Text.Integer
import DualRail.Yaml.Cursor

set_option autoImplicit false

namespace DualRail.Yaml

/-! ## Gaps -/

/-- Blanks and breaks between the words of a scalar.  The first break is missing
when it was escaped. -/
inductive Gap
  | blanks (cs : List Char)
  | breaks (first : Option Char) (more : List Char)
deriving DecidableEq, Repr, Inhabited

namespace Gap

/-- No gap. -/
def none : Gap := blanks []

/-- Whether there is a gap. -/
def isOpen : Gap → Bool
  | blanks cs => !cs.isEmpty
  | breaks _ _ => true

/-- Whether the line ends in the gap. -/
def isBroken : Gap → Bool
  | blanks _ => false
  | breaks _ _ => true

/-- The gap with one more blank. -/
def addBlank (c : Char) : Gap → Gap
  | blanks cs => blanks (cs ++ [c])
  | breaks first more => breaks first more

/-- The gap with one more break. -/
def addBreak (c : Char) : Gap → Gap
  | blanks _ => breaks (some c) []
  | breaks first more => breaks first (more ++ [c])

/-- What a gap stands for. -/
def fill : Gap → List Char
  | blanks cs => cs
  | breaks Option.none more => more
  | breaks (some c) more =>
      if c == '\n' then (if more.isEmpty then [' '] else more) else c :: more

end Gap

/-! ## Plain scalars -/

/-- The characters that end a plain scalar between brackets. -/
def flowIndicators : List Char := [',', '[', ']', '\x7b', '\x7d']

/-- Whether a plain scalar ends before the character `c` that `rest` follows. -/
def endsPlain (flow : Bool) (c : Char) (rest : List Char) : Bool :=
  (c == ':' && endsWord rest) || (flow && flowIndicators.contains c)

/-- Whether a colon stands where neither a key nor a value can end. -/
def isStrayColon (c : Char) (rest : List Char) : Bool :=
  match rest with
  | next :: _ => c == ':' && (next == '?' || flowIndicators.contains next)
  | [] => false

/-- Whether the word after a gap belongs to what follows a plain scalar. -/
def endsAfterGap (flow : Bool) (least column : Nat) (text : List Char) : Bool :=
  (!flow && column < least) || (column == 0 && atMarker text) || text.head? == some '#'

/-- Read a plain scalar.  Its further lines are indented by at least `least`.  The
last result says whether a line ended after it. -/
def scanPlain (flow : Bool) (least : Nat) (gap : Gap) (p : Position) :
    List Char → Option (List Char × Cursor × Bool)
  | [] => some ([], ⟨[], p⟩, gap.isBroken)
  | c :: rest =>
      if isBreak c then scanPlain flow least (gap.addBreak c) (p.after c) rest
      else if isBlank c then
        if c == '\t' && gap.isBroken && p.column < least then none
        else scanPlain flow least (gap.addBlank c) (p.after c) rest
      else if gap.isOpen && endsAfterGap flow least p.column (c :: rest) then
        some ([], ⟨c :: rest, p⟩, gap.isBroken)
      else if flow && isStrayColon c rest then none
      else if endsPlain flow c rest then
        some ([], ⟨c :: rest, p⟩, gap.isBroken)
      else
        (scanPlain flow least .none (p.after c) rest).map fun r =>
          (gap.fill ++ c :: r.1, r.2)

/-! ## Quoted scalars -/

/-- Put a text before the text of a scalar. -/
def prepend (text : List Char) (r : Option (List Char × Cursor)) : Option (List Char × Cursor) :=
  r.map fun r => (text ++ r.1, r.2)

/-- Read a scalar between single quotes, after the first of them.  A quote inside
is written twice. -/
def scanSingle (gap : Gap) (p : Position) : List Char → Option (List Char × Cursor)
  | [] => none
  | c :: rest =>
      if isBreak c then scanSingle (gap.addBreak c) (p.after c) rest
      else if isBlank c then scanSingle (gap.addBlank c) (p.after c) rest
      else if p.column == 0 && atMarker (c :: rest) then none
      else if c == '\'' then
        match rest with
        | '\'' :: more => prepend (gap.fill ++ [c]) (scanSingle .none ((p.after c).after c) more)
        | _ => some (gap.fill, ⟨rest, p.after c⟩)
      else prepend (gap.fill ++ [c]) (scanSingle .none (p.after c) rest)

/-- What a character stands for after a backslash. -/
def escaped? (c : Char) : Option Char :=
  match c with
  | '0' => some '\x00'
  | 'a' => some '\x07'
  | 'b' => some '\x08'
  | 't' => some '\t'
  | '\t' => some '\t'
  | 'n' => some '\n'
  | 'v' => some '\x0b'
  | 'f' => some '\x0c'
  | 'r' => some '\r'
  | 'e' => some '\x1b'
  | ' ' => some ' '
  | '"' => some '"'
  | '/' => some '/'
  | '\\' => some '\\'
  | 'N' => some '\u0085'
  | '_' => some '\u00a0'
  | 'L' => some '\u2028'
  | 'P' => some '\u2029'
  | _ => none

/-- The number of hexadecimal digits that a character after a backslash announces. -/
def escapedDigits? (c : Char) : Option Nat :=
  match c with
  | 'x' => some 2
  | 'u' => some 4
  | 'U' => some 8
  | _ => none

/-- The character with a number. -/
def character? (n : Nat) : Option Char :=
  if h : n.isValidChar then some (Char.ofNatAux n h) else none

/-- Where a reader of a scalar between double quotes is: in the text, after a
backslash, or before some more digits of a character number. -/
inductive EscapeState
  | text
  | backslash
  | digits (left : Nat) (value : Nat)
deriving DecidableEq, Repr, Inhabited

/-- Read a scalar between double quotes, after the first of them. -/
def scanDouble (state : EscapeState) (gap : Gap) (p : Position) :
    List Char → Option (List Char × Cursor)
  | [] => none
  | c :: rest =>
      match state with
      | .digits left value =>
          match Text.digitIn? 16 c with
          | none => none
          | some d =>
              let value := 16 * value + d
              if left ≤ 1 then
                match character? value with
                | some u => prepend [u] (scanDouble .text .none (p.after c) rest)
                | none => none
              else scanDouble (.digits (left - 1) value) .none (p.after c) rest
      | .backslash =>
          if isBreak c then scanDouble .text (.breaks none []) (p.after c) rest
          else
            match escaped? c, escapedDigits? c with
            | some u, _ => prepend [u] (scanDouble .text .none (p.after c) rest)
            | none, some n => scanDouble (.digits n 0) .none (p.after c) rest
            | none, none => none
      | .text =>
          if isBreak c then scanDouble .text (gap.addBreak c) (p.after c) rest
          else if isBlank c then scanDouble .text (gap.addBlank c) (p.after c) rest
          else if p.column == 0 && atMarker (c :: rest) then none
          else if c == '"' then some (gap.fill, ⟨rest, p.after c⟩)
          else if c == '\\' then
            prepend gap.fill (scanDouble .backslash .none (p.after c) rest)
          else prepend (gap.fill ++ [c]) (scanDouble .text .none (p.after c) rest)

/-! ## Block scalars -/

/-- What becomes of the breaks at the end of a block scalar. -/
inductive Chomping
  | strip
  | clip
  | keep
deriving DecidableEq, Repr, Inhabited

/-- The head of a block scalar: its indentation, if given, and its chomping. -/
structure BlockHead where
  indentation : Option Nat
  chomping : Chomping
deriving DecidableEq, Repr, Inhabited

/-- The chomping that a character asks for. -/
def chomping? (c : Char) : Option Chomping :=
  if c == '+' then some .keep else if c == '-' then some .strip else none

/-- The indentation that a character asks for. -/
def indentation? (c : Char) : Option Nat :=
  if c.isDigit && c != '0' then some (c.toNat - '0'.toNat) else none

/-- Read the indicators of a block scalar, in either order. -/
def scanBlockHead : List Char → BlockHead × List Char
  | [] => (⟨none, .clip⟩, [])
  | a :: rest =>
      match chomping? a, indentation? a with
      | some ch, _ =>
          match rest.head?.bind indentation? with
          | some n => (⟨some n, ch⟩, rest.drop 1)
          | none => (⟨none, ch⟩, rest)
      | none, some n =>
          match rest.head?.bind chomping? with
          | some ch => (⟨some n, ch⟩, rest.drop 1)
          | none => (⟨some n, .clip⟩, rest)
      | none, none => (⟨none, .clip⟩, a :: rest)

/-- A line without its break, and the break. -/
abbrev Line := List Char × Option Char

/-- Cut a text into lines; only the last has no break. -/
def cutLines : List Char → List Line
  | [] => [([], none)]
  | c :: rest =>
      if isBreak c then ([], some c) :: cutLines rest
      else
        match cutLines rest with
        | (text, ending) :: more => (c :: text, ending) :: more
        | [] => [([c], none)]

/-- Put lines together again. -/
def joinLines (lines : List Line) : List Char :=
  lines.flatMap fun l => l.1 ++ l.2.toList

/-- Blank lines before the next line of a block scalar, and that line. -/
structure BlockLead where
  breaks : List Char
  /-- The indentation of the scalar. -/
  indentation : Nat
  /-- The indentation of the line that was reached. -/
  column : Nat
  /-- The number of lines that were passed. -/
  passed : Nat
  /-- The lines that follow, without the indentation of the first of them. -/
  lines : List Line

/-- The place that is reached after blank lines from the start of `line`.  Only
spaces stand before it. -/
def BlockLead.cursor (lead : BlockLead) (line : Nat) : Cursor :=
  ⟨joinLines lead.lines, ⟨line + lead.passed, lead.column, lead.column⟩⟩

/-- Pass blank lines.  `indentation` is that of the scalar, if it is known;
otherwise it is the deepest that is found, and at least `least`. -/
def passBlankLines (least : Nat) (indentation : Option Nat) (deepest : Nat) :
    List Line → Option BlockLead
  | [] => some ⟨[], indentation.getD (max deepest least), 0, 0, []⟩
  | (text, ending) :: rest =>
      let spaces := (text.takeWhile (· == ' ')).length
      let column := min spaces (indentation.getD spaces)
      let deepest := max deepest column
      let remaining := text.drop column
      let tabbed := remaining.head? == some '\t' && column < indentation.getD (column + 1)
      if tabbed then none
      else
        match remaining.isEmpty, ending with
        | true, some b =>
            (passBlankLines least indentation deepest rest).map fun lead =>
              { lead with breaks := b :: lead.breaks, passed := lead.passed + 1 }
        | _, _ =>
            some ⟨[], indentation.getD (max deepest least), column, 0, (remaining, ending) :: rest⟩

/-- Read the lines of a block scalar that starts after `lead`.  `before` is the
break of the line before, `blankBefore` says whether that line started with a
blank. -/
def scanBlockLines (literal : Bool) (chomping : Chomping) (before : List Char)
    (blankBefore : Bool) (line : Nat) (fuel : Nat) (lead : BlockLead) :
    Option (List Char × Cursor) :=
  let ending :=
    match chomping with
    | .strip => []
    | .clip => before
    | .keep => before ++ lead.breaks
  match fuel, lead.lines with
  | fuel + 1, (text, brk) :: rest =>
      if lead.column == lead.indentation && (!text.isEmpty || brk.isSome) then
        let blank := (text.head?.map isBlank).getD false
        let folds := !literal && before == ['\n'] && !blankBefore && !blank
        let joint :=
          if folds then (if lead.breaks.isEmpty then [' '] else []) else before
        match passBlankLines 0 (some lead.indentation) 0 rest with
        | none => none
        | some next =>
            let nextLine := line + lead.passed + (if brk.isSome then 1 else 0)
            prepend (joint ++ lead.breaks ++ text)
              (scanBlockLines literal chomping brk.toList blank nextLine fuel next)
      else some (ending, lead.cursor line)
  | _, _ => some (ending, lead.cursor line)

/-- Read a block scalar, after the character that announces it.  `parent` is the
indentation of the block around it, if there is one. -/
def scanBlock (literal : Bool) (parent : Option Nat) (cursor : Cursor) :
    Option (List Char × Cursor) :=
  let (head, rest) := scanBlockHead cursor.rest
  let afterBlanks := rest.dropWhile isBlank
  let afterComment :=
    if afterBlanks.head? == some '#' then afterBlanks.dropWhile (fun c => !isBreak c)
    else afterBlanks
  let least := max 1 (match parent with | some n => n + 1 | none => 0)
  let indentation := head.indentation.map fun n => parent.getD 0 + n
  match afterComment with
  | [] => some ([], cursor.skip cursor.rest.length)
  | c :: text =>
      if isBreak c then
        let lines := cutLines text
        match passBlankLines least indentation 0 lines with
        | none => none
        | some lead =>
            scanBlockLines literal head.chomping [] false (cursor.place.line + 1) lines.length lead
      else none

end DualRail.Yaml
