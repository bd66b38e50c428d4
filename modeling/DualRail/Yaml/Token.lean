/-
  Tokens of a YAML text.

  A key is recognised only by the colon that follows it.  So the scanner notes
  where a key may have started, at most once for every level of brackets, and
  puts the token of the key before it when the colon comes.  A key has to stand
  on one line, within a thousand bytes or so.

  When the rules are broken, the tokens that can be relied on are those before
  the first that may still turn out to be a key.  A key that has to be there and
  can no longer come breaks the rules at once.
-/
import DualRail.Yaml.Tag

set_option autoImplicit false

namespace DualRail.Yaml

/-- How a scalar was written. -/
inductive Style
  | plain
  | quoted
  | literal
  | folded
deriving DecidableEq, Repr, Inhabited

/-- A token. -/
inductive Token
  | streamEnd
  | directive (d : Directive)
  | documentStart
  | documentEnd
  | blockSequenceStart
  | blockMappingStart
  | blockEnd
  | flowSequenceStart
  | flowSequenceEnd
  | flowMappingStart
  | flowMappingEnd
  | blockEntry
  | flowEntry
  | key
  | value
  | alias (name : String)
  | anchor (name : String)
  | tag (t : Tag)
  | scalar (text : String) (style : Style)
deriving DecidableEq, Repr, Inhabited

/-! ## The state of the scanner -/

/-- A place where a key may have started: the number of tokens before it, where
it stands, and whether there has to be a key. -/
structure PossibleKey where
  before : Nat
  place : Position
  required : Bool
deriving DecidableEq, Repr, Inhabited

/-- The state of the scanner.  `indents` are the columns of the open blocks, the
innermost first; `possibleKey` is the possible key at this level of brackets and
`outerKeys` are those of the levels around it. -/
structure Scanner where
  cursor : Cursor
  tokens : List Token
  indents : List Nat
  possibleKey : Option PossibleKey
  outerKeys : List (Option PossibleKey)
  keyAllowed : Bool
deriving DecidableEq, Repr, Inhabited

namespace Scanner

/-- The scanner at the start of a text. -/
def start (text : List Char) : Scanner := ⟨.start text, [], [], none, [], true⟩

/-- Whether the scanner is between brackets. -/
def inFlow (s : Scanner) : Bool := !s.outerKeys.isEmpty

/-- Add a token. -/
def emit (s : Scanner) (t : Token) : Scanner := { s with tokens := s.tokens ++ [t] }

/-- The least indentation of a line that belongs to a scalar of the innermost
block. -/
def leastIndent (s : Scanner) : Nat :=
  match s.indents with
  | [] => 0
  | n :: _ => n + 1

/-! ## Keys -/

/-- The number of bytes in the longest key. -/
def maxKeyLength : Nat := 1024

/-- Whether a possible key is out of reach. -/
def isStale (place : Position) (k : PossibleKey) : Bool :=
  k.place.line < place.line || k.place.width + maxKeyLength < place.width

/-- Forget a possible key that is out of reach, unless there has to be one. -/
def dropStaleKey (place : Position) : Option PossibleKey → Option (Option PossibleKey)
  | none => some none
  | some k =>
      if isStale place k then (if k.required then none else some none) else some (some k)

/-- Forget the possible keys that are out of reach. -/
def dropStale (s : Scanner) : Option Scanner := do
  let possibleKey ← dropStaleKey s.cursor.place s.possibleKey
  let outerKeys ← s.outerKeys.mapM (dropStaleKey s.cursor.place)
  return { s with possibleKey, outerKeys }

/-- Forget the possible key of this level, unless there has to be one. -/
def dropKey (s : Scanner) : Option Scanner :=
  match s.possibleKey with
  | some k => if k.required then none else some { s with possibleKey := none }
  | none => some s

/-- Note that a key may start here. -/
def noteKey (s : Scanner) : Option Scanner :=
  if s.keyAllowed then do
    let s ← s.dropKey
    let required := !s.inFlow && s.indents.head? == some s.cursor.place.column
    return { s with possibleKey := some ⟨s.tokens.length, s.cursor.place, required⟩ }
  else some s

/-- The tokens before the first that may still turn out to be a key. -/
def reliable (s : Scanner) : List Token :=
  let pending := (s.possibleKey :: s.outerKeys).filterMap fun k => k.map (·.before)
  s.tokens.take (pending.foldl min s.tokens.length)

/-! ## Indentation -/

/-- Close the blocks that are indented deeper than a column. -/
def closeBlocks (column : Nat) : List Nat → List Token × List Nat
  | [] => ([], [])
  | n :: rest =>
      if column < n then
        let (tokens, left) := closeBlocks column rest
        (.blockEnd :: tokens, left)
      else ([], n :: rest)

/-- Close the blocks that end before this column. -/
def unroll (s : Scanner) : Scanner :=
  if s.inFlow then s
  else
    let (tokens, indents) := closeBlocks s.cursor.place.column s.indents
    { s with tokens := s.tokens ++ tokens, indents }

/-- Close all blocks. -/
def unrollAll (s : Scanner) : Scanner :=
  if s.inFlow then s
  else { s with tokens := s.tokens ++ s.indents.map fun _ => .blockEnd, indents := [] }

/-- Open a block at a column, unless one is open there; its token goes after the
first `before` tokens. -/
def roll (s : Scanner) (column before : Nat) (t : Token) : Scanner :=
  if s.inFlow || column < s.leastIndent then s
  else
    { s with
      indents := column :: s.indents
      tokens := s.tokens.take before ++ t :: s.tokens.drop before }

/-! ## Tokens, one by one -/

/-- Go on after `n` characters, with or without a key possible there. -/
def advance (s : Scanner) (n : Nat) (keyAllowed : Bool) : Scanner :=
  { s with cursor := s.cursor.skip n, keyAllowed }

/-- The end of the text, which ends its last line. -/
def fetchEnd (s : Scanner) : Option Scanner := do
  let s ← s.unrollAll.dropKey
  return { s.emit .streamEnd with cursor := s.cursor.endLine, keyAllowed := false }

/-- A token of `length` characters that stands at the start of a line, outside of
all blocks. -/
def fetchTopLevel (s : Scanner) (t : Token) (length : Nat) : Option Scanner := do
  let s ← s.unrollAll.dropKey
  return (s.emit t).advance length false

/-- A directive. -/
def fetchDirective (s : Scanner) (text : List Char) : Option Scanner := do
  let (directive, rest) ← scanDirective text
  s.fetchTopLevel (.directive directive) (text.length - rest.length + 1)

/-- An opening bracket. -/
def fetchOpening (s : Scanner) (t : Token) : Option Scanner := do
  let s ← s.noteKey
  return (({ s with possibleKey := none, outerKeys := s.possibleKey :: s.outerKeys }).emit
    t).advance 1 true

/-- A closing bracket. -/
def fetchClosing (s : Scanner) (t : Token) : Option Scanner := do
  let s ← s.dropKey
  let s :=
    match s.outerKeys with
    | k :: rest => { s with possibleKey := k, outerKeys := rest }
    | [] => s
  return (s.emit t).advance 1 false

/-- A comma between brackets. -/
def fetchComma (s : Scanner) : Option Scanner := do
  let s ← s.dropKey
  return (s.emit .flowEntry).advance 1 true

/-- The hyphen before an entry of a sequence. -/
def fetchEntry (s : Scanner) : Option Scanner := do
  if !s.inFlow && !s.keyAllowed then none
  let s ← (s.roll s.cursor.place.column s.tokens.length .blockSequenceStart).dropKey
  return (s.emit .blockEntry).advance 1 true

/-- The question mark before a key. -/
def fetchKey (s : Scanner) : Option Scanner := do
  if !s.inFlow && !s.keyAllowed then none
  let s ← (s.roll s.cursor.place.column s.tokens.length .blockMappingStart).dropKey
  return (s.emit .key).advance 1 (!s.inFlow)

/-- The colon before a value.  If a key may have started, here it ends. -/
def fetchValue (s : Scanner) : Option Scanner :=
  match s.possibleKey with
  | some k =>
      let keyed :=
        { s with
          tokens := s.tokens.take k.before ++ Token.key :: s.tokens.drop k.before
          possibleKey := none }
      some (((keyed.roll k.place.column k.before .blockMappingStart).emit .value).advance 1 false)
  | none =>
      if !s.inFlow && !s.keyAllowed then none
      else
        some (((s.roll s.cursor.place.column s.tokens.length .blockMappingStart).emit
          .value).advance 1 (!s.inFlow))

/-- A token that may be the start of a key, and the place after it. -/
def fetchContent (s : Scanner) (t : Token) (after : Cursor) (keyAllowed : Bool) :
    Option Scanner := do
  let s ← s.noteKey
  return { s.emit t with cursor := after, keyAllowed }

/-- A word after a mark of one character. -/
def fetchMarked {α : Type} (s : Scanner) (make : α → Token) (found : Option (α × List Char)) :
    Option Scanner := do
  let (a, rest) ← found
  s.fetchContent (make a) (s.cursor.skip (s.cursor.rest.length - rest.length)) false

/-- A block scalar. -/
def fetchBlockScalar (s : Scanner) (literal : Bool) : Option Scanner := do
  let s ← s.dropKey
  let (text, after) ← scanBlock literal s.indents.head? (s.cursor.skip 1)
  let style := if literal then Style.literal else Style.folded
  return { s.emit (.scalar (String.ofList text) style) with cursor := after, keyAllowed := true }

/-- A scalar between quotes. -/
def fetchQuoted (s : Scanner) (found : Option (List Char × Cursor)) : Option Scanner := do
  let (text, after) ← found
  s.fetchContent (.scalar (String.ofList text) .quoted) after false

/-- A plain scalar. -/
def fetchPlain (s : Scanner) : Option Scanner := do
  let (text, after, broken) ←
    scanPlain s.inFlow s.leastIndent .none s.cursor.place s.cursor.rest
  s.fetchContent (.scalar (String.ofList text) .plain) after broken

/-- Characters that stand for something else than themselves at the start of a
token. -/
def indicators : List Char :=
  ['-', '?', ':', ',', '[', ']', '\x7b', '\x7d', '#', '&', '*', '!', '|', '>', '\'', '"', '%', '@',
    '\x60']

/-- Whether a plain scalar starts with `c`, which `rest` follows. -/
def startsPlain (flow : Bool) (c : Char) (rest : List Char) : Bool :=
  (!isBlank c && !isBreak c && !indicators.contains c) ||
    (c == '-' && !((rest.head?.map isBlank).getD false)) ||
    (!flow && (c == '?' || c == ':') && !endsWord rest)

/-- The token that starts with `c`, which `rest` follows. -/
def fetchFrom (s : Scanner) (c : Char) (rest : List Char) : Option Scanner :=
  let atStart := s.cursor.place.column == 0
  if atStart && c == '%' then s.fetchDirective rest
  else if atStart && isMarker '-' (c :: rest) then s.fetchTopLevel .documentStart 3
  else if atStart && isMarker '.' (c :: rest) then s.fetchTopLevel .documentEnd 3
  else if c == '[' then s.fetchOpening .flowSequenceStart
  else if c == '\x7b' then s.fetchOpening .flowMappingStart
  else if c == ']' then s.fetchClosing .flowSequenceEnd
  else if c == '\x7d' then s.fetchClosing .flowMappingEnd
  else if c == ',' then s.fetchComma
  else if c == '-' && endsWord rest then s.fetchEntry
  else if c == '?' && (s.inFlow || endsWord rest) then s.fetchKey
  else if c == ':' && (s.inFlow || endsWord rest) then s.fetchValue
  else if c == '*' then s.fetchMarked (.alias ∘ String.ofList) (scanAnchor rest)
  else if c == '&' then s.fetchMarked (.anchor ∘ String.ofList) (scanAnchor rest)
  else if c == '!' then s.fetchMarked .tag (scanTag s.inFlow rest)
  else if c == '|' && !s.inFlow then s.fetchBlockScalar true
  else if c == '>' && !s.inFlow then s.fetchBlockScalar false
  else if c == '\'' then s.fetchQuoted (scanSingle .none (s.cursor.place.after c) rest)
  else if c == '"' then s.fetchQuoted (scanDouble .text .none (s.cursor.place.after c) rest)
  else if startsPlain s.inFlow c rest then s.fetchPlain
  else none

/-- The token that starts here. -/
def fetchHere (s : Scanner) : Option Scanner :=
  match s.cursor.rest with
  | [] => s.fetchEnd
  | c :: rest => s.fetchFrom c rest

/-- Add the next token, after the blanks before it. -/
def fetch (s : Scanner) : Option Scanner := do
  let (cursor, keyAllowed) :=
    skipBlanks s.inFlow s.keyAllowed false s.cursor.place s.cursor.rest
  let s ← ({ s with cursor, keyAllowed }).dropStale
  let s ← s.unroll.fetchHere
  s.dropStale

/-- Add tokens up to the end of the text, at most `fuel` of them.  Without the
token of the end, the rules are broken after the last token. -/
def run : Nat → Scanner → List Token
  | 0, s => s.reliable
  | fuel + 1, s =>
      match s.fetch with
      | none => s.reliable
      | some next =>
          if next.tokens.getLast? = some .streamEnd then next.tokens else run fuel next

end Scanner

/-! ## Texts -/

/-- The tokens of a text, up to the first place where the rules are broken.  Each
of them but the last takes at least one character. -/
def tokens (text : List Char) : List Token :=
  if text.all isAllowed then
    let text := unifyBreaks text
    (Scanner.start text).run (text.length + 1)
  else []

end DualRail.Yaml
