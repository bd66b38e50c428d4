/-
  Names, tags and directives.

  An anchor is a word.  A tag names the type of a node, in full or by a handle
  that a directive stands for.  Any byte can be written in a tag by its number, so
  the name of a tag is a list of bytes, which ends before the first zero.  A
  directive gives the version of the format or the meaning of a handle.
-/
import DualRail.Yaml.Scalar

set_option autoImplicit false

namespace DualRail.Yaml

/-! ## Anchors -/

/-- The characters that may follow an anchor directly. -/
def afterAnchor : List Char := ['?', ':', ',', ']', '\x7d', '%', '@', '\x60']

/-- Read the name of an anchor. -/
def scanAnchor (text : List Char) : Option (List Char × List Char) :=
  let name := text.takeWhile isWordChar
  let rest := text.dropWhile isWordChar
  let ends := endsWord rest || (rest.head?.map afterAnchor.contains).getD false
  if !name.isEmpty && ends then some (name, rest) else none

/-! ## Tags -/

/-- The name of a tag, or a part of it. -/
abbrev TagName := List UInt8

namespace TagName

/-- The name that is given by a text. -/
def ofString (s : String) : TagName := s.toUTF8.toList

/-- The part of a name before the first zero. -/
def beforeZero (name : TagName) : TagName := name.takeWhile (· != 0)

/-- The byte of an exclamation mark. -/
def mark : UInt8 := 0x21

/-- Whether a tag is private to its text. -/
def isPrivate (name : TagName) : Bool := name.head? == some mark

/-- What a private tag calls its value: the text after the exclamation mark, or
that mark if nothing follows it. -/
def variant? (name : TagName) : Option String :=
  if name.isPrivate then
    String.fromUTF8? ⟨(if name.length = 1 then name else name.drop 1).toArray⟩
  else none

end TagName

/-- A tag as it is written: a handle, which may be empty, and what follows it. -/
structure Tag where
  handle : String
  suffix : TagName
deriving DecidableEq, Repr, Inhabited

/-- Whether a character may stand in a tag. -/
def isTagChar (verbatim : Bool) (c : Char) : Bool :=
  isWordChar c ||
    [';', '/', '?', ':', '@', '&', '=', '+', '$', '.', '!', '~', '*', '\'', '(', ')'].contains c ||
    (verbatim && [',', '[', ']'].contains c)

/-- The number of bytes that have to follow a byte, when `left` of them have to
follow the bytes before it; `none` if the byte cannot stand there. -/
def bytesAfter? (left byte : Nat) : Option Nat :=
  if 0 < left then (if byte / 64 = 2 then some (left - 1) else none)
  else if byte < 0x80 then some 0
  else if byte / 32 = 6 then some 1
  else if byte / 16 = 14 then some 2
  else if byte / 8 = 30 then some 3
  else none

/-- Read the name of a tag or a part of it.  A byte may be given by a percent sign
and two hexadecimal digits; `left` more such bytes have to follow first. -/
def scanTagName (verbatim : Bool) (left : Nat) : List Char → Option (TagName × List Char)
  | [] => if left = 0 then some ([], []) else none
  | '%' :: a :: b :: rest =>
      match Text.natural? 16 [a, b] with
      | some byte =>
          match bytesAfter? left byte with
          | some left =>
              (scanTagName verbatim left rest).map fun r => (byte.toUInt8 :: r.1, r.2)
          | none => none
      | none => none
  | c :: rest =>
      if 0 < left then none
      else if isTagChar verbatim c then
        (scanTagName verbatim 0 rest).map fun r => (c.toNat.toUInt8 :: r.1, r.2)
      else if c == '%' then none
      else some ([], c :: rest)

/-- Read the name of a tag or a part of it, which may not be empty. -/
def scanFullName (verbatim : Bool) (text : List Char) : Option (TagName × List Char) :=
  match scanTagName verbatim 0 text with
  | some (name, rest) => if name.isEmpty then none else some (name.beforeZero, rest)
  | none => none

/-- Read a tag that starts with a handle or has none, after its exclamation mark. -/
def scanShortTag (text : List Char) : Option (Tag × List Char) :=
  let word := text.takeWhile isWordChar
  match text.dropWhile isWordChar with
  | '!' :: rest =>
      (scanFullName false rest).map fun r => (⟨"!" ++ String.ofList word ++ "!", r.1⟩, r.2)
  | _ =>
      (scanTagName false 0 text).map fun r =>
        let suffix := r.1.beforeZero
        (if suffix.isEmpty then ⟨"", [TagName.mark]⟩ else ⟨"!", suffix⟩, r.2)

/-- Read a tag, after its exclamation mark. -/
def scanTag (flow : Bool) (text : List Char) : Option (Tag × List Char) :=
  let found :=
    match text with
    | '<' :: inner =>
        match scanFullName true inner with
        | some (suffix, '>' :: rest) => some (⟨"", suffix⟩, rest)
        | _ => none
    | _ => scanShortTag text
  match found with
  | some (tag, rest) =>
      if endsWord rest || (flow && rest.head? == some ',') then some (tag, rest) else none
  | none => none

/-! ## Directives -/

/-- A directive: a version, or what a handle stands for. -/
inductive Directive
  | version (major minor : Nat)
  | handle (name : String) (stem : TagName)
deriving DecidableEq, Repr, Inhabited

/-- Read a number of at most nine digits. -/
def scanNumber (text : List Char) : Option (Nat × List Char) :=
  let digits := text.takeWhile Char.isDigit
  if 9 < digits.length then none
  else (Text.natural? 10 digits).map fun n => (n, text.dropWhile Char.isDigit)

/-- Read a version. -/
def scanVersion (text : List Char) : Option (Directive × List Char) := do
  let (major, rest) ← scanNumber (text.dropWhile isBlank)
  match rest with
  | '.' :: rest => do
      let (minor, rest) ← scanNumber rest
      return (.version major minor, rest)
  | _ => none

/-- Read a handle and what it stands for. -/
def scanHandle (text : List Char) : Option (Directive × List Char) := do
  match text.dropWhile isBlank with
  | '!' :: rest => do
      let word := rest.takeWhile isWordChar
      let (name, rest) ←
        match rest.dropWhile isWordChar with
        | '!' :: rest => some ("!" ++ String.ofList word ++ "!", rest)
        | rest => if word.isEmpty then some ("!", rest) else none
      if !((rest.head?.map isBlank).getD false) then none
      let (stem, rest) ← scanFullName true (rest.dropWhile isBlank)
      if !endsWord rest then none
      return (.handle name stem, rest)
  | _ => none

/-- Read a directive, after its percent sign, and the rest of its line. -/
def scanDirective (text : List Char) : Option (Directive × List Char) := do
  let name := String.ofList (text.takeWhile isWordChar)
  let rest := text.dropWhile isWordChar
  if !endsWord rest then none
  let (directive, rest) ←
    if name = "YAML" then scanVersion rest
    else if name = "TAG" then scanHandle rest
    else none
  let rest := rest.dropWhile isBlank
  let rest := if rest.head? == some '#' then rest.dropWhile (fun c => !isBreak c) else rest
  if endsWord rest then return (directive, rest) else none

end DualRail.Yaml
