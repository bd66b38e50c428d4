/-
  Paths: names separated by slashes.
-/
set_option autoImplicit false

namespace DualRail.Files

/-- The parts of a path: where it starts, its names, and whether a slash follows
the last name. -/
structure Path where
  absolute : Bool
  names : List String
  trailingSlash : Bool
deriving DecidableEq, Repr, Inhabited

namespace Path

/-- Cut a list of characters at every slash. -/
def cut : List Char → List (List Char)
  | [] => [[]]
  | c :: rest =>
      if c = '/' then [] :: cut rest
      else
        match cut rest with
        | piece :: pieces => (c :: piece) :: pieces
        | [] => [[c]]

/-- The parts of a path that is given as a text.  Slashes that follow each other
count as one. -/
def ofString (text : String) : Path :=
  let pieces := cut text.toList
  { absolute := text.startsWith "/"
    names := (pieces.filter fun piece => !piece.isEmpty).map String.ofList
    trailingSlash := text.endsWith "/" }

/-- The last name that is not a single dot, unless that is a double dot. -/
def fileName? (p : Path) : Option String :=
  match (p.names.filter (· != ".")).getLast? with
  | some name => if name = ".." then none else some name
  | none => none

/-- What follows the last dot of a name, unless the name has no dot or only one
at its start. -/
def extensionOf? (name : String) : Option String :=
  let cs := name.toList.reverse
  match cs.dropWhile (· != '.') with
  | _ :: before =>
      if before.isEmpty then none
      else some (String.ofList (cs.takeWhile (· != '.')).reverse)
  | [] => none

/-- The extension of the file that a path names. -/
def extension? (p : Path) : Option String := p.fileName?.bind extensionOf?

/-- Whether a path names a file with an extension, in upper or lower case. -/
def hasExtension (p : Path) (wanted : String) : Bool :=
  match p.extension? with
  | some e => e.map Char.toLower == wanted
  | none => false

end Path

end DualRail.Files
