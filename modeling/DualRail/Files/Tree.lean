/-
  File trees.

  A file tree maps places, which are lists of names starting at the root, to
  what is found there: a directory, a file or a device.  A path is followed from
  the root or from the working directory, name by name; every name on the way has
  to be that of a directory.
-/
import DualRail.Files.Path

set_option autoImplicit false

namespace DualRail.Files

/-- Why a file cannot be read or written. -/
inductive FileError
  | notFound
  | notADirectory
  | isADirectory
  | noSpace
  | invalidArgument
  | nameTooLong
  | permissionDenied
  | zeroInPath
  | notText
  | outOfMemory
deriving DecidableEq, Repr, Inhabited

namespace FileError

/-- The text of an error. -/
def message : FileError → String
  | notFound => "No such file or directory (os error 2)"
  | notADirectory => "Not a directory (os error 20)"
  | isADirectory => "Is a directory (os error 21)"
  | noSpace => "No space left on device (os error 28)"
  | invalidArgument => "Invalid argument (os error 22)"
  | nameTooLong => "File name too long (os error 36)"
  | permissionDenied => "Permission denied (os error 13)"
  | zeroInPath => "file name contained an unexpected NUL byte"
  | notText => "stream did not contain valid UTF-8"
  | outOfMemory => "out of memory"

end FileError

/-- A place in a file tree, as the names that lead there from the root. -/
abbrev Place := List String

/-- What is found in a place.  A file holds a text, or bytes that are none.  The
null device takes everything and holds nothing; the full device takes nothing, and
reading it never ends. -/
inductive Content
  | directory
  | text (s : String)
  | binary (bytes : List UInt8)
  | nullDevice
  | fullDevice
deriving DecidableEq, Repr, Inhabited

namespace Content

/-- The content of a file with these bytes. -/
def ofBytes (bytes : List UInt8) : Content :=
  match String.fromUTF8? ⟨bytes.toArray⟩ with
  | some s => text s
  | none => binary bytes

/-- Whether the content is that of a file. -/
def isFile : Content → Bool
  | text _ | binary _ => true
  | _ => false

end Content

/-- A file tree and the working directory. -/
structure FileTree where
  working : Place
  entries : List (Place × Content)
deriving DecidableEq, Repr, Inhabited

namespace FileTree

/-- A tree with the devices and an empty working directory. -/
def initial : FileTree :=
  { working := ["work"]
    entries :=
      [([], .directory), (["work"], .directory), (["dev"], .directory),
        (["dev", "null"], .nullDevice), (["dev", "full"], .fullDevice)] }

/-- What is found in a place. -/
def get? (t : FileTree) (place : Place) : Option Content :=
  (t.entries.find? fun e => e.1 == place).map (·.2)

/-- Put something in a place, in the order of the entries where it was before and
at the end where nothing was. -/
def put (t : FileTree) (place : Place) (content : Content) : FileTree :=
  if t.entries.any fun e => e.1 == place then
    { t with entries := t.entries.map fun e => if e.1 == place then (place, content) else e }
  else { t with entries := t.entries ++ [(place, content)] }

/-- A place holds what was put there. -/
theorem get?_put_self (t : FileTree) (place : Place) (content : Content) :
    (t.put place content).get? place = some content := by
  obtain ⟨working, entries⟩ := t
  unfold put get?
  split
  · rename_i h
    dsimp only at h ⊢
    induction entries with
    | nil => simp at h
    | cons e rest ih =>
      by_cases he : e.1 = place
      · simp [he]
      · have he' : (e.1 == place) = false := by simpa using he
        simp only [List.any_cons, he', Bool.false_or] at h
        simpa [he] using ih h
  · rename_i h
    have hnone : (entries.find? fun e => e.1 == place) = none := by
      rw [List.find?_eq_none]
      intro e he hp
      exact h (List.any_eq_true.2 ⟨e, he, hp⟩)
    simp [List.find?_append, hnone]

/-- All other places keep what they held. -/
theorem get?_put_of_ne (t : FileTree) {place other : Place} (content : Content)
    (h : other ≠ place) : (t.put place content).get? other = t.get? other := by
  unfold put get?
  split
  · induction t.entries with
    | nil => rfl
    | cons e rest ih =>
      by_cases he : e.1 = place
      · have hplace : (place == other) = false := by simpa using Ne.symm h
        simpa [List.find?_cons, he, hplace] using ih
      · by_cases ho : e.1 = other
        · simp [ho, h]
        · have ho' : (e.1 == other) = false := by simpa using ho
          simpa [List.find?_cons, he, ho'] using ih
  · have hplace : (place == other) = false := by simpa using Ne.symm h
    simp [List.find?_append, hplace]

/-- Make the directories that lead to a place, as far as they are missing. -/
def makeDirectories (t : FileTree) : Place → Place → FileTree
  | _, [] => t
  | base, name :: rest =>
      let place := base ++ [name]
      match t.get? place with
      | some _ => makeDirectories t place rest
      | none => makeDirectories (t.put place .directory) place rest

/-- Add something below the working directory, with the directories that lead
there. -/
def add (t : FileTree) (path : String) (content : Content) : FileTree :=
  let names := (Path.ofString path).names.filter (· != ".")
  let t := t.makeDirectories t.working names.dropLast
  t.put (t.working ++ names) content

/-! ## Following paths -/

/-- The greatest number of bytes in a name. -/
def maxName : Nat := 255

/-- The greatest number of bytes in a path. -/
def maxPath : Nat := 4095

/-- What is found in a place where something has to be. -/
def expect (t : FileTree) (place : Place) : Except FileError Content :=
  match t.get? place with
  | some content => .ok content
  | none => .error .notFound

/-- Refuse a place that is not a directory. -/
def checkDirectory (t : FileTree) (place : Place) : Except FileError Unit := do
  match ← t.expect place with
  | .directory => return ()
  | _ => .error .notADirectory

/-- Follow one name from a place. -/
def step (t : FileTree) (place : Place) (name : String) : Except FileError Place := do
  t.checkDirectory place
  if name = "." then return place
  else if name = ".." then return place.dropLast
  else if maxName < name.utf8ByteSize then .error .nameTooLong
  else return place ++ [name]

/-- Follow names from a place.  The last of them need not exist. -/
def follow (t : FileTree) (place : Place) : List String → Except FileError Place
  | [] => .ok place
  | name :: rest => do
      let next ← t.step place name
      t.follow next rest

/-- The place where a path starts. -/
def start (t : FileTree) (p : Path) : Place := if p.absolute then [] else t.working

/-- Cut a path into its parts, unless it can be no path of a file. -/
def checkPath (text : String) : Except FileError Path :=
  if text.toList.any (·.toNat == 0) then .error .zeroInPath
  else if text = "" then .error .notFound
  else if maxPath < text.utf8ByteSize then .error .nameTooLong
  else .ok (Path.ofString text)

/-- What a path leads to. -/
def lookUp (t : FileTree) (path : String) : Except FileError Content := do
  let p ← checkPath path
  let content ← t.expect (← t.follow (t.start p) p.names)
  if p.trailingSlash ∧ content ≠ .directory then .error .notADirectory
  else return content

/-- Whether a path leads to something. -/
def pathExists (t : FileTree) (path : String) : Bool := (t.lookUp path).isOk

/-- The text of a file. -/
def readText (t : FileTree) (path : String) : Except FileError String := do
  match ← t.lookUp path with
  | .directory => .error .isADirectory
  | .text s => return s
  | .binary _ => .error .notText
  | .nullDevice => return ""
  | .fullDevice => .error .outOfMemory

/-! ## Writing -/

/-- The place where a file can be created or replaced.  A path that can only be
that of a directory is refused before its last name is looked at. -/
def target (t : FileTree) (path : String) : Except FileError Place := do
  let p ← checkPath path
  match p.names.getLast? with
  | none => .error .isADirectory
  | some last => do
      let parent ← t.follow (t.start p) p.names.dropLast
      t.checkDirectory parent
      if p.trailingSlash ∨ last = "." ∨ last = ".." then .error .isADirectory
      else do
        let place ← t.step parent last
        if t.get? place = some .directory then .error .isADirectory
        else return place

/-- Write a text to what is found in a place that is no directory. -/
def writeAt (t : FileTree) (place : Place) (text : String) : Except FileError FileTree :=
  match t.get? place with
  | some .nullDevice => .error .invalidArgument
  | some .fullDevice => .error (if text = "" then .invalidArgument else .noSpace)
  | _ => .ok (t.put place (.text text))

/-- Create or replace a file, and make sure that it is stored. -/
def writeText (t : FileTree) (path text : String) : Except FileError FileTree := do
  let place ← t.target path
  t.writeAt place text

/-! ## Differences -/

/-- The place as a path below the working directory, if it is there. -/
def relative? (t : FileTree) (place : Place) : Option String :=
  if t.working.isPrefixOf place then
    some (String.intercalate "/" (place.drop t.working.length))
  else none

/-- The files below the working directory of `after` that `before` does not hold
with this content. -/
def changes (before after : FileTree) : List (String × Content) :=
  after.entries.filterMap fun e =>
    if e.2.isFile ∧ before.get? e.1 ≠ some e.2 then
      (after.relative? e.1).map fun path => (path, e.2)
    else none

end FileTree

end DualRail.Files
