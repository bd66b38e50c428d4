/-
  JSON values as they are read and written.

  A text is read from left to right, and a fault of a value that stands early in
  the text counts before a fault of form later in it.  So reading a text always
  gives a value: where the text stops being JSON, the value is `broken`, and the
  arrays and objects around that place are not closed.  Whoever goes through
  such a value in the order of the text meets the faults in that order.

  The reader is a machine that takes one token at a time and keeps the arrays and
  objects that are still open.  The writer puts no blanks anywhere.
-/
import DualRail.Json.Token

set_option autoImplicit false

namespace DualRail.Json

/-- A JSON value, as far as the text holds one. -/
inductive Value
  /-- The text stops being JSON here. -/
  | broken
  | null
  | bool (b : Bool)
  | number (n : Numeral)
  | string (units : List StringUnit)
  | array (items : List Value) (closed : Bool)
  | object (members : List (List StringUnit × Value)) (closed : Bool)
deriving Inhabited

/-- The members of an object: keys and values. -/
abbrev Members := List (List StringUnit × Value)

namespace Value

/-- A text as a value. -/
def ofString (s : String) : Value := .string (s.toList.map .char)

/-- A natural number as a value. -/
def ofNat (n : Nat) : Value := .number (.ofNat n)

/-- A list of values as one value. -/
def list (items : List Value) : Value := .array items true

/-- Named values as one value. -/
def record (members : List (String × Value)) : Value :=
  .object (members.map fun m => (m.1.toList.map .char, m.2)) true

/-! ## Whole values -/

mutual

/-- Whether a value has no broken part. -/
def isWhole : Value → Bool
  | .broken => false
  | .null | .bool _ | .number _ | .string _ => true
  | .array items closed => itemsWhole items && closed
  | .object members closed => membersWhole members && closed

/-- Whether no item has a broken part. -/
def itemsWhole : List Value → Bool
  | [] => true
  | v :: rest => isWhole v && itemsWhole rest

/-- Whether no member has a broken part. -/
def membersWhole : List (List StringUnit × Value) → Bool
  | [] => true
  | (_, v) :: rest => isWhole v && membersWhole rest

end

/-! ## Writing -/

/-- A code as an escape of four hexadecimal digits. -/
def writeCode (code : Nat) : List Char :=
  let digits := Nat.toDigits 16 code
  '\\' :: 'u' :: (List.replicate (4 - digits.length) '0' ++ digits)

/-- A unit of a string between quotes: quotes, backslashes and characters below
the blank are escaped. -/
def writeUnit : StringUnit → List Char
  | .half code => writeCode code
  | .char c =>
      if c = '"' then ['\\', '"']
      else if c = '\\' then ['\\', '\\']
      else if c = '\x08' then ['\\', 'b']
      else if c = '\x0c' then ['\\', 'f']
      else if c = '\n' then ['\\', 'n']
      else if c = '\r' then ['\\', 'r']
      else if c = '\t' then ['\\', 't']
      else if c.toNat < 0x20 then writeCode c.toNat
      else [c]

/-- A string with its quotes. -/
def writeString (units : List StringUnit) : List Char :=
  '"' :: (units.flatMap writeUnit ++ ['"'])

/-- A number literal. -/
def writeNumeral (n : Numeral) : List Char :=
  (if n.negative then ['-'] else []) ++ n.whole ++
    (if n.fraction.isEmpty then [] else '.' :: n.fraction) ++
    (match n.exponent with
      | none => []
      | some (negative, digits) => 'e' :: ((if negative then ['-'] else []) ++ digits))

mutual

/-- The text of a value, without blanks.  A broken part has no text. -/
def write : Value → List Char
  | .broken => []
  | .null => "null".toList
  | .bool b => if b then "true".toList else "false".toList
  | .number n => writeNumeral n
  | .string units => writeString units
  | .array items _ => '[' :: (writeItems items ++ [']'])
  | .object members _ => '\x7b' :: (writeMembers members ++ ['\x7d'])

/-- Items with commas between them. -/
def writeItems : List Value → List Char
  | [] => []
  | v :: rest => write v ++ writeMoreItems rest

/-- Items with a comma before each. -/
def writeMoreItems : List Value → List Char
  | [] => []
  | v :: rest => ',' :: (write v ++ writeMoreItems rest)

/-- Members with commas between them. -/
def writeMembers : List (List StringUnit × Value) → List Char
  | [] => []
  | (key, v) :: rest => writeString key ++ ':' :: (write v ++ writeMoreMembers rest)

/-- Members with a comma before each. -/
def writeMoreMembers : List (List StringUnit × Value) → List Char
  | [] => []
  | (key, v) :: rest => ',' :: (writeString key ++ ':' :: (write v ++ writeMoreMembers rest))

end

/-- The text of a value. -/
def text (v : Value) : String := String.ofList v.write

end Value

/-! ## Reading -/

/-- An array or an object that is still open, with what it holds so far, the
latest first.  In an object the value of `key` is being read. -/
inductive Frame
  | items (done : List Value)
  | members (done : Members) (key : List StringUnit)

/-- Where the reader stands. -/
inductive Place
  /-- A value has to follow. -/
  | value
  /-- A value or the end of an array has to follow. -/
  | firstItem
  /-- A key has to follow; a first key may be missing. -/
  | key (done : Members) (first : Bool)
  /-- A colon has to follow. -/
  | colon (done : Members) (key : List StringUnit)
  /-- A value has just ended. -/
  | ended (v : Value)

/-- The outermost value, when everything that is open ends with `v` and stays
open. -/
def breakOff (v : Value) : List Frame → Value
  | [] => v
  | .items done :: frames => breakOff (.array (v :: done).reverse false) frames
  | .members done key :: frames => breakOff (.object ((key, v) :: done).reverse false) frames

/-- The outermost value, when the text ends or breaks in this place. -/
def breakAt : Place → List Frame → Value
  | .value, frames => breakOff .broken frames
  | .firstItem, frames => breakOff .broken frames
  | .key done _, frames => breakOff (.object done.reverse false) frames
  | .colon done key, frames => breakOff (.object ((key, .broken) :: done).reverse false) frames
  | .ended v, [] => v
  | .ended v, .items done :: frames => breakOff (.array (v :: done).reverse false) frames
  | .ended v, .members done key :: frames =>
      breakOff (.object ((key, v) :: done).reverse false) frames

/-- Take a token where a value has to follow; `none` if none starts with it. -/
def takeValue (frames : List Frame) : Token → Option (Place × List Frame)
  | .null => some (.ended .null, frames)
  | .bool b => some (.ended (.bool b), frames)
  | .number n => some (.ended (.number n), frames)
  | .string units => some (.ended (.string units), frames)
  | .beginArray => some (.firstItem, .items [] :: frames)
  | .beginObject => some (.key [] true, frames)
  | _ => none

/-- Take a token after a value that has ended inside an open array or object. -/
def takeAfter (v : Value) : List Frame → Token → Option (Place × List Frame)
  | .items done :: frames, .comma => some (.value, .items (v :: done) :: frames)
  | .items done :: frames, .endArray => some (.ended (.array (v :: done).reverse true), frames)
  | .members done key :: frames, .comma => some (.key ((key, v) :: done) false, frames)
  | .members done key :: frames, .endObject =>
      some (.ended (.object ((key, v) :: done).reverse true), frames)
  | _, _ => none

/-- Take a token; `none` if the text breaks with it. -/
def take : Place → List Frame → Token → Option (Place × List Frame)
  | .value, frames, t => takeValue frames t
  | .firstItem, .items _ :: frames, .endArray => some (.ended (.array [] true), frames)
  | .firstItem, frames, t => takeValue frames t
  | .key done _, frames, .string units => some (.colon done units, frames)
  | .key _ true, frames, .endObject => some (.ended (.object [] true), frames)
  | .key _ _, _, _ => none
  | .colon done key, frames, .colon => some (.value, .members done key :: frames)
  | .colon _ _, _, _ => none
  | .ended v, frames, t => takeAfter v frames t

/-- Read a value; the second result holds the tokens after it. -/
def run : Place → List Frame → List Token → Value × List Token
  | .ended v, [], ts => (v, ts)
  | place, frames, [] => (breakAt place frames, [])
  | place, frames, t :: ts =>
      match take place frames t with
      | some (place', frames') => run place' frames' ts
      | none => (breakAt place frames, [])

/-- The value at the start of a text, and the tokens after it. -/
def read (cs : List Char) : Value × List Token := run .value [] (tokens cs)

end DualRail.Json
