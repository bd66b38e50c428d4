/-
  Quoted text, for messages.

  A text is shown between double quotes.  Quotes and backslashes are escaped, so
  are the line feed, the carriage return, the tab and the zero character, and
  every other character that would not be seen is replaced by its number.
-/
import DualRail.Text.Unprintable

set_option autoImplicit false

namespace DualRail.Text

/-- The hexadecimal digits of a number, in lower case. -/
def hex (n : Nat) : String := String.ofList (Nat.toDigits 16 n)

/-- The number of a character, in the place of the character. -/
def numbered (c : Char) : String := "\\u\x7b" ++ hex c.toNat ++ "\x7d"

/-- How a character is shown between quotes. -/
def quotedChar (c : Char) : String :=
  if c = '"' then "\\\""
  else if c = '\\' then "\\\\"
  else if c = '\n' then "\\n"
  else if c = '\r' then "\\r"
  else if c = '\t' then "\\t"
  else if c.toNat = 0 then "\\0"
  else if isUnprintable c then numbered c
  else c.toString

/-- A text between quotes. -/
def quoted (s : String) : String := "\"" ++ String.join (s.toList.map quotedChar) ++ "\""

/-- A text between backticks, as names and numbers are shown. -/
def ticked (s : String) : String := "`" ++ s ++ "`"

end DualRail.Text
