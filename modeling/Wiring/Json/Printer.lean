import Wiring.Json

/-!
# The text of a document

Strings are written in double quotes.  Quotes, backslashes and control
characters are escaped, with the short form where there is one; every other
character stands for itself.  Empty arrays and objects are written without a
line break.
-/

namespace Wiring
namespace Json

/-- A hexadecimal digit in lower case. -/
def hexDigit (n : Nat) : Char :=
  if n < 10 then Char.ofNat ('0'.toNat + n) else Char.ofNat ('a'.toNat + (n - 10))

/-- How a character is written inside a string. -/
def escapeChar (c : Char) : List Char :=
  if c = '"' then ['\\', '"']
  else if c = '\\' then ['\\', '\\']
  else if c = '\x08' then ['\\', 'b']
  else if c = '\t' then ['\\', 't']
  else if c = '\n' then ['\\', 'n']
  else if c = '\x0c' then ['\\', 'f']
  else if c = '\r' then ['\\', 'r']
  else if c.toNat < 32 then
    ['\\', 'u', '0', '0', hexDigit (c.toNat / 16), hexDigit (c.toNat % 16)]
  else [c]

/-- A string in quotes. -/
def quote (s : String) : String :=
  String.ofList ('"' :: s.toList.flatMap escapeChar ++ ['"'])

/-- A line break and the indentation of a level. -/
def newline (level : Nat) : String :=
  String.ofList ('\n' :: List.replicate (2 * level) ' ')

/-- Written items between brackets, one a line, at a level. -/
def bracket (opening closing : String) (level : Nat) (items : List String) : String :=
  if items.isEmpty then opening ++ closing
  else
    opening ++ newline (level + 1)
      ++ ("," ++ newline (level + 1)).intercalate items
      ++ newline level ++ closing

mutual

/-- The text of a document at a level of indentation. -/
def renderAt (level : Nat) : Json → String
  | null => "null"
  | bool b => if b then "true" else "false"
  | number n => toString n
  | string s => quote s
  | array elements => bracket "[" "]" level (renderElements (level + 1) elements)
  | object members =>
      bracket "\x7b" "\x7d" level (renderMembers (level + 1) members)

/-- The texts of array elements. -/
def renderElements (level : Nat) : List Json → List String
  | [] => []
  | e :: es => renderAt level e :: renderElements level es

/-- The texts of object members. -/
def renderMembers (level : Nat) : List (String × Json) → List String
  | [] => []
  | (key, value) :: rest =>
      (quote key ++ ": " ++ renderAt level value) :: renderMembers level rest

end

/-- The text of a document. -/
def render (j : Json) : String := renderAt 0 j

end Json
end Wiring
