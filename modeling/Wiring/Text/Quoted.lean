import Wiring.Text.Shapeless

/-!
# Quoted texts

A text is quoted so that one sees what it consists of.  Quotes and backslashes get a
backslash in front, the usual control characters have short names, and other
characters without a shape of their own are written by number, in hexadecimal.
-/

namespace Wiring
namespace Text

/-- The short names of control characters. -/
def shortNames : List (Char × Char) :=
  [('\x00', '0'), ('\t', 't'), ('\n', 'n'), ('\r', 'r'), ('"', '"'), ('\\', '\\')]

/-- A character of a quoted text. -/
def quotedChar (c : Char) : List Char :=
  match shortNames.lookup c with
  | some name => ['\\', name]
  | none =>
      if isShapeless c then ['\\', 'u', '\x7b'] ++ Nat.toDigits 16 c.toNat ++ ['\x7d']
      else [c]

/-- A text in quotes. -/
def quoted (s : String) : String :=
  String.ofList ('"' :: s.toList.flatMap quotedChar ++ ['"'])

end Text
end Wiring
