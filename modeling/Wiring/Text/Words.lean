/-!
# Words in settings

Words such as `true` or `json` are recognized in any letter case and with blank
space around them.
-/

namespace Wiring
namespace Text

/-- Whether a character is blank, in the sense of the character property of that
name. -/
def isBlank (c : Char) : Bool :=
  let n := c.toNat
  (9 ≤ n && n ≤ 13) || n == 0x20 || n == 0x85 || n == 0xA0 || n == 0x1680
    || (0x2000 ≤ n && n ≤ 0x200A) || n == 0x2028 || n == 0x2029 || n == 0x202F
    || n == 0x205F || n == 0x3000

/-- A text without blank characters at either end. -/
def trim (cs : List Char) : List Char :=
  ((cs.dropWhile isBlank).reverse.dropWhile isBlank).reverse

/-- A text as a word: without blank space around it and with the letters of the
Latin alphabet in lower case.  No other character has one of the letters of a
recognized word as its lower case, so nothing else needs to be mapped. -/
def word (s : String) : String :=
  String.ofList ((trim s.toList).map Char.toLower)

end Text
end Wiring
