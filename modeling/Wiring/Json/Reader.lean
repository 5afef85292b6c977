/-!
# Reading JSON

A text is read as a tree.  The tree keeps what matters to whoever interprets it:

* a number is kept if it is a whole number without a sign, a fraction or an
  exponent,
* a string is kept if it has no lone surrogate among its escapes; one that has is
  well formed, but is not a text.

Members keep their order, and a repeated key is kept as often as it occurs.
-/

namespace Wiring
namespace Json

/-- A text that was read. -/
inductive Tree where
  | null
  | bool (value : Bool)
  | number (whole : Option Nat)
  | string (text : Option String)
  | array (elements : List Tree)
  | object (members : List (Option String × Tree))

namespace Reader

/-- The outcome of reading something at the front of a text. -/
abbrev Reading (α : Type) := Option (α × List Char)

/-- Whether a character may stand between tokens. -/
def isSpace (c : Char) : Bool :=
  c = ' ' || c = '\n' || c = '\t' || c = '\r'

/-- A text without the space in front of it. -/
def skipSpace (cs : List Char) : List Char := cs.dropWhile isSpace

/-- A text without the word in front of it. -/
def skipWord (word : List Char) (cs : List Char) : Option (List Char) :=
  if word.isPrefixOf cs then some (cs.drop word.length) else none

/-! ## Strings -/

/-- A character of a string, or a unit given by number that may be one half of a
surrogate pair. -/
inductive Piece where
  | char (c : Char)
  | unit (n : Nat)

/-- The value of a hexadecimal digit. -/
def hexValue? (c : Char) : Option Nat :=
  if c.isDigit then some (c.toNat - '0'.toNat)
  else if 'a' ≤ c && c ≤ 'f' then some (c.toNat - 'a'.toNat + 10)
  else if 'A' ≤ c && c ≤ 'F' then some (c.toNat - 'A'.toNat + 10)
  else none

/-- The unit that four hexadecimal digits give. -/
def unit? (a b c d : Char) : Option Nat :=
  [a, b, c, d].foldlM (fun n digit => (hexValue? digit).map (n * 16 + ·)) 0

/-- What a short escape stands for. -/
def escaped? (c : Char) : Option Char :=
  if c = '"' || c = '\\' || c = '/' then some c
  else if c = 'b' then some '\x08'
  else if c = 'f' then some '\x0c'
  else if c = 'n' then some '\n'
  else if c = 'r' then some '\r'
  else if c = 't' then some '\t'
  else none

/-- Read a string from behind its opening quote. -/
def stringBody : List Char → Reading (List Piece)
  | [] => none
  | '"' :: rest => some ([], rest)
  | '\\' :: 'u' :: a :: b :: c :: d :: rest =>
      match unit? a b c d, stringBody rest with
      | some n, some (pieces, rest) => some (.unit n :: pieces, rest)
      | _, _ => none
  | '\\' :: c :: rest =>
      match escaped? c, stringBody rest with
      | some c, some (pieces, rest) => some (.char c :: pieces, rest)
      | _, _ => none
  | c :: rest =>
      if c.toNat < 32 || c = '\\' then none
      else
        match stringBody rest with
        | some (pieces, rest) => some (.char c :: pieces, rest)
        | none => none

/-- Whether a unit is the first half of a surrogate pair. -/
def isHigh (n : Nat) : Bool := 0xD800 ≤ n && n ≤ 0xDBFF

/-- Whether a unit is the second half of a surrogate pair. -/
def isLow (n : Nat) : Bool := 0xDC00 ≤ n && n ≤ 0xDFFF

/-- The text of a string, unless it has a lone surrogate. -/
def decode? : List Piece → Option (List Char)
  | [] => some []
  | .char c :: rest => (decode? rest).map (c :: ·)
  | .unit h :: .unit l :: rest =>
      if isHigh h then
        if isLow l then
          (decode? rest).map
            (Char.ofNat (0x10000 + (h - 0xD800) * 0x400 + (l - 0xDC00)) :: ·)
        else none
      else if isLow h then none
      else (decode? (.unit l :: rest)).map (Char.ofNat h :: ·)
  | .unit n :: rest =>
      if isHigh n || isLow n then none else (decode? rest).map (Char.ofNat n :: ·)

/-- Read a string from behind its opening quote, as a text if it is one. -/
def string (cs : List Char) : Reading (Option String) :=
  (stringBody cs).map (fun r => ((decode? r.1).map String.ofList, r.2))

/-! ## Numbers -/

/-- Read at least one digit. -/
def digits (cs : List Char) : Reading (List Char) :=
  match cs.takeWhile Char.isDigit with
  | [] => none
  | ds => some (ds, cs.dropWhile Char.isDigit)

/-- Read the whole part of a number: a zero, or digits that do not start with
one. -/
def wholePart (cs : List Char) : Reading (List Char) :=
  match digits cs with
  | some ('0' :: _ :: _, _) => none
  | r => r

/-- Read a fraction, if there is one; tells whether there is. -/
def fraction : List Char → Reading Bool
  | '.' :: rest => (digits rest).map (fun r => (true, r.2))
  | cs => some (false, cs)

/-- A text without the sign in front of it. -/
def skipSign : List Char → List Char
  | '+' :: rest => rest
  | '-' :: rest => rest
  | cs => cs

/-- Read an exponent, if there is one; tells whether there is. -/
def exponent : List Char → Reading Bool
  | c :: rest =>
      if c = 'e' || c = 'E' then (digits (skipSign rest)).map (fun r => (true, r.2))
      else some (false, c :: rest)
  | [] => some (false, [])

/-- Read a number. -/
def number (cs : List Char) : Option (Tree × List Char) := do
  let negative := cs.head? == some '-'
  let (whole, cs) ← wholePart (if negative then cs.tail else cs)
  let (fractional, cs) ← fraction cs
  let (exponential, cs) ← exponent cs
  let value := whole.foldl (fun n c => n * 10 + (c.toNat - '0'.toNat)) 0
  let kept := if negative || fractional || exponential then none else some value
  pure (.number kept, cs)

/-! ## Values -/

mutual

/-- Read a value, with at most `fuel` nested calls. -/
def value : (fuel : Nat) → List Char → Reading Tree
  | 0, _ => none
  | fuel + 1, cs =>
      match skipSpace cs with
      | '"' :: rest => (string rest).map (fun r => (.string r.1, r.2))
      | '[' :: rest =>
          match skipSpace rest with
          | ']' :: rest => some (.array [], rest)
          | rest => (elements fuel rest).map (fun r => (.array r.1, r.2))
      | '\x7b' :: rest =>
          match skipSpace rest with
          | '\x7d' :: rest => some (.object [], rest)
          | rest => (members fuel rest).map (fun r => (.object r.1, r.2))
      | 'n' :: rest => (skipWord "ull".toList rest).map (fun r => (.null, r))
      | 't' :: rest => (skipWord "rue".toList rest).map (fun r => (.bool true, r))
      | 'f' :: rest => (skipWord "alse".toList rest).map (fun r => (.bool false, r))
      | rest => number rest

/-- Read the elements of an array and its closing bracket. -/
def elements : (fuel : Nat) → List Char → Reading (List Tree)
  | 0, _ => none
  | fuel + 1, cs =>
      match value fuel cs with
      | none => none
      | some (first, rest) =>
          match skipSpace rest with
          | ']' :: rest => some ([first], rest)
          | ',' :: rest => (elements fuel rest).map (fun r => (first :: r.1, r.2))
          | _ => none

/-- Read the members of an object and its closing bracket. -/
def members : (fuel : Nat) → List Char → Reading (List (Option String × Tree))
  | 0, _ => none
  | fuel + 1, cs =>
      match skipSpace cs with
      | '"' :: rest =>
          match string rest with
          | none => none
          | some (key, rest) =>
              match skipSpace rest with
              | ':' :: rest =>
                  match value fuel rest with
                  | none => none
                  | some (first, rest) =>
                      match skipSpace rest with
                      | '\x7d' :: rest => some ([(key, first)], rest)
                      | ',' :: rest =>
                          (members fuel rest).map (fun r => ((key, first) :: r.1, r.2))
                      | _ => none
              | _ => none
      | _ => none

end

end Reader

/-- Read a whole text.  Every nested call follows a character that is read, or is
the one call that an element needs, so twice the length is fuel enough. -/
def Tree.read? (text : String) : Option Tree :=
  let cs := text.toList
  match Reader.value (2 * cs.length + 2) cs with
  | some (tree, rest) => if (Reader.skipSpace rest).isEmpty then some tree else none
  | none => none

end Json
end Wiring
