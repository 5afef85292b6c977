/-!
# Documents in JSON

The documents that plans and diagnostics are exported as, and their text:
members in the order given, one element a line, two spaces a level.
-/

namespace Wiring

/-- A document.  Only whole numbers occur. -/
inductive Json where
  | null
  | bool (value : Bool)
  | number (value : Nat)
  | string (value : String)
  | array (elements : List Json)
  | object (members : List (String × Json))
  deriving Inhabited

namespace Json

/-- An absent value is written as null. -/
def ofOption {α : Type} (encode : α → Json) : Option α → Json
  | none => null
  | some a => encode a

/-- A list is written as an array. -/
def ofList {α : Type} (encode : α → Json) (as : List α) : Json :=
  array (as.map encode)

/-- A value with a tag in front of it. -/
def tagged (tag : String) (members : List (String × Json)) : Json :=
  object [(tag, object members)]

end Json
end Wiring
