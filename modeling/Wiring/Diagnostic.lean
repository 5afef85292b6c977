import Wiring.Diagnostic.Message
import Wiring.Json.Printer

/-!
# Diagnostics

A diagnostic is what is reported to a person: a coded message about some origin,
with related places below it.
-/

namespace Wiring

/-- A place that a diagnostic points at besides its own. -/
structure RelatedPlace where
  origin : String
  text : String
  category : Category := .message
  code : Nat := 0
  deriving DecidableEq

/-- A coded message with related places. -/
structure Diagnostic where
  origin : String
  text : String
  category : Category := .error
  code : Nat
  related : List RelatedPlace := []
  deriving DecidableEq

namespace Category

/-- The name of a category in exported documents. -/
def name : Category → String
  | warning => "Warning"
  | error => "Error"
  | suggestion => "Suggestion"
  | message => "Message"

end Category

/-- One line of a rendered diagnostic, with the origin in brackets if known. -/
def RelatedPlace.line (r : RelatedPlace) : String :=
  "\n    " ++ r.text ++ (if r.origin = "" then "" else " (" ++ r.origin ++ ")")

/-- A related place as a document. -/
def RelatedPlace.toJson (r : RelatedPlace) : Json :=
  .object
    [("origin", .string r.origin), ("message_text", .string r.text),
      ("category", .string r.category.name), ("code", .number r.code)]

namespace Diagnostic

/-- Point at one more place. -/
def withRelated (d : Diagnostic) (origin text : String) : Diagnostic :=
  { d with related := d.related ++ [{ origin := origin, text := text }] }

/-- The diagnostic as it is shown: the message, then a line for each related
place. -/
def render (d : Diagnostic) : String :=
  "error G" ++ toString d.code ++ ": " ++ d.text
    ++ String.join (d.related.map RelatedPlace.line)

/-- A diagnostic as a document; an empty list of related places is left out. -/
def toJson (d : Diagnostic) : Json :=
  let related :=
    if d.related.isEmpty then []
    else [("related_information", Json.ofList RelatedPlace.toJson d.related)]
  .object
    ([("origin", .string d.origin), ("message_text", .string d.text),
      ("category", .string d.category.name), ("code", .number d.code)] ++ related)

/-- The text that a list of diagnostics is exported as. -/
def exportText (ds : List Diagnostic) : String :=
  (Json.ofList toJson ds).render

end Diagnostic
end Wiring
