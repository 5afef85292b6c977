import Wiring.Text.Words

/-!
# Formats of log output
-/

namespace Wiring

/-- How log output is written. -/
inductive LogFormat where
  | text
  | tree
  | json
  deriving DecidableEq

/-- The name of a format. -/
def LogFormat.name : LogFormat → String
  | text => "Text"
  | tree => "Tree"
  | json => "Json"

/-- The format that a word asks for; an unknown word asks for text. -/
def LogFormat.parse (value : String) : LogFormat :=
  let word := Text.word value
  if word = "tree" then .tree
  else if word = "json" then .json
  else .text

end Wiring
