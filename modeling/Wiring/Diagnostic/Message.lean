/-!
# Diagnostic messages

Every message has a code and a template with numbered placeholders in braces.
A template is filled from left to right of the argument list: each argument
replaces all placeholders of its number in the text obtained so far.
-/

namespace Wiring

/-- How serious a diagnostic is. -/
inductive Category where
  | warning
  | error
  | suggestion
  | message
  deriving DecidableEq

namespace Message

/-- Replace every occurrence of `pattern`, from left to right and without
overlaps, after `skip` more characters are passed over. -/
def replaceFrom (pattern replacement : List Char) : Nat → List Char → List Char
  | _, [] => []
  | skip + 1, _ :: cs => replaceFrom pattern replacement skip cs
  | 0, c :: cs =>
      if pattern.isPrefixOf (c :: cs) then
        replacement ++ replaceFrom pattern replacement (pattern.length - 1) cs
      else c :: replaceFrom pattern replacement 0 cs

/-- The placeholder with a number. -/
def placeholder (index : Nat) : List Char :=
  '\x7b' :: (toString index).toList ++ ['\x7d']

/-- Fill the placeholders from `index` on. -/
def fillFrom (text : List Char) (index : Nat) : List String → List Char
  | [] => text
  | argument :: rest =>
      fillFrom (replaceFrom (placeholder index) argument.toList 0 text) (index + 1) rest

/-- Fill a template with arguments. -/
def fill (template : String) (arguments : List String) : String :=
  String.ofList (fillFrom template.toList 0 arguments)

end Message

/-- A registered message. -/
structure Message where
  code : Nat
  category : Category
  template : String
  deriving DecidableEq

namespace Message

/-! ## Codes -/

def noBindingFound : Nat := 1001
def multipleBindingsFound : Nat := 1002
def circularDependency : Nat := 1003
def duplicateCollectionEntry : Nat := 1004
def overrideNotAllowed : Nat := 1005
def resolutionTooDeep : Nat := 1006
def unknownClassifier : Nat := 1007
def moduleIncludesItself : Nat := 1008
def stepBudgetExceeded : Nat := 1009
def requiredBy : Nat := 1101
def candidateDeclaredAt : Nat := 1102
def cycleMember : Nat := 1103

/-- All registered messages. -/
def table : List Message :=
  [⟨noBindingFound, .error, "No binding found for '\x7b0\x7d' in '\x7b1\x7d'."⟩,
    ⟨multipleBindingsFound, .error, "Multiple \x7b0\x7d bindings found for '\x7b1\x7d'."⟩,
    ⟨circularDependency, .error, "Circular dependency: \x7b0\x7d."⟩,
    ⟨duplicateCollectionEntry, .error, "Already declared \x7b0\x7d in '\x7b1\x7d'."⟩,
    ⟨overrideNotAllowed, .error,
      "Binding for '\x7b0\x7d' in '\x7b1\x7d' would override an existing binding without override intent."⟩,
    ⟨resolutionTooDeep, .error,
      "Resolution of '\x7b0\x7d' is excessively deep and possibly infinite."⟩,
    ⟨unknownClassifier, .error, "Unknown classifier '\x7b0\x7d'."⟩,
    ⟨moduleIncludesItself, .error, "Module '\x7b0\x7d' includes itself."⟩,
    ⟨stepBudgetExceeded, .error,
      "Resolution of '\x7b0\x7d' made more than \x7b1\x7d requests."⟩,
    ⟨requiredBy, .message, "'\x7b0\x7d' is required by '\x7b1\x7d'"⟩,
    ⟨candidateDeclaredAt, .message, "candidate declared at '\x7b0\x7d'"⟩,
    ⟨cycleMember, .message, "'\x7b0\x7d' is part of the cycle"⟩]

/-- The message registered under a code. -/
def find? (code : Nat) : Option Message :=
  table.find? (fun m => m.code = code)

/-- Fill the template of a code; the text is empty if the code is unknown. -/
def ofCode (code : Nat) (arguments : List String) : String :=
  match find? code with
  | some m => fill m.template arguments
  | none => ""

@[simp] theorem fill_nil (template : String) : fill template [] = template := by
  simp [fill, fillFrom]

end Message
end Wiring
