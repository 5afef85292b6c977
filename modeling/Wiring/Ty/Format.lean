import Wiring.Registry

/-!
# Types as text

A type is written with its qualifiers first, then its classifier with the
arguments in angle brackets, and a question mark if it is nullable.  A function
type is written as an arrow instead, in brackets where it is nullable.

How classifiers and qualifiers are written is a parameter: by name where a
registry knows one, or plainly as a number.
-/

namespace Wiring

/-- How classifiers and qualifiers are written. -/
structure Naming where
  classifier : ClassifierId → String
  qualifier : QualifierId → String

namespace Naming

/-- A number in place of an unknown name. -/
def numbered (index : Nat) : String := "#" ++ toString index

/-- Everything is written as a number. -/
def plain : Naming :=
  { classifier := fun c => numbered c.index
    qualifier := fun q => numbered q.index }

/-- Classifiers are written by full name and qualifiers by short name. -/
def ofRegistry (R : Registry) : Naming :=
  { classifier := fun c =>
      match R.name? c with
      | some name => name.text
      | none => numbered c.index
    qualifier := fun q =>
      match R.qualifierName? q with
      | some name => name.short
      | none => numbered q.index }

end Naming

namespace Ty

/-- The word in front of an arrow. -/
def arrowWord (c : ClassifierId) : String :=
  if c = .suspendFunction then "suspend "
  else if c = .composableFunction then "@Composable "
  else ""

/-- An arrow from the written parameters to the written return type. -/
def writeArrow (c : ClassifierId) (parameters : List String) (returns : String)
    (nullable : Bool) : String :=
  let arrow := "(" ++ ", ".intercalate parameters ++ ") -> " ++ returns
  arrowWord c ++ (if nullable then "(" ++ arrow ++ ")?" else arrow)

/-- A classifier applied to written arguments. -/
def writeApplication (head : String) (arguments : List String) (nullable : Bool) :
    String :=
  let brackets :=
    if arguments.isEmpty then "" else "<" ++ ", ".intercalate arguments ++ ">"
  head ++ brackets ++ (if nullable then "?" else "")

mutual

/-- The text of a type. -/
def format (N : Naming) : Ty → String
  | ⟨c, arguments, q, n, s⟩ =>
      if s then "*"
      else
        let qualifiers := String.join (q.ids.map (fun q => "@" ++ N.qualifier q ++ " "))
        let written := formatAll N arguments
        let body :=
          match c.isFunction, written.getLast? with
          | true, some returns => writeArrow c written.dropLast returns n
          | _, _ => writeApplication (N.classifier c) written n
        qualifiers ++ body

/-- The texts of several types. -/
def formatAll (N : Naming) : List Ty → List String
  | [] => []
  | t :: ts => format N t :: formatAll N ts

end

@[simp] theorem formatAll_eq_map (N : Naming) (ts : List Ty) :
    formatAll N ts = ts.map (format N) := by
  induction ts with
  | nil => rfl
  | cons t ts ih => simp [formatAll, ih]

end Ty
end Wiring
