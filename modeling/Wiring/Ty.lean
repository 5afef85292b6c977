import Wiring.QualifierSet

/-!
# Types as injection keys

A type is a classifier applied to type arguments, with a set of qualifiers, a
nullability mark and a star mark.  Two types are the same key exactly when all
five parts are equal, so a star projection is never equal to the argument it
stands for.

A function type is one of the built-in function classifiers applied to its
parameter types followed by its return type.
-/

namespace Wiring

/-- A concrete or partially applied type. -/
structure Ty where
  classifier : ClassifierId
  arguments : List Ty := []
  qualifiers : QualifierSet := ∅
  nullable : Bool := false
  star : Bool := false
  deriving Inhabited

namespace Ty

mutual

/-- Equality of types is decided part by part. -/
def decEq : (a b : Ty) → Decidable (a = b)
  | ⟨c, as, q, n, s⟩, ⟨c', as', q', n', s'⟩ =>
      if h : c = c' ∧ n = n' ∧ s = s' ∧ q = q' then
        match decEqList as as' with
        | isTrue h' =>
            isTrue (by obtain ⟨rfl, rfl, rfl, rfl⟩ := h; subst h'; rfl)
        | isFalse h' =>
            isFalse (fun e => h' (by injection e))
      else
        isFalse (fun e => h (by
          injection e with h₁ _ h₂ h₃ h₄
          exact ⟨h₁, h₃, h₄, h₂⟩))

/-- Equality of type lists is decided element by element. -/
def decEqList : (as bs : List Ty) → Decidable (as = bs)
  | [], [] => isTrue rfl
  | [], _ :: _ => isFalse (fun e => by injection e)
  | _ :: _, [] => isFalse (fun e => by injection e)
  | a :: as, b :: bs =>
      match decEq a b with
      | isFalse h => isFalse (fun e => h (by injection e))
      | isTrue h =>
          match decEqList as bs with
          | isFalse h' => isFalse (fun e => h' (by injection e))
          | isTrue h' => isTrue (by subst h; subst h'; rfl)

end

instance : DecidableEq Ty := decEq

/-! ## Building types -/

/-- A classifier without arguments. -/
def of (c : ClassifierId) : Ty := { classifier := c }

/-- A classifier applied to arguments. -/
def generic (c : ClassifierId) (arguments : List Ty) : Ty :=
  { classifier := c, arguments := arguments }

/-- The projection `*`, which stands for any argument. -/
def starProjection : Ty := { classifier := .any, star := true }

/-- The type of functions of classifier `c` from `parameters` to `returns`. -/
def functionOf (c : ClassifierId) (parameters : List Ty) (returns : Ty) : Ty :=
  generic c (parameters ++ [returns])

/-- The type of plain functions. -/
def function (parameters : List Ty) (returns : Ty) : Ty :=
  functionOf .function parameters returns

/-- The type of sets of `element`. -/
def setOf (element : Ty) : Ty := generic .set [element]

/-- The type of maps from `key` to `value`. -/
def mapOf (key value : Ty) : Ty := generic .map [key, value]

/-- Add one qualifier. -/
def qualified (t : Ty) (q : QualifierId) : Ty :=
  { t with qualifiers := t.qualifiers ∪ .single q }

/-- The same type, nullable. -/
def markedNullable (t : Ty) : Ty := { t with nullable := true }

/-- The same type, not nullable. -/
def nonNull (t : Ty) : Ty := { t with nullable := false }

/-- The same type without its outermost qualifiers. -/
def unqualified (t : Ty) : Ty := { t with qualifiers := ∅ }

/-- The same type with other arguments. -/
def withArguments (t : Ty) (arguments : List Ty) : Ty :=
  { t with arguments := arguments }

/-! ## Looking into types -/

/-- Parameter types and return type of a function type. -/
def functionParts? (t : Ty) : Option (List Ty × Ty) :=
  if t.star || !t.classifier.isFunction then none
  else t.arguments.getLast?.map (fun returns => (t.arguments.dropLast, returns))

/-- Whether the type is a function type: a function classifier with at least a
return type. -/
def isFunctionType (t : Ty) : Bool :=
  !t.star && t.classifier.isFunction && !t.arguments.isEmpty

/-- The element type of a set type. -/
def setElement? (t : Ty) : Option Ty :=
  if t.star || t.classifier ≠ .set then none
  else match t.arguments with
    | [element] => some element
    | _ => none

/-- The key and value types of a map type. -/
def mapParts? (t : Ty) : Option (Ty × Ty) :=
  if t.star || t.classifier ≠ .map then none
  else match t.arguments with
    | [key, value] => some (key, value)
    | _ => none

/-- Whether the type is a set of one element type. -/
def isSet (t : Ty) : Bool := t.setElement?.isSome

/-- Whether the type is a map from one key type to one value type. -/
def isMap (t : Ty) : Bool := t.mapParts?.isSome

@[simp] theorem nonNull_nonNull (t : Ty) : t.nonNull.nonNull = t.nonNull := rfl

@[simp] theorem functionParts?_functionOf
    (c : ClassifierId) (parameters : List Ty) (returns : Ty)
    (h : c.isFunction = true) :
    (functionOf c parameters returns).functionParts? =
      some (parameters, returns) := by
  simp [functionParts?, functionOf, generic, h]

theorem isSome_functionParts? (t : Ty) :
    t.functionParts?.isSome = t.isFunctionType := by
  cases hs : t.star <;> cases hc : t.classifier.isFunction <;>
    cases ha : t.arguments <;>
    simp [functionParts?, isFunctionType, hs, hc, ha]

end Ty
end Wiring
