import Wiring.Registry

/-!
# Type parameters that stay unbound

A type parameter that nothing binds is erased to a star projection.
-/

namespace Wiring
namespace Registry

variable (R : Registry)

mutual

/-- Whether a type mentions a type parameter outside star projections. -/
def mentionsParameter : Ty → Bool
  | ⟨c, arguments, _, _, s⟩ =>
      !s && (R.isTypeParameter c || mentionsParameterAll arguments)

/-- Whether some type of a list mentions a type parameter. -/
def mentionsParameterAll : List Ty → Bool
  | [] => false
  | t :: ts => mentionsParameter t || mentionsParameterAll ts

end

mutual

/-- Replace every type parameter by a star projection. -/
def erase : Ty → Ty
  | ⟨c, arguments, q, n, s⟩ =>
      if s then ⟨c, arguments, q, n, s⟩
      else if R.isTypeParameter c then .starProjection
      else ⟨c, eraseAll arguments, q, n, s⟩

/-- Replace every type parameter by a star projection, in each type of a list. -/
def eraseAll : List Ty → List Ty
  | [] => []
  | t :: ts => erase t :: eraseAll ts

end

@[simp] theorem eraseAll_eq_map (ts : List Ty) :
    eraseAll R ts = ts.map (erase R) := by
  induction ts with
  | nil => rfl
  | cons t ts ih => simp [eraseAll, ih]

mutual

/-- A type without type parameters is not changed by erasure. -/
theorem erase_eq_self :
    (t : Ty) → mentionsParameter R t = false → erase R t = t
  | ⟨c, arguments, q, n, s⟩, h => by
      cases s with
      | true => simp [erase]
      | false =>
          simp only [mentionsParameter, Bool.not_false, Bool.true_and,
            Bool.or_eq_false_iff] at h
          have hs : eraseAll R arguments = arguments := eraseAll_eq_self arguments h.2
          simp only [erase, Bool.false_eq_true, if_false, h.1]
          rw [hs]

/-- A list without type parameters is not changed by erasure. -/
theorem eraseAll_eq_self :
    (ts : List Ty) → mentionsParameterAll R ts = false → eraseAll R ts = ts
  | [], _ => rfl
  | t :: ts, h => by
      simp only [mentionsParameterAll, Bool.or_eq_false_iff] at h
      simp only [eraseAll]
      rw [erase_eq_self t h.1, eraseAll_eq_self ts h.2]

end

end Registry
end Wiring
