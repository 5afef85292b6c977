import Wiring.Ty

/-!
# Choosing among candidates

One candidate is chosen without further checks.  Of several, the one whose
declared type is exactly the requested type is chosen, if there is exactly one
such candidate; otherwise the choice is ambiguous.
-/

namespace Wiring

/-- The outcome of choosing among candidates. -/
inductive Choice (α : Type) where
  | absent
  | chosen (a : α)
  | ambiguous (candidates : List α)
  deriving DecidableEq

/-- Choose the candidate that is most specific for a request. -/
def mostSpecific {α : Type} (rawType : α → Ty) (requested : Ty) (candidates : List α) :
    Choice α :=
  match candidates with
  | [] => .absent
  | [a] => .chosen a
  | several =>
      match several.filter (fun a => rawType a = requested) with
      | [a] => .chosen a
      | _ => .ambiguous several

@[simp] theorem mostSpecific_nil {α : Type} (rawType : α → Ty) (requested : Ty) :
    mostSpecific rawType requested [] = .absent := rfl

@[simp] theorem mostSpecific_singleton {α : Type} (rawType : α → Ty) (requested : Ty)
    (a : α) : mostSpecific rawType requested [a] = .chosen a := rfl

/-- What is chosen is one of the candidates. -/
theorem mem_of_mostSpecific_eq_chosen {α : Type} {rawType : α → Ty} {requested : Ty}
    {candidates : List α} {a : α}
    (h : mostSpecific rawType requested candidates = .chosen a) : a ∈ candidates := by
  unfold mostSpecific at h
  split at h
  · cases h
  · cases h
    exact List.mem_cons_self
  · split at h
    · rename_i b hb
      cases h
      exact (List.mem_filter.mp (hb ▸ List.mem_cons_self : a ∈ _)).1
    · cases h

end Wiring
