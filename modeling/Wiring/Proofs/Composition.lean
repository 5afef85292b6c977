import Mathlib.Tactic.Common
import Wiring.Declaration

/-!
# Substitutions compose

Substituting twice is substituting once.  What the first substitution binds is bound to
what the second one makes of it, and what only the second binds stays as it is.

An occurrence that is replaced loses its own arguments, so it does not matter what the
second substitution would have made of them.  Its marks are added to those of the
replacement, which the second substitution may replace in its turn.  So the marks of three
types come together, in one order or the other, and it has to be the same set.  A star
projection is left alone both times, the one that an occurrence becomes as well.

**Results.**
* `Substitution.Composes.substitute`, `Declaration.substitute_andThen`: two substitutions in
  a row, of a type and of all types of a declaration.
* `Substitution.lookup_eq_of_substitute`: substitutions that do the same to every type bind
  the same.
* `Ty.substitute_substitute`: the composition of two substitutions is the only one that does
  to every type what the two do in a row.
-/

namespace Wiring

namespace Substitution

variable (σ τ : Substitution)

/-- First `σ` and then `τ`, as one substitution. -/
def andThen : Substitution :=
  σ.map (fun b => (b.1, b.2.substitute τ)) ++ τ.filter (fun b => !σ.binds b.1)

theorem lookup_map (f : Ty → Ty) (c : ClassifierId) :
    List.lookup c (σ.map (fun b => (b.1, f b.2))) = (σ.lookup c).map f := by
  induction σ with
  | nil => rfl
  | cons b σ ih =>
      rw [List.map_cons, List.lookup_cons, List.lookup_cons, ih]
      cases c == b.1 <;> rfl

/-- Whether a binding is left out may depend on the parameter only. -/
theorem lookup_filter (p : ClassifierId → Bool) (c : ClassifierId) :
    List.lookup c (σ.filter (fun b => p b.1)) = if p c then σ.lookup c else none := by
  induction σ with
  | nil => simp
  | cons b σ ih =>
      obtain ⟨d, v⟩ := b
      by_cases hc : c = d
      · subst hc
        cases hp : p c <;> simp [hp, ih]
      · have hne : (c == d) = false := beq_eq_false_iff_ne.mpr hc
        cases hp : p d <;> simp [List.lookup_cons, hp, hne, ih]

/-- Whether `μ` binds what `σ` binds, substituted by `τ`, and what only `τ` binds. -/
def Composes (μ : Substitution) : Prop :=
  ∀ c, μ.lookup c = ((σ.lookup c).map (Ty.substitute τ)).or (τ.lookup c)

theorem composes_andThen : Composes σ τ (σ.andThen τ) := by
  intro c
  unfold andThen
  rw [List.lookup_append, lookup_map, lookup_filter τ (fun c => !σ.binds c)]
  cases h : σ.lookup c with
  | some v => rfl
  | none => simp [binds, h]

theorem binds_andThen (c : ClassifierId) :
    (σ.andThen τ).binds c = (σ.binds c || τ.binds c) := by
  unfold binds
  rw [composes_andThen σ τ c]
  cases σ.lookup c <;> rfl

end Substitution

namespace Ty

/-! ## Occurrences that are replaced -/

/-- A replacement that is replaced in its turn. -/
theorem replacedBy_replacedBy (t u v : Ty) :
    (t.replacedBy u).replacedBy v = t.replacedBy (u.replacedBy v) := by
  simp only [replacedBy, QualifierSet.union_assoc, Bool.or_assoc]

/-- Substituting what an occurrence becomes is substituting the replacement. -/
theorem substitute_replacedBy (τ : Substitution) (t v : Ty) :
    (t.replacedBy v).substitute τ = t.replacedBy (v.substitute τ) := by
  cases hstar : v.star with
  | true => rw [substitute_of_star τ hstar, substitute_of_star τ (t := t.replacedBy v) hstar]
  | false =>
      cases h : τ.lookup v.classifier with
      | some w =>
          rw [substitute_of_bound τ hstar h,
            substitute_of_bound τ (t := t.replacedBy v) hstar h, replacedBy_replacedBy]
      | none =>
          rw [substitute_of_unbound τ hstar h,
            substitute_of_unbound τ (t := t.replacedBy v) hstar h]
          rfl

end Ty

/-! ## Two substitutions in a row -/

namespace Substitution

variable {σ τ μ : Substitution}

mutual

/-- A composition does to a type what two substitutions do in a row. -/
theorem Composes.substitute
    (h : Composes σ τ μ) :
    (t : Ty) → (t.substitute σ).substitute τ = t.substitute μ
  | ⟨c, arguments, q, n, s⟩ => by
      have hμ := h c
      cases s with
      | true => rfl
      | false =>
          cases hσ : σ.lookup c with
          | some v =>
              rw [hσ] at hμ
              rw [Ty.substitute_of_bound σ rfl hσ, Ty.substitute_of_bound μ rfl hμ,
                Ty.substitute_replacedBy]
          | none =>
              rw [hσ] at hμ
              rw [Ty.substitute_of_unbound σ rfl hσ]
              cases hτ : τ.lookup c with
              | some w =>
                  -- the arguments are lost, whatever `σ` made of them
                  rw [hτ] at hμ
                  rw [Ty.substitute_of_bound τ rfl hτ, Ty.substitute_of_bound μ rfl hμ]
                  rfl
              | none =>
                  rw [hτ] at hμ
                  rw [Ty.substitute_of_unbound τ rfl hτ, Ty.substitute_of_unbound μ rfl hμ]
                  dsimp only
                  rw [h.substituteAll arguments]

/-- The same for each type of a list. -/
theorem Composes.substituteAll
    (h : Composes σ τ μ) :
    (ts : List Ty) → Ty.substituteAll τ (Ty.substituteAll σ ts) = Ty.substituteAll μ ts
  | [] => rfl
  | t :: ts => by
      simp only [Ty.substituteAll]
      rw [h.substitute t, h.substituteAll ts]

end

/-- A parameter that is bound becomes the same with and without arguments, and one that is
not bound keeps them.  So both substitutions bind it if one does and they do the same. -/
theorem lookup_ne_none
    (h : ∀ t : Ty, t.substitute σ = t.substitute τ)
    {c : ClassifierId}
    {v : Ty}
    (hσ : σ.lookup c = some v) :
    τ.lookup c ≠ none := by
  intro hτ
  have hbare := h (.generic c [])
  have happlied := h (.generic c [.starProjection])
  rw [Ty.substitute_generic σ hσ, Ty.substitute_of_unbound τ rfl hτ] at hbare happlied
  cases hbare.symm.trans happlied

/-- Substitutions that do the same to every type bind the same. -/
theorem lookup_eq_of_substitute
    (h : ∀ t : Ty, t.substitute σ = t.substitute τ)
    (c : ClassifierId) :
    σ.lookup c = τ.lookup c := by
  cases hσ : σ.lookup c with
  | some v =>
      cases hτ : τ.lookup c with
      | some w =>
          have hsame := h (.generic c [])
          rw [Ty.substitute_generic σ hσ, Ty.substitute_generic τ hτ] at hsame
          rw [hsame]
      | none => exact absurd hτ (lookup_ne_none h hσ)
  | none =>
      cases hτ : τ.lookup c with
      | some w => exact absurd hσ (lookup_ne_none (fun t => (h t).symm) hτ)
      | none => rfl

end Substitution

/-- Two substitutions in a row do to all types of a declaration what their composition
does, and its type parameters are those that neither of them binds. -/
theorem Declaration.substitute_andThen
    (d : Declaration)
    (σ τ : Substitution) :
    (d.substitute σ).substitute τ = d.substitute (σ.andThen τ) := by
  have htype := (Substitution.composes_andThen σ τ).substitute
  have hbinds : ∀ c, (!τ.binds c && !σ.binds c) = !(σ.andThen τ).binds c := fun c => by
    rw [Substitution.binds_andThen, Bool.not_or, Bool.and_comm]
  simp only [Declaration.substitute, Declaration.mapTypes, List.map_map, Option.map_map,
    List.filter_filter, Function.comp_def, htype, hbinds]

/-- The composition of two substitutions does to every type what they do in a row, and
only substitutions that bind what it binds do. -/
theorem Ty.substitute_substitute (σ τ : Substitution) :
    Substitution.Composes σ τ (σ.andThen τ)
      ∧ ∀ μ, Substitution.Composes σ τ μ
        ↔ ∀ t : Ty, (t.substitute σ).substitute τ = t.substitute μ := by
  have hcomposes := Substitution.composes_andThen σ τ
  refine ⟨hcomposes, fun μ => ⟨fun h t => h.substitute t, fun h c => ?_⟩⟩
  have hsame : ∀ t : Ty, t.substitute μ = t.substitute (σ.andThen τ) := fun t =>
    (h t).symm.trans (hcomposes.substitute t)
  rw [Substitution.lookup_eq_of_substitute hsame c]
  exact hcomposes c

end Wiring
