import Wiring.Graph.Construction

/-!
# Narrowing of types

What narrowing a star-projected type by its dependencies can come to.

**Results.**
* `unifyWithin_star`: unification binds no parameter to a star projection.
* `refine_eq`: a narrowed type is the type itself or a more special one.
* `isFunctionType_refine`: narrowing keeps function types function types.
-/

namespace Wiring

/-- Whether no parameter is bound to a star projection. -/
def Substitution.Starless (σ : Substitution) : Prop :=
  ∀ b ∈ σ, b.2.star = false

namespace Registry

variable {R : Registry}

theorem bindParameter_all
    {Q : ClassifierId × Ty → Prop}
    {σ σ' : Substitution}
    {parameter : ClassifierId}
    {value : Ty}
    (hσ : ∀ b ∈ σ, Q b)
    (hvalue : Q (parameter, value))
    (h : bindParameter σ parameter value = some σ') :
    ∀ b ∈ σ', Q b := by
  unfold bindParameter at h
  split at h
  · split at h
    · cases h
      exact hσ
    · cases h
  · cases h
    intro b hb
    rcases List.mem_append.mp hb with hb | hb
    · exact hσ b hb
    · rw [List.mem_singleton.mp hb]
      exact hvalue

/-- What holds of every parameter with the part of a type that it stands for holds of all
bindings that unification makes. -/
theorem unifyWithin_all
    {Q : ClassifierId × Ty → Prop}
    (hvalue : ∀ concrete pattern : Ty, concrete.star = false →
      R.isTypeParameter pattern.classifier = true →
      Q (pattern.classifier, parameterValue concrete pattern))
    {levels : Nat}
    {concrete pattern : Ty}
    {σ σ' : Substitution}
    (hσ : ∀ b ∈ σ, Q b)
    (h : R.unifyWithin levels concrete pattern σ = some σ') :
    ∀ b ∈ σ', Q b := by
  induction levels generalizing concrete pattern σ σ' with
  | zero => cases h
  | succ levels ih =>
      unfold unifyWithin at h
      split at h
      · cases h
        exact hσ
      · split at h
        · rename_i hparameter
          split at h
          · cases h
            exact hσ
          · rename_i hstar
            split at h
            · exact bindParameter_all hσ (hvalue _ _ (by simpa using hstar) hparameter) h
            · cases h
        · split at h
          · cases h
          · split at h
            · cases h
            · split at h
              · rename_i view _ _
                generalize view.arguments.zip pattern.arguments = pairs at h
                induction pairs generalizing σ with
                | nil =>
                    cases h
                    exact hσ
                | cons p pairs ihpairs =>
                    rw [List.foldlM_cons] at h
                    obtain ⟨σ₁, h₁, h₂⟩ := Option.bind_eq_some_iff.mp h
                    exact ihpairs (ih hσ h₁) h₂
              · cases h

/-- Unification binds no parameter to a star projection. -/
theorem unifyWithin_star
    {levels : Nat}
    {concrete pattern : Ty}
    {σ σ' : Substitution}
    (hσ : σ.Starless)
    (h : R.unifyWithin levels concrete pattern σ = some σ') :
    σ'.Starless :=
  unifyWithin_all (fun _ _ hstar _ => hstar) hσ h

theorem insertNew_star
    {σ : Substitution}
    {parameter : ClassifierId}
    {value : Ty}
    (hσ : σ.Starless)
    (hvalue : value.star = false) :
    (σ.insertNew parameter value).Starless := by
  unfold Substitution.insertNew
  split
  · exact hσ
  · intro b hb
    rcases List.mem_append.mp hb with hb | hb
    · exact hσ b hb
    · rw [List.mem_singleton.mp hb]
      exact hvalue

/-- What dependencies say about type parameters is never a star projection. -/
theorem refinement_star
    (parameters : List Parameter)
    (types : List Ty) :
    (R.refinement parameters types).Starless := by
  unfold refinement
  refine List.foldlRecOn _ _ (fun b hb => nomatch hb) (fun σ hσ p _ => ?_)
  split
  · rename_i found hfound
    have hstarless : Substitution.Starless found :=
      unifyWithin_star (σ := []) (fun b hb => nomatch hb) hfound
    exact List.foldlRecOn _ _ hσ
      (fun σ hσ b hb => insertNew_star hσ (hstarless b hb))
  · exact hσ

/-- A starless substitution makes no star projection out of a type that is none. -/
theorem substitute_star
    {σ : Substitution}
    (hσ : σ.Starless)
    {t : Ty}
    (ht : t.star = false) :
    (t.substitute σ).star = false := by
  cases hfound : σ.lookup t.classifier with
  | some replacement =>
      rw [Ty.substitute_of_bound σ ht hfound]
      obtain ⟨before, after, rfl, -⟩ := List.lookup_eq_some_iff.mp hfound
      exact hσ (t.classifier, replacement) (by simp)
  | none =>
      rw [Ty.substitute_of_unbound σ ht hfound]
      exact ht

/-- Erasure makes star projections of type parameters only. -/
theorem erase_star
    {t : Ty}
    (ht : t.star = false)
    (herased : (R.erase t).star = true) :
    R.erase t = .starProjection := by
  obtain ⟨c, arguments, q, n, s⟩ := t
  cases ht
  simp only [erase, Bool.false_eq_true, if_false] at herased ⊢
  split at herased
  · rename_i hparameter
    rw [if_pos hparameter]
  · cases herased

/-! ## Narrowed types -/

/-- A narrowed type is the type itself or a more special one of fewer stars, made from
the declared type. -/
theorem refine_eq
    (declared : Declaration)
    (type : Ty)
    (dependencies : List Ty) :
    R.refine declared type dependencies = type
      ∨ ∃ erased, erased = R.erase (declared.type.substitute
          (R.refinement declared.resolvedParameters dependencies))
        ∧ R.refine declared type dependencies
          = { erased with qualifiers := type.qualifiers, nullable := type.nullable }
        ∧ type.generalizes (R.refine declared type dependencies) = true
        ∧ (R.refine declared type dependencies).starCount < type.starCount := by
  unfold refine
  dsimp only
  split
  · exact .inl rfl
  · split
    · rename_i hrefined
      obtain ⟨hcount, hgen⟩ := Bool.and_eq_true_iff.mp hrefined
      exact .inr ⟨_, rfl, rfl, hgen, by simpa using hcount⟩
    · exact .inl rfl

theorem length_of_generalizesAll
    {gs ts : List Ty}
    (h : Ty.generalizesAll gs ts = true) :
    gs.length = ts.length := by
  induction gs generalizing ts with
  | nil =>
      cases ts with
      | nil => rfl
      | cons t ts => cases h
  | cons g gs ih =>
      cases ts with
      | nil => cases h
      | cons t ts =>
          rw [Ty.generalizesAll, Bool.and_eq_true_iff] at h
          simp [ih h.2]

/-- Narrowing keeps function types function types. -/
theorem isFunctionType_refine
    {declared : Declaration}
    {type : Ty}
    (hstar : declared.type.star = true → type.star = true)
    (dependencies : List Ty)
    (h : type.isFunctionType = true) :
    (R.refine declared type dependencies).isFunctionType = true := by
  rcases refine_eq (R := R) declared type dependencies with heq | ⟨erased, herased, heq, hgen, -⟩
  · rw [heq]
    exact h
  · rw [heq] at hgen ⊢
    simp only [Ty.isFunctionType, Bool.and_eq_true, Bool.not_eq_true'] at h ⊢
    obtain ⟨⟨hs, hfunction⟩, harguments⟩ := h
    have hdeclared : declared.type.star = false := by
      cases hd : declared.type.star with
      | false => rfl
      | true => rw [hstar hd] at hs; cases hs
    obtain ⟨c, arguments, q, n, s⟩ := type
    dsimp only at hs hfunction harguments
    subst hs
    rw [Ty.generalizes] at hgen
    simp only [Bool.false_or, Bool.and_eq_true, decide_eq_true_eq] at hgen
    obtain ⟨⟨⟨hc, -⟩, -⟩, hall⟩ := hgen
    refine ⟨⟨?_, ?_⟩, ?_⟩
    · cases hstar' : erased.star with
      | false => rfl
      | true =>
          -- only a type parameter is erased to a star, and that is no function type
          have hproj := erase_star (R := R)
            (substitute_star (refinement_star declared.resolvedParameters dependencies)
              hdeclared) (herased ▸ hstar')
          rw [← herased] at hproj
          rw [hproj] at hc
          rw [hc] at hfunction
          cases hfunction
    · rw [← hc]
      exact hfunction
    · have hlength := length_of_generalizesAll hall
      cases harg : arguments with
      | nil => rw [harg] at harguments; cases harguments
      | cons a as =>
          rw [harg] at hlength
          cases herr : erased.arguments with
          | nil => rw [herr] at hlength; cases hlength
          | cons b bs => rfl

end Registry
end Wiring
