import Mathlib.Data.List.Forall2
import Mathlib.Data.Option.Basic
import Wiring.Proofs.Assignability.Views
import Wiring.Relation.Assignability

/-!
# Rules of assignability

The test for assignability is bounded and goes through its cases in a fixed order.  Here
it is a relation between types, given by rules, each with the condition under which the
test gets to it.  Whatever the test accepts follows from the rules.

A rule sees the classifiers and arguments of two types and hardly anything of their marks:
only the bounds of a type parameter are compared with a target whose nullability still
counts.  This is why replacing type parameters by types that conform gives types that
conform, and why a view of a type conforms to the same view of a type above it.

**Results.**
* `conforms_of_assignableWithin`: what is assignable conforms.
* `conforms_substitute`: substitution is monotone.
* `Views.mono`: views are monotone.
-/

namespace Wiring
namespace Ty

/-- The same type with other qualifiers and another mark of nullability. -/
def marked (t : Ty) (q : QualifierSet) (n : Bool) : Ty :=
  { t with qualifiers := q, nullable := n }

@[simp] theorem marked_self (t : Ty) : t.marked t.qualifiers t.nullable = t := by
  cases t
  rfl

/-- Whether the marks of a type let it stand for another one. -/
structure MarksFit (source target : Ty) : Prop where
  star : source.star = false
  nullable : source.nullable = true → target.nullable = true
  qualifiers : source.qualifiers = target.qualifiers

theorem MarksFit.trans
    {a b c : Ty}
    (h₁ : a.MarksFit b)
    (h₂ : b.MarksFit c) :
    a.MarksFit c where
  star := h₁.star
  nullable := fun h => h₂.nullable (h₁.nullable h)
  qualifiers := h₁.qualifiers.trans h₂.qualifiers

end Ty

namespace Registry

variable {R : Registry} {conforms : Ty → Ty → Prop} {levels : Nat}
  {s t v : Ty} {q q' : QualifierSet} {n n' : Bool}

/-! ## The rules -/

/-- One rule of assignability, for types with fitting marks; `conforms` is what it asks of
their parts. -/
inductive Conformance
    (R : Registry)
    (conforms : Ty → Ty → Prop)
    (source target : Ty) : Prop
  | same :
      source.classifier = target.classifier →
      List.Forall₂ conforms source.arguments target.arguments →
      Conformance R conforms source target
  | sourceBound {bound : Ty} :
      source.classifier ≠ target.classifier →
      R.isTypeParameter source.classifier = true →
      bound ∈ R.upperBounds source.classifier →
      conforms bound target.unqualified →
      Conformance R conforms source target
  | targetBounds :
      source.classifier ≠ target.classifier →
      R.isTypeParameter source.classifier = false →
      R.isTypeParameter target.classifier = true →
      (∀ bound ∈ R.upperBounds target.classifier,
        conforms source.unqualified.nonNull bound) →
      Conformance R conforms source target
  | top :
      source.classifier ≠ target.classifier →
      R.isTypeParameter source.classifier = false →
      R.isTypeParameter target.classifier = false →
      target.classifier = .any →
      Conformance R conforms source target
  | view {v : Ty} :
      source.classifier ≠ target.classifier →
      R.isTypeParameter source.classifier = false →
      R.isTypeParameter target.classifier = false →
      target.classifier ≠ .any →
      R.Views source v →
      v.classifier = target.classifier →
      List.Forall₂ conforms v.arguments target.arguments →
      Conformance R conforms source target

/-- Whether a type conforms to another one by rules applied on at most `levels` levels. -/
def ConformsWithin (R : Registry) : (levels : Nat) → (source target : Ty) → Prop
  | 0, _, _ => False
  | levels + 1, source, target =>
      target.star = true
        ∨ source.MarksFit target ∧ R.Conformance (ConformsWithin R levels) source target

/-- Whether a type conforms to another one. -/
def Conforms (R : Registry) (source target : Ty) : Prop :=
  ∃ levels, R.ConformsWithin levels source target

theorem Conformance.mono
    {conforms' : Ty → Ty → Prop}
    (h : R.Conformance conforms s t)
    (himp : ∀ a b, conforms a b → conforms' a b) :
    R.Conformance conforms' s t := by
  cases h with
  | same heq harguments => exact .same heq (harguments.imp himp)
  | sourceBound hne hsource hbound hconforms =>
      exact .sourceBound hne hsource hbound (himp _ _ hconforms)
  | targetBounds hne hsource htarget hbounds =>
      exact .targetBounds hne hsource htarget fun bound hbound =>
        himp _ _ (hbounds bound hbound)
  | top hne hsource htarget hany => exact .top hne hsource htarget hany
  | view hne hsource htarget hany hviews heq harguments =>
      exact .view hne hsource htarget hany hviews heq (harguments.imp himp)

theorem ConformsWithin.succ
    (h : R.ConformsWithin levels s t) :
    R.ConformsWithin (levels + 1) s t := by
  induction levels generalizing s t with
  | zero => exact h.elim
  | succ levels ih => exact h.imp_right fun h => ⟨h.1, h.2.mono fun _ _ => ih⟩

theorem ConformsWithin.mono
    {levels' : Nat}
    (hle : levels ≤ levels')
    (h : R.ConformsWithin levels s t) :
    R.ConformsWithin levels' s t := by
  induction hle with
  | refl => exact h
  | step _ ih => exact ih.succ

/-- Finitely many comparisons have a common number of levels. -/
theorem exists_conformsWithin
    {pairs : List (Ty × Ty)}
    (h : ∀ p ∈ pairs, R.Conforms p.1 p.2) :
    ∃ levels, ∀ p ∈ pairs, R.ConformsWithin levels p.1 p.2 := by
  induction pairs with
  | nil => exact ⟨0, fun p hp => nomatch hp⟩
  | cons first rest ih =>
      obtain ⟨m, hm⟩ := h first List.mem_cons_self
      obtain ⟨k, hk⟩ := ih fun p hp => h p (List.mem_cons_of_mem _ hp)
      refine ⟨max m k, fun p hp => ?_⟩
      rcases List.mem_cons.mp hp with rfl | hp
      · exact hm.mono (Nat.le_max_left m k)
      · exact (hk p hp).mono (Nat.le_max_right m k)

theorem exists_forall₂_conformsWithin
    {ss ts : List Ty}
    (h : List.Forall₂ R.Conforms ss ts) :
    ∃ levels, List.Forall₂ (R.ConformsWithin levels) ss ts := by
  obtain ⟨hlength, hzip⟩ := List.forall₂_iff_zip.mp h
  obtain ⟨k, hk⟩ := exists_conformsWithin fun p hp => hzip (a := p.1) (b := p.2) hp
  exact ⟨k, List.forall₂_iff_zip.mpr ⟨hlength, fun hp => hk _ hp⟩⟩

/-- Conformance is a fixed point of the rules. -/
theorem conforms_iff :
    R.Conforms s t
      ↔ t.star = true ∨ s.MarksFit t ∧ R.Conformance R.Conforms s t := by
  constructor
  · rintro ⟨levels, h⟩
    cases levels with
    | zero => exact h.elim
    | succ levels => exact h.imp_right fun h => ⟨h.1, h.2.mono fun _ _ h => ⟨levels, h⟩⟩
  · rintro (hstar | ⟨hmarks, hrule⟩)
    · exact ⟨1, .inl hstar⟩
    · suffices h : ∃ levels, R.Conformance (R.ConformsWithin levels) s t by
        obtain ⟨levels, h⟩ := h
        exact ⟨levels + 1, .inr ⟨hmarks, h⟩⟩
      cases hrule with
      | same heq harguments =>
          obtain ⟨k, hk⟩ := exists_forall₂_conformsWithin harguments
          exact ⟨k, .same heq hk⟩
      | sourceBound hne hsource hbound hconforms =>
          obtain ⟨k, hk⟩ := hconforms
          exact ⟨k, .sourceBound hne hsource hbound hk⟩
      | targetBounds hne hsource htarget hbounds =>
          have hpairs : ∀ p ∈ (R.upperBounds t.classifier).map
              (fun bound => (s.unqualified.nonNull, bound)), R.Conforms p.1 p.2 := by
            simpa using hbounds
          obtain ⟨k, hk⟩ := exists_conformsWithin hpairs
          exact ⟨k, .targetBounds hne hsource htarget (by simpa using hk)⟩
      | top hne hsource htarget hany => exact ⟨0, .top hne hsource htarget hany⟩
      | view hne hsource htarget hany hviews heq harguments =>
          obtain ⟨k, hk⟩ := exists_forall₂_conformsWithin harguments
          exact ⟨k, .view hne hsource htarget hany hviews heq hk⟩

/-! ## The rules and the test -/

theorem allPairs_eq_true_iff
    {test : Ty → Ty → Bool}
    {ss ts : List Ty} :
    allPairs test ss ts = true ↔ List.Forall₂ (fun s t => test s t = true) ss ts := by
  simp [allPairs, List.forall₂_iff_zip]

/-- What passes the test follows from the rules. -/
theorem conformsWithin_of_assignableWithin
    (h : R.assignableWithin levels s t = true) :
    R.ConformsWithin levels s t := by
  induction levels generalizing s t with
  | zero => cases h
  | succ levels ih =>
      have hpairs : ∀ {ss ts : List Ty}, allPairs (R.assignableWithin levels) ss ts = true →
          List.Forall₂ (R.ConformsWithin levels) ss ts :=
        fun h => (allPairs_eq_true_iff.mp h).imp fun _ _ => ih
      unfold assignableWithin at h
      by_cases htargetStar : t.star = true
      · exact .inl htargetStar
      rw [if_neg htargetStar] at h
      by_cases hstar : s.star = true
      · rw [if_pos hstar] at h
        cases h
      rw [if_neg hstar] at h
      by_cases hnullable : (s.nullable && !t.nullable) = true
      · rw [if_pos hnullable] at h
        cases h
      rw [if_neg hnullable] at h
      by_cases hqualifiers : s.qualifiers ≠ t.qualifiers
      · rw [if_pos hqualifiers] at h
        cases h
      rw [if_neg hqualifiers] at h
      have hmarks : s.MarksFit t :=
        ⟨by simpa using hstar, by simpa using hnullable, by simpa using hqualifiers⟩
      refine .inr ⟨hmarks, ?_⟩
      by_cases heq : s.classifier = t.classifier
      · rw [if_pos heq] at h
        exact .same heq (hpairs h)
      rw [if_neg heq] at h
      by_cases hsource : R.isTypeParameter s.classifier = true
      · rw [if_pos hsource] at h
        obtain ⟨bound, hbound, h⟩ := List.any_eq_true.mp h
        exact .sourceBound heq hsource hbound (ih h)
      rw [if_neg hsource] at h
      rw [Bool.not_eq_true] at hsource
      by_cases htarget : R.isTypeParameter t.classifier = true
      · rw [if_pos htarget] at h
        exact .targetBounds heq hsource htarget fun bound hbound =>
          ih (List.all_eq_true.mp h bound hbound)
      rw [if_neg htarget] at h
      rw [Bool.not_eq_true] at htarget
      by_cases hany : t.classifier = .any
      · exact .top heq hsource htarget hany
      rw [if_neg hany] at h
      split at h
      · rename_i v hview
        obtain ⟨w, hviews, hclassifier, harguments⟩ := views_of_subtypeView hview
        exact .view heq hsource htarget hany hviews hclassifier (harguments ▸ hpairs h)
      · cases h

/-- What is assignable conforms. -/
theorem conforms_of_assignableWithin
    (h : R.assignableWithin levels s t = true) :
    R.Conforms s t :=
  ⟨levels, conformsWithin_of_assignableWithin h⟩

/-! ## Marks -/

/-- A type with other marks has the same views of other classifiers. -/
theorem Views.marked
    (h : R.Views s v)
    (hne : s.classifier ≠ v.classifier) :
    R.Views (s.marked q n) v := by
  rcases h.cases_head with rfl | ⟨sup, hsup, hviews⟩
  · exact absurd rfl hne
  · exact .head hsup hviews

/-- A rule applies to types with other marks as well.  Only where a bound of the source
stands for it, the target has to stay nullable. -/
theorem Conformance.marked
    (hrelax : ∀ a b, conforms a b → conforms a (b.marked b.qualifiers true))
    (hnullable : R.isTypeParameter s.classifier = true → t.nullable = true → n' = true)
    (h : R.Conformance conforms s t) :
    R.Conformance conforms (s.marked q n) (t.marked q' n') := by
  cases h with
  | same heq harguments => exact .same heq harguments
  | @sourceBound bound hne hsource hbound hconforms =>
      refine .sourceBound hne hsource hbound ?_
      cases n' with
      | true => exact hrelax bound t.unqualified hconforms
      | false =>
          have hkept : t.nullable = false :=
            Bool.eq_false_iff.mpr fun h => nomatch hnullable hsource h
          obtain ⟨c, arguments, qualifiers, nullable, star⟩ := t
          cases hkept
          exact hconforms
  | targetBounds hne hsource htarget hbounds =>
      exact .targetBounds hne hsource htarget hbounds
  | top hne hsource htarget hany => exact .top hne hsource htarget hany
  | view hne hsource htarget hany hviews heq harguments =>
      exact .view hne hsource htarget hany (hviews.marked (heq ▸ hne)) heq harguments

/-- What conforms to a type conforms to it made nullable. -/
theorem ConformsWithin.relax
    (h : R.ConformsWithin levels s t) :
    R.ConformsWithin levels s (t.marked t.qualifiers true) := by
  induction levels generalizing s t with
  | zero => exact h.elim
  | succ levels ih =>
      rcases h with hstar | ⟨hmarks, hrule⟩
      · exact .inl hstar
      · refine .inr ⟨⟨hmarks.star, fun _ => rfl, hmarks.qualifiers⟩, ?_⟩
        have hrelaxed : R.Conformance (R.ConformsWithin levels)
            (s.marked s.qualifiers s.nullable) (t.marked t.qualifiers true) :=
          hrule.marked (fun _ _ => ih) fun _ _ => rfl
        rwa [Ty.marked_self] at hrelaxed

theorem ConformsWithin.marked
    (hmarks : (s.marked q n).MarksFit (t.marked q' n'))
    (hnullable : R.isTypeParameter s.classifier = true → t.nullable = true → n' = true)
    (h : R.ConformsWithin levels s t) :
    R.ConformsWithin levels (s.marked q n) (t.marked q' n') := by
  cases levels with
  | zero => exact h.elim
  | succ levels =>
      rcases h with hstar | ⟨-, hrule⟩
      · exact .inl hstar
      · exact .inr ⟨hmarks, hrule.marked (fun _ _ => ConformsWithin.relax) hnullable⟩

/-! ## Substitution -/

end Registry

namespace Substitution

theorem lookup_insert
    (σ : Substitution)
    (p : ClassifierId)
    (v : Ty)
    (c : ClassifierId) :
    (σ.insert p v).lookup c = if c = p then some v else σ.lookup c := by
  have hcons : ∀ (k : ClassifierId) (w : Ty) (rest : Substitution),
      List.lookup c ((k, w) :: rest) = if c = k then some w else rest.lookup c := by
    intro k w rest
    rw [List.lookup_cons]
    by_cases h : c = k
    · rw [beq_iff_eq.mpr h, if_pos h]
    · rw [beq_eq_false_iff_ne.mpr h, if_neg h]
  induction σ with
  | nil => exact hcons p v []
  | cons first rest ih =>
      obtain ⟨k, w⟩ := first
      rw [insert]
      by_cases hk : k = p
      · rw [if_pos hk, hcons, hcons, hk]
        split <;> rfl
      · rw [if_neg hk, hcons, hcons, ih]
        by_cases hc : c = k
        · rw [if_pos hc, if_pos hc, if_neg (hc ▸ hk)]
        · rw [if_neg hc, if_neg hc]

/-- Related arguments give substitutions that bind the same parameters to related types. -/
theorem rel_lookup_ofArguments
    {r : Ty → Ty → Prop}
    {ss ts : List Ty}
    (h : List.Forall₂ r ss ts)
    (parameters : List ClassifierId)
    (c : ClassifierId) :
    Option.Rel r ((ofArguments parameters ss).lookup c)
      ((ofArguments parameters ts).lookup c) := by
  have hfold : ∀ (parameters : List ClassifierId) (σ τ : Substitution),
      (∀ c, Option.Rel r (σ.lookup c) (τ.lookup c)) →
      ∀ c, Option.Rel r
        (((parameters.zip ss).foldl (fun σ b => insert σ b.1 b.2) σ).lookup c)
        (((parameters.zip ts).foldl (fun σ b => insert σ b.1 b.2) τ).lookup c) := by
    induction h with
    | nil =>
        intro parameters σ τ hrel c
        rw [List.zip_nil_right]
        exact hrel c
    | @cons s t ss ts hst _ ih =>
        intro parameters σ τ hrel
        cases parameters with
        | nil => exact hrel
        | cons p parameters =>
            refine ih parameters _ _ fun c => ?_
            rw [lookup_insert, lookup_insert]
            split
            · exact .some hst
            · exact hrel c
  exact hfold parameters [] [] (fun _ => .none) c

end Substitution

namespace Registry

variable {R : Registry} {s t v : Ty} {σ τ : Substitution}

mutual

/-- Every type conforms to itself. -/
theorem Conforms.refl (R : Registry) : (t : Ty) → R.Conforms t t
  | ⟨c, arguments, q, n, s⟩ => by
      cases s with
      | true => exact conforms_iff.mpr (.inl rfl)
      | false =>
          exact conforms_iff.mpr
            (.inr ⟨⟨rfl, id, rfl⟩, .same rfl (Conforms.forall₂_refl R arguments)⟩)

/-- The types of a list conform to themselves. -/
theorem Conforms.forall₂_refl (R : Registry) : (ts : List Ty) → List.Forall₂ R.Conforms ts ts
  | [] => .nil
  | t :: ts => .cons (Conforms.refl R t) (Conforms.forall₂_refl R ts)

end

/-- Replacing one occurrence by types that conform. -/
theorem Conforms.replacedBy
    (h : R.Conforms s t)
    (occurrence : Ty) :
    R.Conforms (occurrence.replacedBy s) (occurrence.replacedBy t) := by
  rcases conforms_iff.mp h with hstar | ⟨hmarks, -⟩
  · exact conforms_iff.mpr (.inl hstar)
  · obtain ⟨levels, h⟩ := h
    refine ⟨levels, h.marked ⟨hmarks.star, ?_, ?_⟩ ?_⟩
    · intro hnullable
      rcases Bool.or_eq_true_iff.mp hnullable with hs | ho
      · exact Bool.or_eq_true_iff.mpr (.inl (hmarks.nullable hs))
      · exact Bool.or_eq_true_iff.mpr (.inr ho)
    · exact congrArg (· ∪ occurrence.qualifiers) hmarks.qualifiers
    · exact fun _ hnullable => Bool.or_eq_true_iff.mpr (.inl hnullable)

mutual

/-- Substituting types that conform gives types that conform. -/
theorem conforms_substitute
    (h : ∀ c, Option.Rel R.Conforms (σ.lookup c) (τ.lookup c)) :
    (t : Ty) → R.Conforms (t.substitute σ) (t.substitute τ)
  | ⟨c, arguments, q, n, s⟩ => by
      cases s with
      | true => exact conforms_iff.mpr (.inl rfl)
      | false =>
          have hc := h c
          simp only [Ty.substitute, Bool.false_eq_true, if_false]
          generalize σ.lookup c = a at hc
          generalize τ.lookup c = b at hc
          cases hc with
          | some hvw => exact hvw.replacedBy _
          | none =>
              exact conforms_iff.mpr
                (.inr ⟨⟨rfl, id, rfl⟩, .same rfl (conforms_substituteAll h arguments)⟩)

/-- Substituting types that conform in each type of a list. -/
theorem conforms_substituteAll
    (h : ∀ c, Option.Rel R.Conforms (σ.lookup c) (τ.lookup c)) :
    (ts : List Ty) →
      List.Forall₂ R.Conforms (Ty.substituteAll σ ts) (Ty.substituteAll τ ts)
  | [] => .nil
  | t :: ts => .cons (conforms_substitute h t) (conforms_substituteAll h ts)

end

/-! ## Views -/

/-- A supertype is a star projection, or substitution leaves its classifier. -/
theorem star_or_unbound
    {c : ClassifierId}
    (hregular : ¬ R.DeclaresParameter c)
    (ht : t ∈ R.supertypes c)
    (arguments : List Ty) :
    t.star = true
      ∨ (Substitution.ofArguments (R.typeParameters c) arguments).lookup t.classifier = none := by
  cases hstar : t.star with
  | true => exact .inl rfl
  | false =>
      refine .inr (Substitution.lookup_eq_none fun b hb heq => ?_)
      exact hregular ⟨t, ht, hstar, heq ▸ Substitution.mem_ofArguments hb⟩

/-- The substituted arguments of one type conform to those of another substitution. -/
theorem forall₂_arguments_substitute
    (h : ∀ c, Option.Rel R.Conforms (σ.lookup c) (τ.lookup c))
    (hσ : t.star = true ∨ σ.lookup t.classifier = none)
    (hτ : t.star = true ∨ τ.lookup t.classifier = none) :
    List.Forall₂ R.Conforms (t.substitute σ).arguments (t.substitute τ).arguments := by
  obtain ⟨c, arguments, q, n, s⟩ := t
  cases s with
  | true =>
      simp only [Ty.substitute, if_true]
      exact Conforms.forall₂_refl R arguments
  | false =>
      simp only [Bool.false_eq_true, false_or] at hσ hτ
      simp only [Ty.substitute, Bool.false_eq_true, if_false, hσ, hτ]
      exact conforms_substituteAll h arguments

/-- If the arguments of a type conform to those of another one of the same classifier, so
do the arguments of its views. -/
theorem Views.mono
    (hregular : ∀ c, ¬ R.DeclaresParameter c)
    (h : R.Views t v)
    (heq : s.classifier = t.classifier)
    (harguments : List.Forall₂ R.Conforms s.arguments t.arguments) :
    ∃ w, R.Views s w ∧ w.classifier = v.classifier
      ∧ List.Forall₂ R.Conforms w.arguments v.arguments := by
  induction h with
  | refl => exact ⟨s, .refl, heq, harguments⟩
  | @tail u v _ hstep ih =>
      obtain ⟨w, hviews, hclassifier, hconform⟩ := ih
      obtain ⟨d, hd, rfl⟩ := hstep
      have hσ := star_or_unbound (hregular u.classifier) hd w.arguments
      have hτ := star_or_unbound (hregular u.classifier) hd u.arguments
      refine ⟨_, hviews.tail ⟨d, hclassifier ▸ hd, rfl⟩, ?_, ?_⟩
      · rw [hclassifier, classifier_substitute hσ, classifier_substitute hτ]
      · rw [hclassifier]
        exact forall₂_arguments_substitute
          (Substitution.rel_lookup_ofArguments hconform _) hσ hτ

end Registry
end Wiring
