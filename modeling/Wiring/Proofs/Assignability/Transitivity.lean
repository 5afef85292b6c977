import Wiring.Proofs.Assignability.Conformance

/-!
# Conformance is transitive

The hierarchy of classifiers has to be in order for this.  A classifier that can be
reached along several paths of supertypes is reached with the same arguments, and the
types that supertypes and bounds mention are applied to as many arguments as they take.
Besides, the top classifier must not declare supertypes.  Everything conforms to the top
type without declaring it, so what is above the top type would have to be above everything.

For types of such a hierarchy the rules of assignability compose.  The rule that leads to
the type in the middle and the rule that leads away from it give the rule for the outer
types.  A type parameter in the middle is passed through one of its bounds, so the parts
get smaller on the right at each step.  Only where the type on the left is a parameter they
get smaller on the left instead.

**Results.**
* `Orderly.conforms_trans`: conformance is transitive.
-/

namespace Wiring
namespace Registry

variable {R : Registry} {s t v : Ty}

/-! ## Hierarchies in order -/

/-- Whether the top classifier and type parameters have no arguments, and classifiers with
supertypes as many as they have type parameters, everywhere in a type. -/
inductive FullyApplied (R : Registry) : Ty → Prop
  | intro {t : Ty} :
      (t.classifier = .any ∨ R.isTypeParameter t.classifier = true → t.arguments = []) →
      (R.supertypes t.classifier ≠ [] →
        t.arguments.length = (R.typeParameters t.classifier).length) →
      (∀ a ∈ t.arguments, FullyApplied R a) →
      FullyApplied R t

/-- Whether the declared supertypes and bounds make a hierarchy that is not cyclic, not too
high, and coherent. -/
structure Orderly (R : Registry) : Prop where
  acyclic : ∀ c, ¬ Relation.TransGen R.Declares c c
  shallow : ∀ c above, List.IsChain R.Declares (c :: above) →
    above.length ≤ Limits.supertypeDepth
  regular : ∀ c, ¬ R.DeclaresParameter c
  -- along whichever path a view is found, it has the same arguments
  coherent : ∀ {t v w}, R.FullyApplied t → R.Views t v → R.Views t w →
    v.classifier = w.classifier → v.arguments = w.arguments
  supertypes : ∀ c, ∀ s ∈ R.supertypes c, R.FullyApplied s
  bounds : ∀ c, ∀ bound ∈ R.upperBounds c, R.FullyApplied bound

namespace FullyApplied

theorem arguments
    (h : R.FullyApplied t) :
    ∀ a ∈ t.arguments, R.FullyApplied a := by
  cases h with
  | intro _ _ harguments => exact harguments

theorem arguments_of_any
    (h : R.FullyApplied t)
    (hany : t.classifier = .any) :
    t.arguments = [] := by
  cases h with
  | intro hbare => exact hbare (.inl hany)

theorem arguments_of_parameter
    (h : R.FullyApplied t)
    (hparameter : R.isTypeParameter t.classifier = true) :
    t.arguments = [] := by
  cases h with
  | intro hbare => exact hbare (.inr hparameter)

theorem marked
    (h : R.FullyApplied t)
    (q : QualifierSet)
    (n : Bool) :
    R.FullyApplied (t.marked q n) := by
  cases h with
  | intro hbare hcount harguments => exact .intro hbare hcount harguments

theorem substitute
    {σ : Substitution}
    (hσ : ∀ c v, σ.lookup c = some v → R.FullyApplied v)
    (h : R.FullyApplied t) :
    R.FullyApplied (t.substitute σ) := by
  induction h with
  | @intro t hbare hcount harguments ih =>
      obtain ⟨c, arguments, q, n, s⟩ := t
      rw [Ty.substitute]
      split
      · exact .intro hbare hcount harguments
      · cases hlookup : σ.lookup c with
        | some v => exact (hσ c v hlookup).marked _ _
        | none =>
            dsimp only
            rw [Ty.substituteAll_eq_map]
            refine .intro ?_ ?_ ?_
            · intro h
              exact List.map_eq_nil_iff.mpr (hbare h)
            · intro h
              exact (List.length_map _).trans (hcount h)
            · intro a ha
              obtain ⟨b, hb, rfl⟩ := List.mem_map.mp ha
              exact ih b hb

/-- Views of fully applied types are fully applied. -/
theorem views
    (hsupertypes : ∀ c, ∀ s ∈ R.supertypes c, R.FullyApplied s)
    (ht : R.FullyApplied t)
    (h : R.Views t v) :
    R.FullyApplied v := by
  induction h with
  | refl => exact ht
  | @tail u v _ hstep ih =>
      obtain ⟨d, hd, rfl⟩ := hstep
      refine (hsupertypes _ d hd).substitute fun c w hw => ?_
      have hsame : List.Forall₂ (fun a _ => R.FullyApplied a) u.arguments u.arguments :=
        List.forall₂_same.mpr ih.arguments
      have hrel := Substitution.rel_lookup_ofArguments hsame (R.typeParameters u.classifier) c
      rw [hw] at hrel
      cases hrel with
      | some hw => exact hw

end FullyApplied

/-! ## Composing rules -/

/-- Transitivity where the comparison on the right takes at most `levels` levels. -/
def TransitiveWithin (R : Registry) (levels : Nat) : Prop :=
  ∀ {a b c : Ty}, R.FullyApplied a → R.FullyApplied b → R.FullyApplied c →
    R.Conforms a b → R.ConformsWithin levels b c → R.Conforms a c

section Composition

variable {levels : Nat} {a b c w : Ty}

theorem TransitiveWithin.forall₂
    (ih : R.TransitiveWithin levels)
    {as bs cs : List Ty}
    (has : ∀ a ∈ as, R.FullyApplied a)
    (hbs : ∀ b ∈ bs, R.FullyApplied b)
    (hcs : ∀ c ∈ cs, R.FullyApplied c)
    (h₁ : List.Forall₂ R.Conforms as bs)
    (h₂ : List.Forall₂ (R.ConformsWithin levels) bs cs) :
    List.Forall₂ R.Conforms as cs := by
  induction h₁ generalizing cs with
  | nil =>
      cases h₂
      exact .nil
  | cons hab _ ihs =>
      cases h₂ with
      | cons hbc hrest =>
          rw [List.forall_mem_cons] at has hbs hcs
          exact .cons (ih has.1 hbs.1 hcs.1 hab hbc) (ihs has.2 hbs.2 hcs.2 hrest)

/-- Unless a bound of the source stands for it, a type conforms to another one without
regard to their marks. -/
theorem Conformance.bare
    (hsource : R.isTypeParameter a.classifier = false)
    (hstar : a.star = false)
    (h : R.Conformance R.Conforms a b) :
    R.Conforms a.unqualified.nonNull b.unqualified.nonNull := by
  have hrule : R.Conformance R.Conforms (a.marked ∅ false) (b.marked ∅ false) := by
    refine h.marked (fun _ _ ⟨k, hk⟩ => ⟨k, hk.relax⟩) fun hparameter => ?_
    rw [hsource] at hparameter
    cases hparameter
  exact conforms_iff.mpr (.inr ⟨⟨hstar, fun h => (nomatch h), rfl⟩, hrule⟩)

/-- Everything but type parameters conforms to the top type. -/
theorem Conformance.toTop
    {conforms : Ty → Ty → Prop}
    (ha : R.FullyApplied a)
    (hc : R.FullyApplied c)
    (hsource : R.isTypeParameter a.classifier = false)
    (htarget : R.isTypeParameter c.classifier = false)
    (hany : c.classifier = .any) :
    R.Conformance conforms a c := by
  by_cases heq : a.classifier = c.classifier
  · refine .same heq ?_
    rw [ha.arguments_of_any (heq.trans hany), hc.arguments_of_any hany]
    exact .nil
  · exact .top heq hsource htarget hany

/-- The type on the right is a type parameter, the one in the middle is not. -/
theorem Conformance.toParameter
    (hR : R.Orderly)
    (ih : R.TransitiveWithin levels)
    (ha : R.FullyApplied a)
    (hb : R.FullyApplied b)
    (hstar : a.star = false)
    (hsource : R.isTypeParameter a.classifier = false)
    (hab : R.Conformance R.Conforms a b)
    (htarget : R.isTypeParameter c.classifier = true)
    (hbounds : ∀ bound ∈ R.upperBounds c.classifier,
      R.ConformsWithin levels b.unqualified.nonNull bound) :
    R.Conformance R.Conforms a c := by
  refine .targetBounds ?_ hsource htarget fun bound hbound => ?_
  · intro heq
    rw [heq, htarget] at hsource
    cases hsource
  · exact ih (ha.marked _ _) (hb.marked _ _) (hR.bounds _ bound hbound)
      (hab.bare hsource hstar) (hbounds bound hbound)

/-- The type in the middle has the classifier of the one on the left. -/
theorem Conformance.trans_same
    (hR : R.Orderly)
    (ih : R.TransitiveWithin levels)
    (ha : R.FullyApplied a)
    (hb : R.FullyApplied b)
    (hc : R.FullyApplied c)
    (hstar : a.star = false)
    (heq : a.classifier = b.classifier)
    (harguments : List.Forall₂ R.Conforms a.arguments b.arguments)
    (hbc : R.Conformance (R.ConformsWithin levels) b c) :
    R.Conformance R.Conforms a c := by
  cases hbc with
  | same heq' harguments' =>
      exact .same (heq.trans heq')
        (ih.forall₂ ha.arguments hb.arguments hc.arguments harguments harguments')
  | sourceBound hne hsource hbound hconforms =>
      rw [← heq] at hne hsource hbound
      exact .sourceBound hne hsource hbound ⟨levels, hconforms⟩
  | targetBounds hne hsource htarget hbounds =>
      exact .toParameter hR ih ha hb hstar (heq ▸ hsource) (.same heq harguments) htarget
        hbounds
  | top hne hsource htarget hany => exact .toTop ha hc (heq ▸ hsource) htarget hany
  | @view v hne hsource htarget hany hviews heq' harguments' =>
      obtain ⟨w, hw, hclassifier, hconforms⟩ := hviews.mono hR.regular heq harguments
      rw [← heq] at hne hsource
      exact .view hne hsource htarget hany hw (hclassifier.trans heq')
        (ih.forall₂ (ha.views hR.supertypes hw).arguments
          (hb.views hR.supertypes hviews).arguments hc.arguments hconforms harguments')

/-- The type in the middle is a type parameter, the one on the left is not. -/
theorem Conformance.trans_targetBounds
    (hR : R.Orderly)
    (ih : R.TransitiveWithin levels)
    (ha : R.FullyApplied a)
    (hc : R.FullyApplied c)
    (hstar : c.star = false)
    (hne : a.classifier ≠ b.classifier)
    (hsource : R.isTypeParameter a.classifier = false)
    (htarget : R.isTypeParameter b.classifier = true)
    (hbounds : ∀ bound ∈ R.upperBounds b.classifier,
      R.Conforms a.unqualified.nonNull bound)
    (hbc : R.Conformance (R.ConformsWithin levels) b c) :
    R.Conformance R.Conforms a c := by
  have hparameter : R.isTypeParameter b.classifier ≠ false := by simp [htarget]
  cases hbc with
  | same heq' =>
      rw [heq'] at hne htarget hbounds
      exact .targetBounds hne hsource htarget hbounds
  | @sourceBound bound hne' _ hbound hconforms =>
      have hthrough := ih (ha.marked _ _) (hR.bounds _ bound hbound) (hc.marked _ _)
        (hbounds bound hbound) hconforms
      rcases conforms_iff.mp hthrough with hstar' | ⟨-, hrule⟩
      · have hcstar : c.star = true := hstar'
        rw [hstar] at hcstar
        cases hcstar
      · have hrule' : R.Conformance R.Conforms
            ((a.unqualified.nonNull).marked a.qualifiers a.nullable)
            (c.unqualified.marked c.qualifiers c.nullable) :=
          hrule.marked (fun _ _ ⟨k, hk⟩ => ⟨k, hk.relax⟩) fun _ h => h
        have ha' : (a.unqualified.nonNull).marked a.qualifiers a.nullable = a :=
          a.marked_self
        have hc' : c.unqualified.marked c.qualifiers c.nullable = c := c.marked_self
        rwa [ha', hc'] at hrule'
  | targetBounds _ hsource' => exact absurd hsource' hparameter
  | top _ hsource' => exact absurd hsource' hparameter
  | view _ hsource' => exact absurd hsource' hparameter

/-- The type in the middle is the top type, and nothing is above it. -/
theorem Conformance.trans_top
    (hR : R.Orderly)
    (htop : R.supertypes .any = [])
    (ih : R.TransitiveWithin levels)
    (ha : R.FullyApplied a)
    (hb : R.FullyApplied b)
    (hstar : a.star = false)
    (hne : a.classifier ≠ b.classifier)
    (hsource : R.isTypeParameter a.classifier = false)
    (htarget : R.isTypeParameter b.classifier = false)
    (hany : b.classifier = .any)
    (hbc : R.Conformance (R.ConformsWithin levels) b c) :
    R.Conformance R.Conforms a c := by
  cases hbc with
  | same heq' =>
      rw [heq'] at hne htarget hany
      exact .top hne hsource htarget hany
  | sourceBound _ hsource' =>
      rw [htarget] at hsource'
      cases hsource'
  | targetBounds _ _ htarget' hbounds =>
      exact .toParameter hR ih ha hb hstar hsource (.top hne hsource htarget hany) htarget'
        hbounds
  | top hne' _ _ hany' => exact absurd (hany.trans hany'.symm) hne'
  | view hne' _ _ _ hviews heq' =>
      rcases hviews.cases_head with rfl | ⟨sup, ⟨s, hs, -⟩, -⟩
      · exact absurd heq' hne'
      · rw [hany, htop] at hs
        exact nomatch hs

/-- The type in the middle is above the one on the left. -/
theorem Conformance.trans_view
    (hR : R.Orderly)
    (ih : R.TransitiveWithin levels)
    (ha : R.FullyApplied a)
    (hb : R.FullyApplied b)
    (hc : R.FullyApplied c)
    (hstar : a.star = false)
    (hne : a.classifier ≠ b.classifier)
    (hsource : R.isTypeParameter a.classifier = false)
    (htarget : R.isTypeParameter b.classifier = false)
    (hany : b.classifier ≠ .any)
    (hw : R.Views a w)
    (heq : w.classifier = b.classifier)
    (harguments : List.Forall₂ R.Conforms w.arguments b.arguments)
    (hbc : R.Conformance (R.ConformsWithin levels) b c) :
    R.Conformance R.Conforms a c := by
  cases hbc with
  | same heq' harguments' =>
      have hthrough := ih.forall₂ (ha.views hR.supertypes hw).arguments hb.arguments
        hc.arguments harguments harguments'
      rw [heq'] at hne htarget hany heq
      exact .view hne hsource htarget hany hw heq hthrough
  | sourceBound _ hsource' =>
      rw [htarget] at hsource'
      cases hsource'
  | targetBounds _ _ htarget' hbounds =>
      exact .toParameter hR ih ha hb hstar hsource
        (.view hne hsource htarget hany hw heq harguments) htarget' hbounds
  | top _ _ htarget' hany' => exact .toTop ha hc hsource htarget' hany'
  | @view v hne' _ htarget' hany' hviews heq' harguments' =>
      obtain ⟨u, hu, hclassifier, hconforms⟩ := hviews.mono hR.regular heq harguments
      have hau : R.Views a u := hw.trans hu
      refine .view ?_ hsource htarget' hany' hau (hclassifier.trans heq')
        (ih.forall₂ (ha.views hR.supertypes hau).arguments
          (hb.views hR.supertypes hviews).arguments hc.arguments hconforms harguments')
      -- otherwise the classifier would be above itself
      intro hcycle
      have hup := hw.below hR.regular
      have hback := hviews.below hR.regular
      rw [heq] at hup
      rw [heq', ← hcycle] at hback
      rcases Relation.reflTransGen_iff_eq_or_transGen.mp hup with hsame | hup
      · exact hne hsame.symm
      · exact hR.acyclic _ (hup.trans_left hback)

end Composition

/-! ## Transitivity -/

/-- Conformance is transitive, unless there is something above the top type. -/
theorem Orderly.conforms_trans
    (hR : R.Orderly)
    (htop : R.supertypes .any = [])
    {a b c : Ty}
    (ha : R.FullyApplied a)
    (hb : R.FullyApplied b)
    (hc : R.FullyApplied c)
    (hab : R.Conforms a b)
    (hbc : R.Conforms b c) :
    R.Conforms a c := by
  obtain ⟨n, hbc⟩ := hbc
  -- the parts get smaller on the right
  induction n generalizing a b c with
  | zero => exact hbc.elim
  | succ n ih =>
      have ih : R.TransitiveWithin n := ih
      obtain ⟨m, hab⟩ := hab
      -- and on the left where a bound stands for the type there
      induction m generalizing a b c with
      | zero => exact hab.elim
      | succ m ihm =>
          cases hcstar : c.star with
          | true => exact conforms_iff.mpr (.inl hcstar)
          | false =>
              rcases hbc with hstar | ⟨hbcMarks, hbcRule⟩
              · rw [hcstar] at hstar
                cases hstar
              rcases hab with hstar | ⟨habMarks, habRule⟩
              · rw [hbcMarks.star] at hstar
                cases hstar
              refine conforms_iff.mpr (.inr ⟨habMarks.trans hbcMarks, ?_⟩)
              have hwithin : ∀ s t, R.ConformsWithin m s t → R.Conforms s t :=
                fun _ _ h => ⟨m, h⟩
              cases habRule with
              | same heq harguments =>
                  exact .trans_same hR ih ha hb hc habMarks.star heq
                    (harguments.imp hwithin) hbcRule
              | @sourceBound bound hne hsource hbound hconforms =>
                  by_cases heq : a.classifier = c.classifier
                  · refine .same heq ?_
                    rw [ha.arguments_of_parameter hsource,
                      hc.arguments_of_parameter (heq ▸ hsource)]
                    exact .nil
                  · refine .sourceBound heq hsource hbound ?_
                    have hbc' : R.ConformsWithin (n + 1) b.unqualified c.unqualified :=
                      ConformsWithin.marked (q := ∅) ⟨hbcMarks.star, hbcMarks.nullable, rfl⟩
                        (fun _ h => h) (.inr ⟨hbcMarks, hbcRule⟩)
                    exact ihm (hR.bounds _ bound hbound) (hb.marked _ _) (hc.marked _ _)
                      hbc' hconforms
              | targetBounds hne hsource htarget hbounds =>
                  exact .trans_targetBounds hR ih ha hc hcstar hne hsource htarget
                    (fun bound hbound => hwithin _ _ (hbounds bound hbound)) hbcRule
              | top hne hsource htarget hany =>
                  exact .trans_top hR htop ih ha hb habMarks.star hne hsource htarget hany
                    hbcRule
              | view hne hsource htarget hany hviews heq harguments =>
                  exact .trans_view hR ih ha hb hc habMarks.star hne hsource htarget hany
                    hviews heq (harguments.imp hwithin) hbcRule

end Registry
end Wiring
