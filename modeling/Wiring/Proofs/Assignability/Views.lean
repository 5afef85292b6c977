import Wiring.Proofs.Hierarchy

/-!
# The views of a type

A type inherits the supertypes that its classifier declares, with its own arguments in
place of the type parameters.  Its views are what it inherits in any number of steps.

The walk that views a type as a classifier goes through the views depth first.  Its guard
makes it turn back at a classifier that it is just visiting, at too many levels and after
too many steps.  In a hierarchy without cycles and without too many levels only the steps
are left, and the walk tells how many it took.

**Results.**
* `views_of_subtypeView`: what the walk finds is a view.
* `not_views_of_subtypeView`: if the walk finds nothing there is no view, provided that the
  hierarchy is neither cyclic nor too high and the walk did not take too many steps.
-/

namespace Wiring

/-! ## Guards -/

namespace Walk
namespace Guard

variable {κ : Type} {g g₁ g₂ : Guard κ} {key : κ}

/-- Whether a guard is an earlier one with nothing changed but the steps it counted. -/
structure Returns (g g' : Guard κ) : Prop where
  visiting : g'.visiting = g.visiting
  depth : g'.depth = g.depth
  maxDepth : g'.maxDepth = g.maxDepth
  maxSteps : g'.maxSteps = g.maxSteps
  steps : min g.steps Limits.counterCeiling ≤ g'.steps

/-- Whether a guard is an earlier one that entered a key. -/
structure Enters (g : Guard κ) (key : κ) (g' : Guard κ) : Prop where
  visiting : g'.visiting = key :: g.visiting
  depth : g'.depth = g.depth + 1
  maxDepth : g'.maxDepth = g.maxDepth
  maxSteps : g'.maxSteps = g.maxSteps
  steps : min g.steps Limits.counterCeiling ≤ g'.steps

theorem Returns.refl (g : Guard κ) : g.Returns g :=
  ⟨rfl, rfl, rfl, rfl, Nat.min_le_left _ _⟩

theorem Returns.trans
    (h₁ : g.Returns g₁)
    (h₂ : g₁.Returns g₂) :
    g.Returns g₂ where
  visiting := h₂.visiting.trans h₁.visiting
  depth := h₂.depth.trans h₁.depth
  maxDepth := h₂.maxDepth.trans h₁.maxDepth
  maxSteps := h₂.maxSteps.trans h₁.maxSteps
  steps := by
    have := h₁.steps
    have := h₂.steps
    omega

theorem Enters.leave
    [DecidableEq κ]
    (h₁ : g.Enters key g₁)
    (h₂ : g₁.Returns g₂) :
    g.Returns (g₂.leave key) where
  visiting := by simp [Guard.leave, h₂.visiting, h₁.visiting]
  depth := by simp [Guard.leave, h₂.depth, h₁.depth]
  maxDepth := h₂.maxDepth.trans h₁.maxDepth
  maxSteps := h₂.maxSteps.trans h₁.maxSteps
  steps := by
    have := h₁.steps
    have := h₂.steps
    simp only [Guard.leave]
    omega

/-- An attempt to enter a key succeeds, or it is stopped by one of the three bounds. -/
theorem enter_cases
    [DecidableEq κ]
    (g : Guard κ)
    (key : κ) :
    (∃ g', g.enter key = (.entered, g') ∧ g.Enters key g')
      ∨ ∃ outcome g', g.enter key = (outcome, g') ∧ outcome ≠ .entered ∧ g.Returns g'
        ∧ (g.maxSteps < g'.steps ∨ g.maxDepth ≤ g.depth ∨ key ∈ g.visiting) := by
  unfold enter
  dsimp only
  split
  · rename_i hsteps
    exact .inr ⟨.outOfSteps, _, rfl, by decide, ⟨rfl, rfl, rfl, rfl, by dsimp only; omega⟩,
      .inl hsteps⟩
  · split
    · rename_i hdepth
      exact .inr ⟨.tooDeep, _, rfl, by decide, ⟨rfl, rfl, rfl, rfl, by dsimp only; omega⟩,
        .inr (.inl hdepth)⟩
    · split
      · rename_i hkey
        exact .inr ⟨.repeated, _, rfl, by decide, ⟨rfl, rfl, rfl, rfl, by dsimp only; omega⟩,
          .inr (.inr hkey)⟩
      · exact .inl ⟨_, rfl, ⟨rfl, rfl, rfl, rfl, by dsimp only; omega⟩⟩

end Guard
end Walk

namespace Registry

variable {R : Registry} {target : ClassifierId} {t sup v w : Ty}

/-! ## Views -/

/-- Whether a type is a declared supertype of another one, with its arguments filled in. -/
def Inherits (R : Registry) (t sup : Ty) : Prop :=
  ∃ s ∈ R.supertypes t.classifier,
    sup = s.substitute (.ofArguments (R.typeParameters t.classifier) t.arguments)

/-- Whether a type is another one or inherits it along some path of supertypes. -/
def Views (R : Registry) : (t v : Ty) → Prop :=
  Relation.ReflTransGen R.Inherits

/-- Number of steps that the walk takes to view a type as a classifier. -/
def viewSteps (R : Registry) (t : Ty) (target : ClassifierId) : Nat :=
  (R.viewWithin target Limits.supertypeDepth t (.ofProfile .supertypeWalk)).2.steps

theorem Inherits.declares
    (hregular : ∀ c, ¬ R.DeclaresParameter c)
    (h : R.Inherits t sup) :
    R.Declares t.classifier sup.classifier := by
  obtain ⟨s, hs, rfl⟩ := h
  exact declares_substituted (hregular t.classifier) hs t.arguments

theorem Views.below
    (hregular : ∀ c, ¬ R.DeclaresParameter c)
    (h : R.Views t v) :
    R.Below t.classifier v.classifier := by
  induction h with
  | refl => exact .refl
  | tail _ hstep ih => exact ih.tail (hstep.declares hregular)

/-! ## One step of the walk -/

/-- What a walk with some levels left can come to at a type. -/
inductive ViewStep
    (R : Registry)
    (target : ClassifierId)
    (levels : Nat)
    (t : Ty)
    (g : Walk.Guard ClassifierId) :
    Option Ty × Walk.Guard ClassifierId → Prop
  | found :
      t.classifier = target →
      ViewStep R target levels t g (some t, g)
  | topmost :
      t.classifier ≠ target →
      R.supertypes t.classifier = [] →
      ViewStep R target levels t g (none, g)
  | refused {g' : Walk.Guard ClassifierId} :
      t.classifier ≠ target →
      g.Returns g' →
      g.maxSteps < g'.steps ∨ g.maxDepth ≤ g.depth ∨ t.classifier ∈ g.visiting →
      ViewStep R target levels t g (none, g')
  | exhausted {g₁ : Walk.Guard ClassifierId} :
      t.classifier ≠ target →
      R.supertypes t.classifier ≠ [] →
      levels = 0 →
      g.Enters t.classifier g₁ →
      ViewStep R target levels t g (none, g₁.leave t.classifier)
  | searched {rest : Nat} {ts : List Ty} {g₁ : Walk.Guard ClassifierId} :
      t.classifier ≠ target →
      levels = rest + 1 →
      g.Enters t.classifier g₁ →
      (∀ sup, sup ∈ ts ↔ R.Inherits t sup) →
      ViewStep R target levels t g
        ((firstView (R.viewWithin target rest) ts g₁).1,
          (firstView (R.viewWithin target rest) ts g₁).2.leave t.classifier)

theorem viewStep
    (R : Registry)
    (target : ClassifierId)
    (levels : Nat)
    (t : Ty)
    (g : Walk.Guard ClassifierId) :
    R.ViewStep target levels t g (R.viewWithin target levels t g) := by
  unfold viewWithin
  by_cases heq : t.classifier = target
  · rw [if_pos heq]
    exact .found heq
  rw [if_neg heq]
  cases hc : R.classifier? t.classifier with
  | none => exact .topmost heq (by simp [supertypes, hc])
  | some c =>
      have hsupertypes : R.supertypes t.classifier = c.supertypes := by
        simp [supertypes, hc]
      have hparameters : R.typeParameters t.classifier = c.typeParameters := by
        simp [typeParameters, hc]
      dsimp only
      by_cases hempty : c.supertypes = []
      · rw [if_pos (List.isEmpty_iff.mpr hempty)]
        exact .topmost heq (hsupertypes.trans hempty)
      rw [if_neg (mt List.isEmpty_iff.mp hempty)]
      rcases g.enter_cases t.classifier with
        ⟨g₁, henter, henters⟩ | ⟨outcome, g', henter, hrefused, hreturns, hwhy⟩
      · rw [henter]
        cases levels with
        | zero => exact .exhausted heq (hsupertypes ▸ hempty) rfl henters
        | succ rest =>
            refine .searched heq rfl henters fun sup => ?_
            simp only [List.mem_map, Inherits, hsupertypes, hparameters]
            exact exists_congr fun s => and_congr_right fun _ => eq_comm
      · rw [henter]
        cases outcome with
        | entered => exact absurd rfl hrefused
        | repeated => exact .refused heq hreturns hwhy
        | tooDeep => exact .refused heq hreturns hwhy
        | outOfSteps => exact .refused heq hreturns hwhy

/-! ## What the walk finds -/

theorem views_of_viewWithin
    {levels : Nat}
    {g : Walk.Guard ClassifierId}
    (h : (R.viewWithin target levels t g).1 = some v) :
    R.Views t v ∧ v.classifier = target := by
  induction levels using Nat.strongRecOn generalizing t g with
  | ind levels ih =>
      have hstep := R.viewStep target levels t g
      generalize R.viewWithin target levels t g = outcome at h hstep
      cases hstep with
      | found heq =>
          cases h
          exact ⟨.refl, heq⟩
      | topmost => cases h
      | refused => cases h
      | exhausted => cases h
      | @searched rest ts g₁ _ hlevels _ hts =>
          obtain ⟨sup, hsup, g', hview⟩ := exists_of_firstView h
          obtain ⟨hviews, htarget⟩ := ih rest (by omega) hview
          exact ⟨.head ((hts sup).mp hsup) hviews, htarget⟩

/-- What is found when a type is viewed as a classifier has the arguments of a view. -/
theorem views_of_subtypeView
    (h : R.subtypeView? t target = some v) :
    ∃ w, R.Views t w ∧ w.classifier = target ∧ w.arguments = v.arguments := by
  unfold subtypeView? at h
  split at h
  · rename_i heq
    cases h
    exact ⟨t, .refl, heq, rfl⟩
  · obtain ⟨w, hw, rfl⟩ := Option.map_eq_some_iff.mp h
    obtain ⟨hviews, htarget⟩ := views_of_viewWithin hw
    exact ⟨w, hviews, htarget, rfl⟩

/-! ## What the walk leaves out -/

theorem returns_firstView
    {view : Ty → Walk.Guard ClassifierId → Option Ty × Walk.Guard ClassifierId}
    (hview : ∀ t (g : Walk.Guard ClassifierId), g.Returns (view t g).2)
    (ts : List Ty)
    (g : Walk.Guard ClassifierId) :
    g.Returns (firstView view ts g).2 := by
  induction ts generalizing g with
  | nil => exact .refl g
  | cons t ts ih =>
      have hfirst := hview t g
      rw [firstView]
      split
      · rename_i heq
        rw [heq] at hfirst
        exact hfirst
      · rename_i heq
        rw [heq] at hfirst
        exact hfirst.trans (ih _)

/-- The walk leaves its guard as it was, apart from the steps. -/
theorem returns_viewWithin
    (R : Registry)
    (target : ClassifierId)
    (levels : Nat)
    (t : Ty)
    (g : Walk.Guard ClassifierId) :
    g.Returns (R.viewWithin target levels t g).2 := by
  induction levels using Nat.strongRecOn generalizing t g with
  | ind levels ih =>
      have hstep := R.viewStep target levels t g
      generalize R.viewWithin target levels t g = outcome at hstep
      cases hstep with
      | found => exact .refl g
      | topmost => exact .refl g
      | refused _ hreturns => exact hreturns
      | exhausted _ _ _ henters => exact henters.leave (.refl _)
      | @searched rest ts g₁ _ hlevels henters =>
          exact henters.leave (returns_firstView (ih rest (by omega)) ts g₁)

/-- If none of several supertypes has a view, the walk went through each of them and found
none there. -/
theorem firstView_eq_none
    {view : Ty → Walk.Guard ClassifierId → Option Ty × Walk.Guard ClassifierId}
    (hview : ∀ t (g : Walk.Guard ClassifierId), g.Returns (view t g).2)
    {ts : List Ty}
    {g : Walk.Guard ClassifierId}
    (h : (firstView view ts g).1 = none)
    (ht : t ∈ ts) :
    ∃ g₁, g.Returns g₁ ∧ (view t g₁).1 = none
      ∧ (view t g₁).2.Returns (firstView view ts g).2 := by
  induction ts generalizing g with
  | nil => exact nomatch ht
  | cons first rest ih =>
      have hfirst := hview first g
      rw [firstView] at h ⊢
      cases hfound : (view first g) with
      | mk found g' =>
          rw [hfound] at hfirst h
          cases found with
          | some w => cases h
          | none =>
              rcases List.mem_cons.mp ht with rfl | ht
              · refine ⟨g, .refl g, ?_, ?_⟩
                · rw [hfound]
                · rw [hfound]
                  exact returns_firstView hview rest g'
              · obtain ⟨g₁, hg₁, hnone, hlast⟩ := ih h ht
                exact ⟨g₁, hfirst.trans hg₁, hnone, hlast⟩

/-- A walk that has levels enough, that is not below itself already and that does not run
out of steps finds a view if there is one. -/
theorem not_views_of_viewWithin
    (hacyclic : ∀ c, ¬ Relation.TransGen R.Declares c c)
    (hregular : ∀ c, ¬ R.DeclaresParameter c)
    {levels : Nat}
    {g : Walk.Guard ClassifierId}
    (hlevels : ∀ above, List.IsChain R.Declares (t.classifier :: above) →
      above.length ≤ levels)
    (hdepth : g.depth + levels ≤ g.maxDepth)
    (hvisiting : ∀ c ∈ g.visiting, Relation.TransGen R.Declares c t.classifier)
    (hsteps : (R.viewWithin target levels t g).2.steps ≤ g.maxSteps)
    (hbudget : g.maxSteps < Limits.counterCeiling)
    (h : (R.viewWithin target levels t g).1 = none)
    (hviews : R.Views t v) :
    v.classifier ≠ target := by
  induction levels using Nat.strongRecOn generalizing t g with
  | ind levels ih =>
      have hstep := R.viewStep target levels t g
      generalize R.viewWithin target levels t g = outcome at h hsteps hstep
      -- what is not the type itself is a view of something that it inherits
      rcases hviews.cases_head with rfl | ⟨sup, hsup, hviews⟩
      · cases hstep with
        | found => cases h
        | topmost hne => exact hne
        | refused hne => exact hne
        | exhausted hne => exact hne
        | searched hne => exact hne
      · have hdeclares := hsup.declares hregular
        have hlevel : 1 ≤ levels := hlevels [sup.classifier] (by simpa using hdeclares)
        cases hstep with
        | found => cases h
        | topmost _ hnone =>
            obtain ⟨s, hs, -⟩ := hsup
            rw [hnone] at hs
            exact nomatch hs
        | refused _ _ hwhy =>
            dsimp only at hsteps
            rcases hwhy with hwhy | hwhy | hwhy
            · omega
            · omega
            · exact absurd (hvisiting _ hwhy) (hacyclic _)
        | exhausted _ _ hzero => omega
        | @searched rest ts g₁ _ hrest henters hts =>
            obtain ⟨g₂, hg₂, hnone, hlast⟩ :=
              firstView_eq_none (R.returns_viewWithin target rest) h ((hts sup).mpr hsup)
            have hvisiting₂ : g₂.visiting = t.classifier :: g.visiting :=
              hg₂.visiting.trans henters.visiting
            have hdepth₂ : g₂.depth = g.depth + 1 := hg₂.depth.trans henters.depth
            have hmaxDepth₂ : g₂.maxDepth = g.maxDepth :=
              hg₂.maxDepth.trans henters.maxDepth
            have hmaxSteps₂ : g₂.maxSteps = g.maxSteps :=
              hg₂.maxSteps.trans henters.maxSteps
            have hsteps₂ := hlast.steps
            simp only [Walk.Guard.leave] at hsteps
            refine ih rest (by omega) ?_ (by omega) ?_ (by omega) (by omega) hnone hviews
            · intro above habove
              have hlong := hlevels (sup.classifier :: above)
                (List.isChain_cons_cons.mpr ⟨hdeclares, habove⟩)
              rw [List.length_cons] at hlong
              omega
            · intro c hc
              rw [hvisiting₂] at hc
              rcases List.mem_cons.mp hc with rfl | hc
              · exact .single hdeclares
              · exact (hvisiting c hc).tail hdeclares

/-- If a type is not viewed as a classifier, none of its views is of that classifier. -/
theorem not_views_of_subtypeView
    (hacyclic : ∀ c, ¬ Relation.TransGen R.Declares c c)
    (hregular : ∀ c, ¬ R.DeclaresParameter c)
    (hlevels : ∀ c above, List.IsChain R.Declares (c :: above) →
      above.length ≤ Limits.supertypeDepth)
    (hsteps : R.viewSteps t target ≤ Limits.walkSteps)
    (h : R.subtypeView? t target = none)
    (hviews : R.Views t v) :
    v.classifier ≠ target := by
  unfold subtypeView? at h
  split at h
  · cases h
  · refine not_views_of_viewWithin hacyclic hregular (hlevels t.classifier) (Nat.le_of_eq rfl) ?_
      hsteps (by decide) (Option.map_eq_none_iff.mp h) hviews
    exact fun c hc => nomatch hc

end Registry
end Wiring
