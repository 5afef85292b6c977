import Mathlib.Data.List.Nodup
import Mathlib.Data.List.Perm.Subperm
import Wiring.Proofs.Assignability.Views

/-!
# The three walks over a hierarchy

What is above a classifier is asked in three ways: whether a classifier leads up to
another one, which classifiers are in its closure, and whether a type can be viewed as an
instance of a classifier.  The closure goes breadth first and lists what it met.  The two
others go depth first and only know what they are visiting: in a diamond they meet a
classifier again and again, and in a cycle they turn back.

All three find the same classifiers.  A classifier that is above another one is above it
along an ascent, on which no classifier is met twice.  A depth-first walk that goes along an
ascent never meets what it is visiting and never gets deeper than the ascent is long.  So
the guard lets it pass, whatever else there is in the hierarchy.

**Results.**
* `below_of_isSubclassifier`, `isSubclassifier_of_below`: a classifier leads up to what is
  above it.
* `below_of_mem_supertypeClosure`, `nodup_supertypeClosure`: the closure lists what is above
  a classifier, once each.
* `isSome_subtypeView_of_below`: a type has a view as whatever is above its classifier.
* `walks_agree`: the three walks agree if there are few classifiers above and the walks do
  not take too many steps.
-/

namespace Wiring

/-! ## Guards that let a walk pass -/

namespace Walk
namespace Guard

variable {κ : Type} {g g₁ g₂ : Guard κ} {levels rest : Nat} {key next : κ} {path : List κ}

/-- Whether a guard lets a walk with some levels left go from a key along a path, as long as
there are steps left. -/
structure Admits (g : Guard κ) (levels : Nat) (key : κ) (path : List κ) : Prop where
  levels : path.length ≤ levels
  depth : g.depth + path.length ≤ g.maxDepth
  fresh : ∀ k ∈ key :: path, k ∉ g.visiting
  budget : g.maxSteps < Limits.counterCeiling

theorem admits_supertypeWalk
    (h : path.length ≤ Limits.supertypeDepth)
    (key : κ) :
    (Guard.ofProfile .supertypeWalk).Admits Limits.supertypeDepth key path where
  levels := h
  depth := by rwa [Guard.ofProfile, Nat.zero_add]
  fresh := fun _ _ hk => nomatch hk
  budget := (by decide : Limits.walkSteps < Limits.counterCeiling)

/-- Such a walk is only refused when its steps are used up. -/
theorem Admits.lt_of_refused
    {steps : Nat}
    (h : g.Admits levels key (next :: path))
    (hwhy : g.maxSteps < steps ∨ g.maxDepth ≤ g.depth ∨ key ∈ g.visiting) :
    g.maxSteps < steps := by
  have hdepth := h.depth
  rw [List.length_cons] at hdepth
  rcases hwhy with hwhy | hwhy | hwhy
  · exact hwhy
  · omega
  · exact absurd hwhy (h.fresh key List.mem_cons_self)

/-- From the first key it may go on along the rest of the path, also if it went elsewhere
before. -/
theorem Admits.climb
    (h : g.Admits (rest + 1) key (next :: path))
    (hnew : key ∉ next :: path)
    (henters : g.Enters key g₁)
    (hreturns : g₁.Returns g₂) :
    g₂.Admits rest next path where
  levels := Nat.le_of_succ_le_succ h.levels
  depth := by
    have hdepth := h.depth
    rw [List.length_cons] at hdepth
    rw [hreturns.depth, henters.depth, hreturns.maxDepth, henters.maxDepth]
    omega
  fresh := by
    intro k hk hmem
    rw [hreturns.visiting, henters.visiting] at hmem
    rcases List.mem_cons.mp hmem with rfl | hmem
    · exact hnew hk
    · exact h.fresh k (List.mem_cons_of_mem key hk) hmem
  budget := by
    rw [hreturns.maxSteps, henters.maxSteps]
    exact h.budget

/-- Steps below the ceiling of the counter are not taken back. -/
theorem Returns.steps_le
    {bound : Nat}
    (h : g.Returns g₁)
    (hsteps : g₁.steps ≤ bound)
    (hbound : bound < Limits.counterCeiling) :
    g.steps ≤ bound := by
  have := h.steps
  omega

end Guard
end Walk

namespace Registry

variable {R : Registry} {target c sup : ClassifierId} {path : List ClassifierId}

/-! ## Ascents -/

/-- A way along declared supertypes from a classifier up to a target, on which no classifier
is met twice. -/
inductive Ascent (R : Registry) (target : ClassifierId) :
    ClassifierId → List ClassifierId → Prop
  | arrived :
      Ascent R target target []
  | climb {c sup : ClassifierId} {path : List ClassifierId} :
      R.Declares c sup →
      c ∉ sup :: path →
      Ascent R target sup path →
      Ascent R target c (sup :: path)

/-- An ascent goes on from each classifier on it. -/
theorem Ascent.from_mem
    {d : ClassifierId}
    (h : R.Ascent target c path)
    (hd : d ∈ path) :
    ∃ rest, R.Ascent target d rest := by
  induction h with
  | arrived => exact nomatch hd
  | @climb c sup path _ _ hsup ih =>
      rcases List.mem_cons.mp hd with rfl | hd
      · exact ⟨path, hsup⟩
      · exact ih hd

/-- What is above a classifier is at the end of an ascent. -/
theorem exists_ascent
    (h : R.Below c target) :
    ∃ path, R.Ascent target c path := by
  induction h using Relation.ReflTransGen.head_induction_on with
  | refl => exact ⟨[], .arrived⟩
  | @head c sup hdeclares _ ih =>
      obtain ⟨path, hpath⟩ := ih
      by_cases hc : c ∈ sup :: path
      · -- the way comes back to the classifier, so that what lies between can be left out
        rcases List.mem_cons.mp hc with rfl | hc
        · exact ⟨path, hpath⟩
        · exact hpath.from_mem hc
      · exact ⟨sup :: path, .climb hdeclares hc hpath⟩

theorem Ascent.nodup
    (h : R.Ascent target c path) :
    (c :: path).Nodup := by
  induction h with
  | arrived => exact List.nodup_singleton target
  | climb _ hnew _ ih => exact List.nodup_cons.mpr ⟨hnew, ih⟩

theorem Ascent.below_of_mem
    (h : R.Ascent target c path) :
    ∀ d ∈ path, R.Below c d := by
  induction h with
  | arrived => exact fun d hd => nomatch hd
  | climb hdeclares _ _ ih =>
      intro d hd
      rcases List.mem_cons.mp hd with rfl | hd
      · exact .single hdeclares
      · exact .head hdeclares (ih d hd)

/-! ## Whether a classifier leads up to another one -/

/-- What a walk with some levels left can come to at a classifier. -/
inductive LeadStep
    (R : Registry)
    (target : ClassifierId)
    (levels : Nat)
    (c : ClassifierId)
    (g : Walk.Guard ClassifierId) :
    Bool × Walk.Guard ClassifierId → Prop
  | refused {g' : Walk.Guard ClassifierId} :
      g.Returns g' →
      g.maxSteps < g'.steps ∨ g.maxDepth ≤ g.depth ∨ c ∈ g.visiting →
      LeadStep R target levels c g (false, g')
  | exhausted {g₁ : Walk.Guard ClassifierId} :
      levels = 0 →
      g.Enters c g₁ →
      LeadStep R target levels c g (false, g₁.leave c)
  | searched {rest : Nat} {g₁ : Walk.Guard ClassifierId} :
      levels = rest + 1 →
      g.Enters c g₁ →
      LeadStep R target levels c g
        ((anyLeads target (R.leadsTo target rest)
            ((R.supertypes c).map Ty.classifier) g₁).1,
          (anyLeads target (R.leadsTo target rest)
            ((R.supertypes c).map Ty.classifier) g₁).2.leave c)

theorem leadStep
    (R : Registry)
    (target : ClassifierId)
    (levels : Nat)
    (c : ClassifierId)
    (g : Walk.Guard ClassifierId) :
    R.LeadStep target levels c g (R.leadsTo target levels c g) := by
  unfold leadsTo
  rcases g.enter_cases c with
    ⟨g₁, henter, henters⟩ | ⟨outcome, g', henter, hrefused, hreturns, hwhy⟩
  · rw [henter]
    cases levels with
    | zero => exact .exhausted rfl henters
    | succ rest => exact .searched rfl henters
  · rw [henter]
    cases outcome with
    | entered => exact absurd rfl hrefused
    | repeated => exact .refused hreturns hwhy
    | tooDeep => exact .refused hreturns hwhy
    | outOfSteps => exact .refused hreturns hwhy

section Supertypes

variable
  {leads : ClassifierId → Walk.Guard ClassifierId → Bool × Walk.Guard ClassifierId}
  {cs : List ClassifierId}
  {g : Walk.Guard ClassifierId}

theorem exists_of_anyLeads
    (h : (anyLeads target leads cs g).1 = true) :
    ∃ c ∈ cs, c = target ∨ ∃ g', (leads c g').1 = true := by
  induction cs generalizing g with
  | nil => cases h
  | cons c cs ih =>
      rw [anyLeads] at h
      split at h
      · rename_i heq
        exact ⟨c, List.mem_cons_self, .inl heq⟩
      · split at h
        · rename_i g' hleads
          exact ⟨c, List.mem_cons_self, .inr ⟨g, by rw [hleads]⟩⟩
        · obtain ⟨d, hd, hfound⟩ := ih h
          exact ⟨d, List.mem_cons_of_mem c hd, hfound⟩

theorem returns_anyLeads
    (hleads : ∀ c (g : Walk.Guard ClassifierId), g.Returns (leads c g).2)
    (cs : List ClassifierId)
    (g : Walk.Guard ClassifierId) :
    g.Returns (anyLeads target leads cs g).2 := by
  induction cs generalizing g with
  | nil => exact .refl g
  | cons c cs ih =>
      have hfirst := hleads c g
      rw [anyLeads]
      split
      · exact .refl g
      · split
        · rename_i heq
          rw [heq] at hfirst
          exact hfirst
        · rename_i heq
          rw [heq] at hfirst
          exact hfirst.trans (ih _)

/-- If none of several classifiers leads to the target, the walk went through each of them
and did not find the target there. -/
theorem anyLeads_eq_false
    (hleads : ∀ c (g : Walk.Guard ClassifierId), g.Returns (leads c g).2)
    (h : (anyLeads target leads cs g).1 = false)
    (hc : c ∈ cs) :
    c ≠ target ∧ ∃ g₁, g.Returns g₁ ∧ (leads c g₁).1 = false
      ∧ (leads c g₁).2.Returns (anyLeads target leads cs g).2 := by
  induction cs generalizing g with
  | nil => exact nomatch hc
  | cons first rest ih =>
      have hfirst := hleads first g
      rw [anyLeads] at h ⊢
      split at h
      · cases h
      · rename_i hne
        rw [if_neg hne]
        cases hfound : leads first g with
        | mk found g' =>
            rw [hfound] at hfirst h
            cases found with
            | true => cases h
            | false =>
                rcases List.mem_cons.mp hc with rfl | hc
                · refine ⟨hne, g, .refl g, ?_, ?_⟩
                  · rw [hfound]
                  · rw [hfound]
                    exact returns_anyLeads hleads rest g'
                · obtain ⟨hrest, g₁, hg₁, hfalse, hlast⟩ := ih h hc
                  exact ⟨hrest, g₁, hfirst.trans hg₁, hfalse, hlast⟩

end Supertypes

/-- The walk leaves its guard as it was, apart from the steps. -/
theorem returns_leadsTo
    (R : Registry)
    (target : ClassifierId)
    (levels : Nat)
    (c : ClassifierId)
    (g : Walk.Guard ClassifierId) :
    g.Returns (R.leadsTo target levels c g).2 := by
  induction levels using Nat.strongRecOn generalizing c g with
  | ind levels ih =>
      have hstep := R.leadStep target levels c g
      generalize R.leadsTo target levels c g = outcome at hstep
      cases hstep with
      | refused hreturns => exact hreturns
      | exhausted _ henters => exact henters.leave (.refl _)
      | @searched rest g₁ hlevels henters =>
          exact henters.leave (returns_anyLeads (ih rest (by omega)) _ g₁)

theorem below_of_leadsTo
    {levels : Nat}
    {g : Walk.Guard ClassifierId}
    (h : (R.leadsTo target levels c g).1 = true) :
    R.Below c target := by
  induction levels using Nat.strongRecOn generalizing c g with
  | ind levels ih =>
      have hstep := R.leadStep target levels c g
      generalize R.leadsTo target levels c g = outcome at h hstep
      cases hstep with
      | refused => cases h
      | exhausted => cases h
      | @searched rest g₁ hlevels =>
          obtain ⟨sup, hsup, rfl | ⟨g', hleads⟩⟩ := exists_of_anyLeads h
          · exact .single hsup
          · exact .head hsup (ih rest (by omega) hleads)

/-- A classifier only leads up to what is above it. -/
theorem below_of_isSubclassifier
    (hany : target ≠ .any)
    (h : R.isSubclassifier c target = true) :
    R.Below c target := by
  unfold isSubclassifier at h
  split at h
  · rename_i heq
    rcases (Bool.or_eq_true _ _).mp heq with heq | heq
    · exact of_decide_eq_true heq ▸ .refl
    · exact absurd (of_decide_eq_true heq) hany
  · exact below_of_leadsTo h

/-- A walk that may go along an ascent and does not run out of steps gets to its end. -/
theorem Ascent.leadsTo
    (hpath : R.Ascent target c path)
    (hne : path ≠ [])
    {levels : Nat}
    {g : Walk.Guard ClassifierId}
    (hadmits : g.Admits levels c path)
    (hsteps : (R.leadsTo target levels c g).2.steps ≤ g.maxSteps) :
    (R.leadsTo target levels c g).1 = true := by
  refine eq_true_of_ne_false fun hfalse => ?_
  induction hpath generalizing levels g with
  | arrived => exact hne rfl
  | @climb c sup path hdeclares hnew hpath ih =>
      have hstep := R.leadStep target levels c g
      generalize R.leadsTo target levels c g = outcome at hfalse hsteps hstep
      cases hstep with
      | refused _ hwhy => exact absurd hsteps (Nat.not_le_of_lt (hadmits.lt_of_refused hwhy))
      | exhausted hzero => exact absurd (hzero ▸ hadmits.levels) (Nat.not_succ_le_zero _)
      | @searched rest g₁ hrest henters =>
          subst hrest
          obtain ⟨hbelow, g₂, hreturns, hnone, hlast⟩ :=
            anyLeads_eq_false (R.returns_leadsTo target rest) hfalse hdeclares
          have hsup := hadmits.climb hnew henters hreturns
          have hmaxSteps : g₂.maxSteps = g.maxSteps :=
            hreturns.maxSteps.trans henters.maxSteps
          refine ih ?_ hsup (hlast.steps_le (hmaxSteps ▸ hsteps) hsup.budget) hnone
          rintro rfl
          cases hpath
          exact hbelow rfl

/-- Number of steps that the walk from a classifier up to another one takes. -/
def subclassifierSteps (R : Registry) (sub sup : ClassifierId) : Nat :=
  if sub = sup || sup = .any then 0
  else (R.leadsTo sup Limits.supertypeDepth sub (.ofProfile .supertypeWalk)).2.steps

/-- Whether few enough classifiers are above a classifier for the walks to follow every
ascent from it. -/
def FewAbove (R : Registry) (c : ClassifierId) : Prop :=
  ∃ above : List ClassifierId,
    above.length ≤ Limits.supertypeDepth ∧ ∀ d, R.Below c d → d = c ∨ d ∈ above

/-- An ascent does not go through more classifiers than there are above its start. -/
theorem FewAbove.length_le
    (hfew : R.FewAbove c)
    (hpath : R.Ascent target c path) :
    path.length ≤ Limits.supertypeDepth := by
  obtain ⟨above, hlength, habove⟩ := hfew
  have hnodup := List.nodup_cons.mp hpath.nodup
  have hsubset : path ⊆ above := by
    intro d hd
    rcases habove d (hpath.below_of_mem d hd) with rfl | hmem
    · exact absurd hd hnodup.1
    · exact hmem
  exact Nat.le_trans (hnodup.2.subperm hsubset).length_le hlength

/-- A classifier leads up to what is above it. -/
theorem isSubclassifier_of_below
    (hfew : R.FewAbove c)
    (hsteps : R.subclassifierSteps c target ≤ Limits.walkSteps)
    (h : R.Below c target) :
    R.isSubclassifier c target = true := by
  unfold isSubclassifier
  unfold subclassifierSteps at hsteps
  split at hsteps
  · rename_i heq
    rw [if_pos heq]
  · rename_i heq
    rw [if_neg heq]
    obtain ⟨path, hpath⟩ := exists_ascent h
    have hdepth := hfew.length_le hpath
    refine hpath.leadsTo ?_ (Walk.Guard.admits_supertypeWalk hdepth c) hsteps
    rintro rfl
    cases hpath
    exact heq (by simp)

/-! ## The closure -/

theorem nodup_addUnlisted
    {listed : List ClassifierId}
    (h : listed.Nodup)
    (new : List ClassifierId) :
    (addUnlisted listed new).Nodup := by
  unfold addUnlisted
  induction new generalizing listed with
  | nil => exact h
  | cons first rest ih =>
      rw [List.foldl_cons]
      split
      · exact ih h
      · rename_i hnew
        exact ih (List.nodup_append_comm.mp (List.nodup_cons.mpr ⟨hnew, h⟩))

/-- Completing a closure only adds what is above the classifiers in it, and it lists
nothing twice. -/
theorem closeFrom_spec
    {closure : List ClassifierId}
    (hbelow : ∀ d ∈ closure, R.Below c d)
    (hnodup : closure.Nodup)
    (rounds cursor : Nat) :
    (∀ d ∈ R.closeFrom rounds cursor closure, R.Below c d)
      ∧ (R.closeFrom rounds cursor closure).Nodup := by
  induction rounds generalizing cursor closure with
  | zero => exact ⟨hbelow, hnodup⟩
  | succ rounds ih =>
      rw [closeFrom]
      split
      · exact ⟨hbelow, hnodup⟩
      · rename_i next hnext
        split
        · exact ⟨hbelow, hnodup⟩
        · refine ih (fun d hd => ?_) (nodup_addUnlisted hnodup _) (cursor + 1)
          rcases mem_addUnlisted.mp hd with hd | hd
          · exact hbelow d hd
          · exact (hbelow next (List.mem_of_getElem? hnext)).tail hd

theorem supertypeClosure_spec
    (R : Registry)
    (c : ClassifierId) :
    (∀ d ∈ R.supertypeClosure c, R.Below c d) ∧ (R.supertypeClosure c).Nodup :=
  closeFrom_spec (fun _ hd => List.mem_singleton.mp hd ▸ .refl) (List.nodup_singleton c)
    (Limits.walkSteps + 1) 0

/-- The closure of a classifier only lists what is above it. -/
theorem below_of_mem_supertypeClosure
    (h : sup ∈ R.supertypeClosure c) :
    R.Below c sup :=
  (R.supertypeClosure_spec c).1 sup h

/-- The closure of a classifier lists nothing twice. -/
theorem nodup_supertypeClosure
    (R : Registry)
    (c : ClassifierId) :
    (R.supertypeClosure c).Nodup :=
  (R.supertypeClosure_spec c).2

/-- With few classifiers above a classifier its closure does not get too long. -/
theorem FewAbove.length_supertypeClosure_le
    (hfew : R.FewAbove c) :
    (R.supertypeClosure c).length ≤ Limits.walkSteps := by
  obtain ⟨above, hlength, habove⟩ := hfew
  have hsubset : R.supertypeClosure c ⊆ c :: above := by
    intro d hd
    exact List.mem_cons.mpr (habove d (below_of_mem_supertypeClosure hd))
  have hle := ((R.nodup_supertypeClosure c).subperm hsubset).length_le
  rw [List.length_cons] at hle
  have hdepth : Limits.supertypeDepth + 1 ≤ Limits.walkSteps := by decide
  omega

/-! ## Views -/

section Views

variable {t v : Ty}

/-- A type inherits a supertype of each classifier that its own one declares. -/
theorem exists_inherits
    (hregular : ¬ R.DeclaresParameter t.classifier)
    (h : R.Declares t.classifier sup) :
    ∃ s, R.Inherits t s ∧ s.classifier = sup := by
  obtain ⟨s, hs, rfl⟩ := List.mem_map.mp h
  exact ⟨_, ⟨s, hs, rfl⟩, classifier_substituted hregular hs t.arguments⟩

/-- A walk that may go along an ascent and does not run out of steps finds a view. -/
theorem Ascent.isSome_viewWithin
    (hpath : R.Ascent target c path)
    (hc : t.classifier = c)
    (hregular : ∀ d ∈ c :: path, ¬ R.DeclaresParameter d)
    {levels : Nat}
    {g : Walk.Guard ClassifierId}
    (hadmits : g.Admits levels c path)
    (hsteps : (R.viewWithin target levels t g).2.steps ≤ g.maxSteps) :
    (R.viewWithin target levels t g).1.isSome := by
  refine Option.isSome_iff_ne_none.mpr fun hnone => ?_
  induction hpath generalizing t levels g with
  | arrived =>
      have hstep := R.viewStep target levels t g
      generalize R.viewWithin target levels t g = outcome at hnone hstep
      cases hstep with
      | found => cases hnone
      | topmost hne => exact hne hc
      | refused hne => exact hne hc
      | exhausted hne => exact hne hc
      | searched hne => exact hne hc
  | @climb c sup path hdeclares hnew _ ih =>
      subst hc
      obtain ⟨s, hs, hsup⟩ :=
        exists_inherits (hregular _ List.mem_cons_self) hdeclares
      have hstep := R.viewStep target levels t g
      generalize R.viewWithin target levels t g = outcome at hnone hsteps hstep
      cases hstep with
      | found => cases hnone
      | topmost _ hempty =>
          obtain ⟨s, hs, -⟩ := hs
          rw [hempty] at hs
          exact nomatch hs
      | refused _ _ hwhy => exact absurd hsteps (Nat.not_le_of_lt (hadmits.lt_of_refused hwhy))
      | exhausted _ _ hzero => exact absurd (hzero ▸ hadmits.levels) (Nat.not_succ_le_zero _)
      | @searched rest ts g₁ _ hrest henters hts =>
          subst hrest
          obtain ⟨g₂, hreturns, hlower, hlast⟩ :=
            firstView_eq_none (R.returns_viewWithin target rest) hnone ((hts s).mpr hs)
          have hclimbed := hadmits.climb hnew henters hreturns
          have hmaxSteps : g₂.maxSteps = g.maxSteps :=
            hreturns.maxSteps.trans henters.maxSteps
          exact ih hsup (fun d hd => hregular d (List.mem_cons_of_mem _ hd)) hclimbed
            (hlast.steps_le (hmaxSteps ▸ hsteps) hclimbed.budget) hlower

/-- A type has a view as whatever is above its classifier. -/
theorem isSome_subtypeView_of_below
    (hregular : ∀ c, R.Below t.classifier c → ¬ R.DeclaresParameter c)
    (hfew : R.FewAbove t.classifier)
    (hsteps : R.viewSteps t target ≤ Limits.walkSteps)
    (h : R.Below t.classifier target) :
    (R.subtypeView? t target).isSome := by
  unfold subtypeView?
  split
  · rfl
  · rw [Option.isSome_map]
    obtain ⟨path, hpath⟩ := exists_ascent h
    have hdepth := hfew.length_le hpath
    refine hpath.isSome_viewWithin rfl ?_ (Walk.Guard.admits_supertypeWalk hdepth _) hsteps
    intro d hd
    rcases List.mem_cons.mp hd with rfl | hd
    · exact hregular _ .refl
    · exact hregular d (hpath.below_of_mem d hd)

/-- A view of a type as a classifier is of that classifier and keeps the marks of the
type. -/
theorem marks_of_subtypeView
    (h : R.subtypeView? t target = some v) :
    v.classifier = target ∧ v.qualifiers = t.qualifiers ∧ v.nullable = t.nullable := by
  unfold subtypeView? at h
  split at h
  · rename_i heq
    cases h
    exact ⟨heq, rfl, rfl⟩
  · obtain ⟨w, hw, rfl⟩ := Option.map_eq_some_iff.mp h
    exact ⟨(views_of_viewWithin hw).2, rfl, rfl⟩

/-- With few classifiers above the classifier of a type and without bare type parameters
among their supertypes, the three walks find the same classifiers. -/
theorem walks_agree
    (t : Ty)
    (target : ClassifierId)
    (hany : target ≠ .any)
    (hregular : ∀ c, R.Below t.classifier c → ¬ R.DeclaresParameter c)
    (hfew : R.FewAbove t.classifier)
    (hsubclassifier : R.subclassifierSteps t.classifier target ≤ Limits.walkSteps)
    (hview : R.viewSteps t target ≤ Limits.walkSteps) :
    (R.isSubclassifier t.classifier target = true
        ↔ target ∈ R.supertypeClosure t.classifier)
      ∧ (target ∈ R.supertypeClosure t.classifier ↔ (R.subtypeView? t target).isSome)
      ∧ (R.supertypeClosure t.classifier).Nodup
      ∧ ∀ v, R.subtypeView? t target = some v →
        v.classifier = target ∧ v.qualifiers = t.qualifiers ∧ v.nullable = t.nullable := by
  have hclosure : target ∈ R.supertypeClosure t.classifier ↔ R.Below t.classifier target :=
    ⟨below_of_mem_supertypeClosure, mem_supertypeClosure hfew.length_supertypeClosure_le⟩
  refine ⟨?_, ?_, R.nodup_supertypeClosure t.classifier, fun v => marks_of_subtypeView⟩
  · rw [hclosure]
    exact ⟨below_of_isSubclassifier hany, isSubclassifier_of_below hfew hsubclassifier⟩
  · rw [hclosure]
    constructor
    · exact isSome_subtypeView_of_below hregular hfew hview
    · intro hsome
      obtain ⟨v, hv⟩ := Option.isSome_iff_exists.mp hsome
      exact below_of_subtypeView hregular hv

end Views

/-! ## A diamond in a cycle -/

/-- An assistant is both a student and an employee, both of whom are persons.  A person is
declared to be an assistant in turn, and something that nobody registered. -/
def campus : Registry :=
  { Registry.initial with
    registered :=
      #[{ name := ⟨"Assistant"⟩, typeParameters := [⟨20⟩],
          supertypes := [.generic ⟨17⟩ [.of ⟨20⟩], .of ⟨18⟩] },
        { name := ⟨"Student"⟩, typeParameters := [⟨20⟩],
          supertypes := [.generic ⟨19⟩ [.of ⟨20⟩]] },
        { name := ⟨"Employee"⟩, supertypes := [.generic ⟨19⟩ [.of ⟨18⟩]] },
        { name := ⟨"Person"⟩, typeParameters := [⟨20⟩],
          supertypes := [.generic ⟨16⟩ [.of ⟨20⟩], .of ⟨99⟩] },
        { name := ⟨"T"⟩, flags := [.typeParameter] } ] }

theorem campus_below
    (h : campus.Below ⟨16⟩ c) :
    c = ⟨16⟩ ∨ c ∈ [⟨17⟩, ⟨18⟩, ⟨19⟩, (⟨99⟩ : ClassifierId)] := by
  have hdeclared : ∀ c ∈ [⟨16⟩, ⟨17⟩, ⟨18⟩, ⟨19⟩, (⟨99⟩ : ClassifierId)],
      ∀ sup ∈ (campus.supertypes c).map Ty.classifier,
        sup ∈ [⟨16⟩, ⟨17⟩, ⟨18⟩, ⟨19⟩, (⟨99⟩ : ClassifierId)] := by
    decide
  rw [← List.mem_cons]
  induction h with
  | refl => exact List.mem_cons_self
  | tail _ hsup ih => exact hdeclared _ ih _ hsup

theorem campus_regular
    (h : campus.Below ⟨16⟩ c) :
    ¬ campus.DeclaresParameter c := by
  rintro ⟨s, hs, -, hparameter⟩
  have hall : ∀ c ∈ [⟨16⟩, ⟨17⟩, ⟨18⟩, ⟨19⟩, (⟨99⟩ : ClassifierId)],
      ∀ s ∈ campus.supertypes c, s.classifier ∉ campus.typeParameters c := by
    decide
  exact hall c (List.mem_cons.mpr (campus_below h)) s hs hparameter

/-- The three walks agree that an assistant is whatever nobody registered. -/
theorem campus_walks_agree :
    (campus.isSubclassifier ⟨16⟩ ⟨99⟩ = true ↔ ⟨99⟩ ∈ campus.supertypeClosure ⟨16⟩)
      ∧ (⟨99⟩ ∈ campus.supertypeClosure ⟨16⟩
        ↔ (campus.subtypeView? (.generic ⟨16⟩ [.of ⟨18⟩]) ⟨99⟩).isSome)
      ∧ (campus.supertypeClosure ⟨16⟩).Nodup
      ∧ ∀ v, campus.subtypeView? (.generic ⟨16⟩ [.of ⟨18⟩]) ⟨99⟩ = some v →
        v.classifier = ⟨99⟩ ∧ v.qualifiers = ∅ ∧ v.nullable = false :=
  walks_agree (.generic ⟨16⟩ [.of ⟨18⟩]) ⟨99⟩ (by decide) (fun _ => campus_regular)
    ⟨[⟨17⟩, ⟨18⟩, ⟨19⟩, ⟨99⟩], by decide, fun _ => campus_below⟩ (by decide +kernel)
    (by decide +kernel)

end Registry
end Wiring
