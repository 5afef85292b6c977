import Mathlib.Logic.Relation
import Mathlib.Tactic.Common
import Wiring.Registry.Hierarchy

/-!
# What is above a classifier

The closure of a classifier is completed from front to back until every classifier in it
has its supertypes in it as well, or until it is too long.  A view of a type follows the
declared supertypes.  It leaves them only where a class declares one of its own type
parameters as a supertype: there it goes on with whatever the parameter stands for.

**Results.**
* `mem_supertypeClosure`: a closure that did not get too long holds everything above its
  classifier.
* `below_of_subtypeView`: a type is only viewed as classifiers above its own, unless one of
  its supertypes is a type parameter of the class that declares it.
-/

namespace Wiring
namespace Registry

variable {R : Registry}

/-- Whether a classifier declares a supertype of another one. -/
def Declares (R : Registry) (sub sup : ClassifierId) : Prop :=
  sup ∈ (R.supertypes sub).map Ty.classifier

/-- Whether a classifier is another one or leads up to it along declared supertypes. -/
def Below (R : Registry) : (sub sup : ClassifierId) → Prop :=
  Relation.ReflTransGen R.Declares

/-! ## The closure -/

theorem mem_addUnlisted
    {listed new : List ClassifierId}
    {c : ClassifierId} :
    c ∈ addUnlisted listed new ↔ c ∈ listed ∨ c ∈ new := by
  unfold addUnlisted
  induction new generalizing listed with
  | nil => simp
  | cons first rest ih =>
      rw [List.foldl_cons, ih]
      split
      · rename_i hmem
        simp only [List.mem_cons]
        constructor
        · rintro (h | h)
          · exact .inl h
          · exact .inr (.inr h)
        · rintro (h | rfl | h)
          · exact .inl h
          · exact .inl hmem
          · exact .inr h
      · simp [or_assoc]

theorem prefix_addUnlisted
    (listed new : List ClassifierId) :
    listed <+: addUnlisted listed new := by
  unfold addUnlisted
  induction new generalizing listed with
  | nil => exact List.prefix_rfl
  | cons first rest ih =>
      rw [List.foldl_cons]
      split
      · exact ih _
      · exact (List.prefix_append listed [first]).trans (ih _)

/-- Completing a closure appends to it. -/
theorem prefix_closeFrom
    (R : Registry)
    (rounds cursor : Nat)
    (closure : List ClassifierId) :
    closure <+: R.closeFrom rounds cursor closure := by
  induction rounds generalizing cursor closure with
  | zero => exact List.prefix_rfl
  | succ rounds ih =>
      simp only [closeFrom]
      split
      · exact List.prefix_rfl
      · split
        · exact List.prefix_rfl
        · exact (prefix_addUnlisted _ _).trans (ih _ _)

/-- A list in which the classifiers before `cursor` are done is closed once it is
completed, if it does not get too long. -/
theorem closed_closeFrom
    {rounds cursor : Nat}
    {closure : List ClassifierId}
    (hrounds : rounds + cursor = Limits.walkSteps + 1)
    (hcursor : cursor ≤ closure.length)
    (hdone : ∀ i < cursor, ∀ c, closure[i]? = some c → ∀ sup, R.Declares c sup →
      sup ∈ closure)
    (hlength : (R.closeFrom rounds cursor closure).length ≤ Limits.walkSteps)
    {c sup : ClassifierId}
    (hc : c ∈ R.closeFrom rounds cursor closure)
    (hsup : R.Declares c sup) :
    sup ∈ R.closeFrom rounds cursor closure := by
  induction rounds generalizing cursor closure with
  | zero =>
      have hlong : closure.length ≤ Limits.walkSteps := hlength
      omega
  | succ rounds ih =>
      cases hnext : closure[cursor]? with
      | none =>
          -- every classifier is done
          simp only [closeFrom, hnext] at hc ⊢
          have hend := List.getElem?_eq_none_iff.mp hnext
          obtain ⟨i, hi⟩ := List.mem_iff_getElem?.mp hc
          have hlt : i < closure.length := (List.getElem?_eq_some_iff.mp hi).1
          exact hdone i (by omega) c hi sup hsup
      | some next =>
          have hlt : cursor < closure.length := (List.getElem?_eq_some_iff.mp hnext).1
          by_cases hlong : Limits.walkSteps < closure.length
          · simp only [closeFrom, hnext, if_pos hlong] at hlength
            omega
          · simp only [closeFrom, hnext, if_neg hlong] at hlength hc ⊢
            have hprefix := prefix_addUnlisted closure ((R.supertypes next).map Ty.classifier)
            have hle := hprefix.length_le
            refine ih (by omega) (by omega) ?_ hlength hc
            intro i hi c hc sup hsup
            have hold : closure[i]? = some c := by
              obtain ⟨rest, hrest⟩ := hprefix
              rwa [← hrest, List.getElem?_append_left (by omega)] at hc
            rcases Nat.lt_succ_iff_lt_or_eq.mp hi with hbefore | rfl
            · exact mem_addUnlisted.mpr (.inl (hdone i hbefore c hold sup hsup))
            · have heq : next = c := Option.some.inj (hnext.symm.trans hold)
              subst heq
              exact mem_addUnlisted.mpr (.inr hsup)

/-- A closure that did not get too long holds everything above its classifier. -/
theorem mem_supertypeClosure
    {c sup : ClassifierId}
    (hlength : (R.supertypeClosure c).length ≤ Limits.walkSteps)
    (h : R.Below c sup) :
    sup ∈ R.supertypeClosure c := by
  induction h with
  | refl =>
      have hprefix := prefix_closeFrom R (Limits.walkSteps + 1) 0 [c]
      exact hprefix.subset (List.mem_singleton_self c)
  | tail _ hstep ih =>
      refine closed_closeFrom (by omega) (by omega) ?_ hlength ih hstep
      exact fun i hi => absurd hi (Nat.not_lt_zero i)

/-! ## Views -/

/-- Declared type parameters of a classifier. -/
def typeParameters (R : Registry) (c : ClassifierId) : List ClassifierId :=
  ((R.classifier? c).map Classifier.typeParameters).getD []

/-- Whether a classifier declares one of its own type parameters as a supertype. -/
def DeclaresParameter (R : Registry) (c : ClassifierId) : Prop :=
  ∃ s ∈ R.supertypes c, s.star = false ∧ s.classifier ∈ R.typeParameters c

end Registry

namespace Substitution

theorem mem_insert
    {σ : Substitution}
    {p : ClassifierId}
    {v : Ty}
    {b : ClassifierId × Ty}
    (h : b ∈ σ.insert p v) :
    b ∈ σ ∨ b = (p, v) := by
  induction σ with
  | nil => exact .inr (List.mem_singleton.mp h)
  | cons first rest ih =>
      rw [insert] at h
      split at h
      · rcases List.mem_cons.mp h with hb | hb
        · exact .inr hb
        · exact .inl (List.mem_cons_of_mem _ hb)
      · rcases List.mem_cons.mp h with hb | hb
        · rw [hb]
          exact .inl List.mem_cons_self
        · exact (ih hb).imp_left (List.mem_cons_of_mem _)

/-- What binds declared type parameters binds nothing else. -/
theorem mem_ofArguments
    {parameters : List ClassifierId}
    {arguments : List Ty}
    {b : ClassifierId × Ty}
    (h : b ∈ ofArguments parameters arguments) :
    b.1 ∈ parameters := by
  have hfold : ∀ (pairs : List (ClassifierId × Ty)) (σ : Substitution),
      b ∈ pairs.foldl (fun σ b => insert σ b.1 b.2) σ → b ∈ σ ∨ b ∈ pairs := by
    intro pairs
    induction pairs with
    | nil => exact fun σ hb => .inl hb
    | cons p pairs ih =>
        intro σ hb
        rcases ih _ hb with hb | hb
        · rcases mem_insert hb with hb | hb
          · exact .inl hb
          · rw [hb]
            exact .inr List.mem_cons_self
        · exact .inr (List.mem_cons_of_mem _ hb)
  rcases hfold _ _ h with hb | hb
  · exact nomatch hb
  · exact (List.of_mem_zip hb).1

theorem lookup_eq_none
    {σ : Substitution}
    {c : ClassifierId}
    (h : ∀ b ∈ σ, b.1 ≠ c) :
    σ.lookup c = none := by
  refine List.lookup_eq_none_iff.mpr fun b hb => ?_
  simpa using (h b hb).symm

end Substitution

namespace Registry

variable {R : Registry} {target : ClassifierId}

/-- Substitution keeps the classifier of a type, unless it is bound. -/
theorem classifier_substitute
    {σ : Substitution}
    {t : Ty}
    (h : t.star = true ∨ σ.lookup t.classifier = none) :
    (t.substitute σ).classifier = t.classifier := by
  cases hstar : t.star with
  | true => rw [Ty.substitute_of_star σ hstar]
  | false =>
      rcases h with h | h
      · exact nomatch hstar.symm.trans h
      · rw [Ty.substitute_of_unbound σ hstar h]

theorem exists_of_firstView
    {view : Ty → Walk.Guard ClassifierId → Option Ty × Walk.Guard ClassifierId}
    {ts : List Ty}
    {g : Walk.Guard ClassifierId}
    {v : Ty}
    (h : (firstView view ts g).1 = some v) :
    ∃ t ∈ ts, ∃ g', (view t g').1 = some v := by
  induction ts generalizing g with
  | nil => cases h
  | cons t ts ih =>
      simp only [firstView] at h
      split at h
      · rename_i found g' heq
        exact ⟨t, List.mem_cons_self, g, by rw [heq]; exact h⟩
      · obtain ⟨t', ht', hview⟩ := ih h
        exact ⟨t', List.mem_cons_of_mem _ ht', hview⟩

/-- Substitution keeps the classifiers of the supertypes of a class that declares no
parameter as a supertype. -/
theorem classifier_substituted
    {c : ClassifierId}
    (h : ¬ R.DeclaresParameter c)
    {s : Ty}
    (hs : s ∈ R.supertypes c)
    (arguments : List Ty) :
    (s.substitute (.ofArguments (R.typeParameters c) arguments)).classifier
      = s.classifier := by
  refine classifier_substitute ?_
  cases hstar : s.star with
  | true => exact .inl rfl
  | false =>
      refine .inr (Substitution.lookup_eq_none fun b hb heq => ?_)
      exact h ⟨s, hs, hstar, heq ▸ Substitution.mem_ofArguments hb⟩

/-- Below a class that declares no parameter as a supertype, substituted supertypes have
the declared classifiers. -/
theorem declares_substituted
    {c : ClassifierId}
    (h : ¬ R.DeclaresParameter c)
    {s : Ty}
    (hs : s ∈ R.supertypes c)
    (arguments : List Ty) :
    R.Declares c (s.substitute (.ofArguments (R.typeParameters c) arguments)).classifier := by
  rw [classifier_substituted h hs]
  exact List.mem_map_of_mem hs

/-- A type that is viewed as a classifier has it already, or one of its supertypes is
viewed as that. -/
theorem viewWithin_cases
    {levels : Nat}
    {t v : Ty}
    {g : Walk.Guard ClassifierId}
    (h : (R.viewWithin target levels t g).1 = some v) :
    t.classifier = target
      ∨ ∃ rest, levels = rest + 1 ∧ ∃ s ∈ R.supertypes t.classifier, ∃ g',
        (R.viewWithin target rest
          (s.substitute (.ofArguments (R.typeParameters t.classifier) t.arguments)) g').1
          = some v := by
  unfold viewWithin at h
  split at h
  · rename_i heq
    exact .inl heq
  · refine .inr ?_
    split at h
    · cases h
    · rename_i c hc
      split at h
      · cases h
      · split at h
        · cases levels with
          | zero => cases h
          | succ rest =>
              obtain ⟨t', ht', g', hview⟩ := exists_of_firstView h
              obtain ⟨s, hs, rfl⟩ := List.mem_map.mp ht'
              have hparameters : R.typeParameters t.classifier = c.typeParameters := by
                simp [typeParameters, hc]
              refine ⟨rest, rfl, s, by simpa [supertypes, hc] using hs, g', ?_⟩
              rw [hparameters]
              exact hview
        · cases h

theorem below_of_viewWithin
    {levels : Nat}
    {t v : Ty}
    {g : Walk.Guard ClassifierId}
    (hregular : ∀ c, R.Below t.classifier c → ¬ R.DeclaresParameter c)
    (h : (R.viewWithin target levels t g).1 = some v) :
    R.Below t.classifier target := by
  induction levels generalizing t g with
  | zero =>
      rcases viewWithin_cases h with heq | ⟨rest, hrest, -⟩
      · exact heq ▸ .refl
      · cases hrest
  | succ levels ih =>
      rcases viewWithin_cases h with heq | ⟨rest, hrest, s, hs, g', hview⟩
      · exact heq ▸ .refl
      · cases hrest
        have hstep := declares_substituted (hregular _ .refl) hs t.arguments
        exact .head hstep (ih (fun c hc => hregular c (.head hstep hc)) hview)

/-- A type is only viewed as a classifier above its own, unless a supertype on the way is
a type parameter of the class that declares it. -/
theorem below_of_subtypeView
    {t v : Ty}
    (hregular : ∀ c, R.Below t.classifier c → ¬ R.DeclaresParameter c)
    (h : R.subtypeView? t target = some v) :
    R.Below t.classifier target := by
  unfold subtypeView? at h
  split at h
  · rename_i heq
    rw [heq]
    exact .refl
  · obtain ⟨w, hw, -⟩ := Option.map_eq_some_iff.mp h
    exact below_of_viewWithin hregular hw

end Registry
end Wiring
