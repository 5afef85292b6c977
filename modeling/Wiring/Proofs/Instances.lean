import Wiring.Proofs.Offer
import Wiring.Proofs.Unification

/-!
# Bounds of instantiated type parameters

A generic declaration is instantiated for a request by unification, which compares the
request with the declared type part by part and never looks at the upper bounds of type
parameters.  Only assignability does, and it is not asked about a type parameter that was
replaced.  So the bounds are kept exactly if the request keeps them itself.

Which parts of a request the type parameters stand for is a matter of its shape.  It does
not depend on the order in which the parts are compared.

**Results.**
* `lookup_unifyWithin`: unification binds a type parameter to the parts it stands for.
* `instantiatedWithinBounds_iff`: the type parameters of a declaration that matches are
  instantiated within their bounds exactly if these parts are within the bounds.
-/

namespace Wiring

/-! ## Bindings -/

namespace Substitution

/-- A parameter that is not bound yet is bound to a star projection if it is one of the
declared ones. -/
theorem lookup_starRest
    (σ : Substitution)
    (parameters : List ClassifierId)
    (c : ClassifierId) :
    (σ.starRest parameters).lookup c
      = (σ.lookup c).or (if c ∈ parameters then some .starProjection else none) := by
  unfold starRest
  induction parameters generalizing σ with
  | nil => simp
  | cons p parameters ih =>
      rw [List.foldl_cons, ih]
      have hinsert : (σ.insertNew p .starProjection).lookup c
          = (σ.lookup c).or (if c = p then some .starProjection else none) := by
        unfold insertNew
        cases hp : σ.lookup p with
        | none => exact lookup_concat σ p _ c
        | some w =>
            by_cases hc : c = p
            · rw [hc, hp]
              rfl
            · rw [if_neg hc, Option.or_none]
      rw [hinsert]
      by_cases hc : c = p
      · cases σ.lookup c <;> simp [hc]
      · simp [hc]

end Substitution

namespace Registry

variable {R : Registry} {σ σ' : Substitution} {c : ClassifierId} {v : Ty}

/-- Binding a parameter adds this binding and keeps the others. -/
theorem lookup_bindParameter
    {p : ClassifierId}
    {w : Ty}
    (h : bindParameter σ p w = some σ') :
    σ'.lookup c = some v ↔ σ.lookup c = some v ∨ (p = c ∧ w = v) := by
  unfold bindParameter at h
  split at h
  · rename_i bound hbound
    split at h
    · rename_i heq
      cases h
      refine ⟨.inl, ?_⟩
      rintro (h | ⟨rfl, rfl⟩)
      · exact h
      · exact heq ▸ hbound
    · cases h
  · rename_i hnone
    cases h
    rw [Substitution.lookup_concat]
    by_cases hc : c = p
    · subst hc
      simp [hnone]
    · have hne : ¬ p = c := fun h => hc h.symm
      simp [hc, hne]

/-! ## Parts of a request -/

/-- Whether a type parameter, as it occurs in a pattern, stands for a part of a concrete
type. -/
inductive StandsFor (R : Registry) : (concrete pattern part occurrence : Ty) → Prop
  | here {concrete pattern : Ty} :
      pattern.star = false →
      R.isTypeParameter pattern.classifier = true →
      concrete.star = false →
      StandsFor R concrete pattern concrete pattern
  | inside {concrete pattern view a p part occurrence : Ty} :
      pattern.star = false →
      R.isTypeParameter pattern.classifier = false →
      concrete.star = false →
      R.subtypeView? concrete pattern.classifier = some view →
      (a, p) ∈ view.arguments.zip pattern.arguments →
      StandsFor R a p part occurrence →
      StandsFor R concrete pattern part occurrence

/-- Whether a pattern binds a type parameter to a type, which is a part of the concrete one
that the parameter stands for. -/
def BindsTo (R : Registry) (concrete pattern : Ty) (c : ClassifierId) (v : Ty) : Prop :=
  ∃ part occurrence, R.StandsFor concrete pattern part occurrence
    ∧ occurrence.classifier = c ∧ parameterValue part occurrence = v

theorem lookup_foldlM
    {f : Ty → Ty → Substitution → Option Substitution}
    {binds : Ty → Ty → ClassifierId → Ty → Prop}
    (hf : ∀ {a p : Ty} {σ σ' : Substitution}, f a p σ = some σ' →
      ∀ c v, σ'.lookup c = some v ↔ σ.lookup c = some v ∨ binds a p c v)
    {pairs : List (Ty × Ty)}
    (h : pairs.foldlM (fun σ p => f p.1 p.2 σ) σ = some σ') :
    σ'.lookup c = some v ↔ σ.lookup c = some v ∨ ∃ p ∈ pairs, binds p.1 p.2 c v := by
  induction pairs generalizing σ with
  | nil =>
      cases h
      simp
  | cons first rest ih =>
      rw [List.foldlM_cons] at h
      obtain ⟨σ₁, h₁, h₂⟩ := Option.bind_eq_some_iff.mp h
      rw [ih h₂, hf h₁ c v]
      simp [or_assoc]

section Patterns

variable {concrete pattern view : Ty}

theorem StandsFor.star
    {part occurrence : Ty}
    (h : R.StandsFor concrete pattern part occurrence) :
    concrete.star = false ∧ part.star = false := by
  induction h with
  | here _ _ hstar => exact ⟨hstar, hstar⟩
  | inside _ _ hstar _ _ _ ih => exact ⟨hstar, ih.2⟩

theorem not_bindsTo_star
    (hstar : pattern.star = true) :
    ¬ R.BindsTo concrete pattern c v := by
  rintro ⟨part, occurrence, hstands, -⟩
  cases hstands with
  | here hpattern => simp [hstar] at hpattern
  | inside hpattern => simp [hstar] at hpattern

theorem not_bindsTo_of_star
    (hstar : concrete.star = true) :
    ¬ R.BindsTo concrete pattern c v := by
  rintro ⟨part, occurrence, hstands, -⟩
  simp [hstands.star.1] at hstar

/-- A type parameter stands for the whole type. -/
theorem bindsTo_parameter_iff
    (hstar : pattern.star = false)
    (hparameter : R.isTypeParameter pattern.classifier = true)
    (hconcrete : concrete.star = false) :
    R.BindsTo concrete pattern c v
      ↔ pattern.classifier = c ∧ parameterValue concrete pattern = v := by
  constructor
  · rintro ⟨part, occurrence, hstands, hbinding⟩
    cases hstands with
    | here => exact hbinding
    | inside _ hclassifier => simp [hparameter] at hclassifier
  · intro hbinding
    exact ⟨concrete, pattern, .here hstar hparameter hconcrete, hbinding⟩

/-- The type parameters inside another pattern stand for what they stand for in its
arguments. -/
theorem bindsTo_arguments_iff
    (hstar : pattern.star = false)
    (hparameter : R.isTypeParameter pattern.classifier = false)
    (hconcrete : concrete.star = false)
    (hview : R.subtypeView? concrete pattern.classifier = some view) :
    R.BindsTo concrete pattern c v
      ↔ ∃ p ∈ view.arguments.zip pattern.arguments, R.BindsTo p.1 p.2 c v := by
  constructor
  · rintro ⟨part, occurrence, hstands, hbinding⟩
    cases hstands with
    | here _ hclassifier => simp [hparameter] at hclassifier
    | @inside _ _ view' a p _ _ _ _ _ hview' hpair hstands =>
        cases hview.symm.trans hview'
        exact ⟨(a, p), hpair, part, occurrence, hstands, hbinding⟩
  · rintro ⟨⟨a, p⟩, hpair, part, occurrence, hstands, hbinding⟩
    exact ⟨part, occurrence, .inside hstar hparameter hconcrete hview hpair hstands, hbinding⟩

/-- Unification binds each type parameter to the parts it stands for, and to nothing
else. -/
theorem lookup_unifyWithin
    {levels : Nat}
    (h : R.unifyWithin levels concrete pattern σ = some σ')
    (c : ClassifierId)
    (v : Ty) :
    σ'.lookup c = some v ↔ σ.lookup c = some v ∨ R.BindsTo concrete pattern c v := by
  induction levels generalizing concrete pattern σ σ' c v with
  | zero => cases h
  | succ levels ih =>
      unfold unifyWithin at h
      by_cases hstar : pattern.star = true
      · rw [if_pos hstar] at h
        cases h
        exact (or_iff_left (not_bindsTo_star hstar)).symm
      rw [if_neg hstar] at h
      rw [Bool.not_eq_true] at hstar
      by_cases hparameter : R.isTypeParameter pattern.classifier = true
      · rw [if_pos hparameter] at h
        by_cases hconcrete : concrete.star = true
        · rw [if_pos hconcrete] at h
          cases h
          exact (or_iff_left (not_bindsTo_of_star hconcrete)).symm
        rw [if_neg hconcrete] at h
        rw [Bool.not_eq_true] at hconcrete
        split at h
        · rw [lookup_bindParameter h, bindsTo_parameter_iff hstar hparameter hconcrete]
        · cases h
      rw [if_neg hparameter] at h
      rw [Bool.not_eq_true] at hparameter
      by_cases hconcrete : concrete.star = true
      · rw [if_pos hconcrete] at h
        cases h
      rw [if_neg hconcrete] at h
      rw [Bool.not_eq_true] at hconcrete
      split at h
      · cases h
      rename_i view hview
      split at h
      · rw [lookup_foldlM (f := R.unifyWithin levels) (fun h => ih h) h,
          bindsTo_arguments_iff hstar hparameter hconcrete hview]
      · cases h

end Patterns

end Registry

/-! ## Instances of declarations -/

/-- The type that a declaration has to produce to satisfy a request: a declaration with
assisted parameters satisfies requests for functions that return it. -/
def Entry.produced? (e : Entry) (requested : Ty) : Option Ty :=
  if e.declaration.hasAssisted then requested.functionParts?.map Prod.snd else some requested

namespace Registry

variable {R : Registry} {σ : Substitution} {e : Entry} {t : Ty} {context : CallContext}
  {m : Match}

/-- The type of a declaration as the classifier that is to be produced, if it can be viewed
as that. -/
def patternFor (R : Registry) (d : Declaration) (produced : Ty) : Ty :=
  (R.subtypeView? d.type produced.classifier).getD d.type

/-- What becomes of a declaration whose type parameters are replaced. -/
def instanceOf (R : Registry) (d : Declaration) (σ : Substitution) : Declaration :=
  { d.substitute σ with
    type := R.erase (d.substitute σ).type
    parameters := (d.substitute σ).parameters.map (fun p => { p with type := R.erase p.type }) }

/-- Whether a type is assignable to all upper bounds of a type parameter. -/
def WithinBounds (R : Registry) (parameter : ClassifierId) (v : Ty) : Prop :=
  ∀ bound ∈ R.upperBounds parameter, R.isAssignable v bound = true

/-- Whether the substitution that made an instance of a declaration binds each of its type
parameters to a star projection or to a type within the bounds. -/
def InstantiatedWithinBounds (R : Registry) (e : Entry) (t : Ty) (made : Declaration) :
    Prop :=
  ∃ produced σ, e.produced? t = some produced
    ∧ R.instantiation? e.declaration produced = some σ
    ∧ made = R.instanceOf e.declaration σ
    ∧ ∀ c ∈ e.declaration.typeParameters,
        ∃ v, σ.lookup c = some v ∧ (v.star = true ∨ R.WithinBounds c v)

/-- Whether the parts of the produced type that a declaration's type parameters stand for
are within their bounds.  For the top type nothing is compared. -/
def PartsWithinBounds (R : Registry) (e : Entry) (t : Ty) : Prop :=
  ∀ produced, e.produced? t = some produced → produced.classifier ≠ .any →
    ∀ part occurrence,
      R.StandsFor produced (R.patternFor e.declaration produced) part occurrence →
      occurrence.classifier ∈ e.declaration.typeParameters →
      R.WithinBounds occurrence.classifier (parameterValue part occurrence)

/-- A generic declaration that matches is instantiated by a substitution. -/
theorem exists_instantiation?
    (h : R.match? e t context = some m)
    (hgeneric : e.declaration.typeParameters ≠ []) :
    ∃ produced σ, e.produced? t = some produced
      ∧ R.instantiation? e.declaration produced = some σ
      ∧ m.declaration = R.instanceOf e.declaration σ := by
  obtain ⟨-, hinstance, -⟩ := match?_eq_some h
  have hproduced : ∃ produced, e.produced? t = some produced
      ∧ R.instantiate? e.declaration produced = some m.declaration := by
    have heq := hinstance.instance_eq
    rw [hinstance.assisted] at heq
    unfold Entry.produced?
    split at heq
    · rename_i hassisted
      obtain ⟨parameters, returns, hparts, hmade, -⟩ := heq
      exact ⟨returns, by rw [if_pos hassisted, hparts]; rfl, hmade⟩
    · rename_i hassisted
      exact ⟨t, if_neg hassisted, heq.1⟩
  obtain ⟨produced, hproduced, hmade⟩ := hproduced
  unfold instantiate? at hmade
  rw [if_neg (by simp [hgeneric])] at hmade
  obtain ⟨σ, hσ, hmade⟩ := Option.map_eq_some_iff.mp hmade
  exact ⟨produced, σ, hproduced, hσ, hmade.symm⟩

/-- The type parameters of a declaration are bound to the parts they stand for, and to star
projections where they stand for none. -/
theorem lookup_instantiation?
    {d : Declaration}
    {produced : Ty}
    (h : R.instantiation? d produced = some σ)
    {c : ClassifierId}
    (hc : c ∈ d.typeParameters) :
    (∃ v, σ.lookup c = some v ∧ (v = .starProjection
        ∨ (produced.classifier ≠ .any ∧ R.BindsTo produced (R.patternFor d produced) c v)))
      ∧ ∀ v, produced.classifier ≠ .any → R.BindsTo produced (R.patternFor d produced) c v →
        σ.lookup c = some v := by
  unfold instantiation? at h
  split at h
  · rename_i hwide
    cases h
    have hlookup : (Substitution.starRest [] d.typeParameters).lookup c
        = some .starProjection := by
      rw [Substitution.lookup_starRest, if_pos hc]
      rfl
    refine ⟨⟨_, hlookup, .inl rfl⟩, ?_⟩
    rintro v hany ⟨part, occurrence, hstands, -⟩
    simp [hstands.star.1, hany] at hwide
  · rename_i hwide
    obtain ⟨found, hfound, rfl⟩ := Option.map_eq_some_iff.mp h
    have hbinds := lookup_unifyWithin hfound c
    have hany : produced.classifier ≠ .any := by
      intro hany
      simp [hany] at hwide
    rw [Substitution.lookup_starRest, if_pos hc]
    constructor
    · cases hlookup : found.lookup c with
      | none => exact ⟨.starProjection, rfl, .inl rfl⟩
      | some w =>
          exact ⟨w, rfl, .inr ⟨hany, ((hbinds w).mp hlookup).resolve_left (by simp)⟩⟩
    · intro v _ hv
      rw [(hbinds v).mpr (.inr hv)]
      rfl

/-- A declaration that matches is instantiated within the bounds of its type parameters
exactly if the parts of the request that they stand for are within these bounds. -/
theorem instantiatedWithinBounds_iff
    (h : R.match? e t context = some m)
    (hgeneric : e.declaration.typeParameters ≠ []) :
    R.InstantiatedWithinBounds e t m.declaration ↔ R.PartsWithinBounds e t := by
  constructor
  · rintro ⟨produced, σ, hproduced, hσ, -, hwithin⟩ produced' hproduced' hany part occurrence
      hstands hmem
    cases hproduced.symm.trans hproduced'
    obtain ⟨v, hv, hbounds⟩ := hwithin occurrence.classifier hmem
    have hpart := (lookup_instantiation? hσ hmem).2 _ hany
      ⟨part, occurrence, hstands, rfl, rfl⟩
    cases hv.symm.trans hpart
    have hstar : (parameterValue part occurrence).star = false := hstands.star.2
    rcases hbounds with hbounds | hbounds
    · rw [hstar] at hbounds
      cases hbounds
    · exact hbounds
  · intro hparts
    obtain ⟨produced, σ, hproduced, hσ, hmade⟩ := exists_instantiation? h hgeneric
    refine ⟨produced, σ, hproduced, hσ, hmade, fun c hc => ?_⟩
    obtain ⟨v, hv, hfrom⟩ := (lookup_instantiation? hσ hc).1
    refine ⟨v, hv, ?_⟩
    rcases hfrom with rfl | ⟨hany, part, occurrence, hstands, rfl, rfl⟩
    · exact .inl rfl
    · exact .inr (hparts produced hproduced hany part occurrence hstands hc)

/-- A generic box of entities, and a class that is no entity. -/
def entityBoxes : Registry :=
  { Registry.initial with
    registered :=
      #[ { name := ⟨"Entity"⟩ },
        { name := ⟨"T"⟩, flags := [.typeParameter], upperBounds := [.of ⟨16⟩] },
        { name := ⟨"Box"⟩, typeParameters := [⟨17⟩] },
        { name := ⟨"Int"⟩ } ] }

/-- A declaration of boxes for any entity. -/
def boxEntry : Entry where
  declaration :=
    { name := ⟨"app.box"⟩
      type := .generic ⟨18⟩ [.of ⟨17⟩]
      typeParameters := [⟨17⟩] }

/-- The match of the declaration for a box of what is no entity. -/
def intBox : Match where
  declaration := { name := ⟨"app.box"⟩, type := .generic ⟨18⟩ [.of ⟨19⟩] }
  declared := boxEntry.declaration
  receivers := []
  rawType := .generic ⟨18⟩ [.of ⟨17⟩]
  assisted := false

theorem intBox_match? :
    entityBoxes.match? boxEntry (.generic ⟨18⟩ [.of ⟨19⟩]) .plain = some intBox := by
  decide +kernel

theorem intBox_instantiatedWithinBounds_iff :
    entityBoxes.InstantiatedWithinBounds boxEntry (.generic ⟨18⟩ [.of ⟨19⟩])
        intBox.declaration
      ↔ entityBoxes.PartsWithinBounds boxEntry (.generic ⟨18⟩ [.of ⟨19⟩]) :=
  instantiatedWithinBounds_iff intBox_match? (by decide)

/-- What is put into the box is no entity. -/
theorem intBox_not_instantiatedWithinBounds :
    entityBoxes.match? boxEntry (.generic ⟨18⟩ [.of ⟨19⟩]) .plain = some intBox
      ∧ ¬ entityBoxes.InstantiatedWithinBounds boxEntry (.generic ⟨18⟩ [.of ⟨19⟩])
        intBox.declaration := by
  refine ⟨intBox_match?, ?_⟩
  rintro ⟨produced, σ, hproduced, hσ, -, hwithin⟩
  cases hproduced
  have hbindings : entityBoxes.instantiation? boxEntry.declaration (.generic ⟨18⟩ [.of ⟨19⟩])
      = some [(⟨17⟩, .of ⟨19⟩)] := by
    decide +kernel
  cases hbindings.symm.trans hσ
  obtain ⟨v, hv, hbounds⟩ := hwithin ⟨17⟩ List.mem_cons_self
  cases hv
  rcases hbounds with hstar | hbounds
  · exact absurd hstar (by decide)
  · have hentity := hbounds (.of ⟨16⟩) (by decide +kernel)
    exact absurd hentity (by decide +kernel)

end Registry
end Wiring
