import Mathlib.Data.List.Induction
import Wiring.Proofs.Derivation

/-!
# What a scope offers

A candidate taken apart: which declaration or input it comes from, how that fits the
request, and which type the node gets.

**Results.**
* `match?_eq_some`: a declaration that matches is instantiated for the request and can
  be called.
* `ownCandidate_of_mem`: what a scope itself offers, by kind.
* `Offered.declaration`: where a declaration that is offered is declared.
-/

namespace Wiring

section Distinct

variable {α : Type} [DecidableEq α]

theorem distinct_concat
    (as : List α)
    (a : α) :
    distinct (as ++ [a])
      = if a ∈ distinct as then distinct as else distinct as ++ [a] := by
  unfold distinct
  rw [List.foldl_append]
  rfl

@[simp] theorem mem_distinct
    {as : List α}
    {a : α} :
    a ∈ distinct as ↔ a ∈ as := by
  induction as using List.reverseRecOn with
  | nil => simp [distinct]
  | append_singleton as b ih =>
      rw [distinct_concat]
      split
      · rename_i hb
        constructor
        · intro ha
          exact List.mem_append_left _ (ih.mp ha)
        · intro ha
          rcases List.mem_append.mp ha with ha | ha
          · exact ih.mpr ha
          · rwa [List.mem_singleton.mp ha]
      · simp [ih]

theorem nodup_distinct (as : List α) : (distinct as).Nodup := by
  induction as using List.reverseRecOn with
  | nil => simp [distinct]
  | append_singleton as b ih =>
      rw [distinct_concat]
      split
      · exact ih
      · rename_i hb
        refine List.nodup_append.mpr ⟨ih, by simp, ?_⟩
        rintro a ha c hc rfl
        exact hb (List.mem_singleton.mp hc ▸ ha)

end Distinct

namespace Registry

/-- How a declaration was instantiated that matches a request. -/
structure Instantiates (R : Registry) (e : Entry) (t : Ty) (m : Match) : Prop where
  declared : m.declared = e.declaration
  receivers : m.receivers = e.receivers
  instance_eq :
    if m.assisted then
      ∃ parameters returns, t.functionParts? = some (parameters, returns)
        ∧ R.instantiate? e.declaration returns = some m.declaration
        ∧ R.isAssignable m.declaration.type returns = true
        ∧ allPairs R.isAssignable parameters
          (m.declaration.assistedParameters.map Parameter.type) = true
    else
      R.instantiate? e.declaration t = some m.declaration
        ∧ R.isAssignable m.declaration.type t = true
  assisted : m.assisted = e.declaration.hasAssisted

/-- A declaration matches a request if it can be called and is instantiated for it. -/
theorem match?_eq_some
    {R : Registry}
    {e : Entry}
    {t : Ty}
    {context : CallContext}
    {m : Match}
    (h : R.match? e t context = some m) :
    context.canCall e.declaration.callKind = true ∧ R.Instantiates e t m
      ∧ m.declaredIn = none := by
  unfold match? at h
  split at h
  · cases h
  · rename_i hcall
    refine ⟨by simpa using hcall, ?_⟩
    split at h
    · rename_i hassisted
      unfold matchAssisted? at h
      split at h
      · cases h
      · rename_i parameters returns hparts
        split at h
        · cases h
        · rename_i d hd
          split at h
          · rename_i hfits
            obtain ⟨hreturns, hparameters⟩ := Bool.and_eq_true_iff.mp hfits
            cases h
            refine ⟨⟨rfl, rfl, ?_, hassisted.symm⟩, rfl⟩
            exact ⟨parameters, returns, hparts, hd, hreturns, hparameters⟩
          · cases h
    · rename_i hassisted
      split at h
      · cases h
      · rename_i d hd
        split at h
        · rename_i hfits
          cases h
          refine ⟨⟨rfl, rfl, ?_, ?_⟩, rfl⟩
          · exact ⟨hd, hfits⟩
          · simpa using hassisted
        · cases h

/-- What matches is an instance for some type. -/
theorem Instantiates.exists_instantiate?
    {R : Registry}
    {e : Entry}
    {t : Ty}
    {m : Match}
    (h : R.Instantiates e t m) :
    ∃ t', R.instantiate? e.declaration t' = some m.declaration := by
  have heq := h.instance_eq
  split at heq
  · obtain ⟨parameters, returns, -, hinstance, -⟩ := heq
    exact ⟨returns, hinstance⟩
  · exact ⟨t, heq.1⟩

/-- Substitution and erasure leave a star projection alone, so the instance of a star
projection is one. -/
theorem star_of_instantiate?
    {R : Registry}
    {d d' : Declaration}
    {t : Ty}
    (h : R.instantiate? d t = some d')
    (hstar : d.type.star = true) :
    d'.type.star = true := by
  unfold instantiate? at h
  split at h
  · cases h
    exact hstar
  · obtain ⟨σ, -, rfl⟩ := Option.map_eq_some_iff.mp h
    change (erase R (d.type.substitute σ)).star = true
    generalize d.type = type at hstar
    obtain ⟨c, arguments, q, n, s⟩ := type
    cases hstar
    simp [Ty.substitute, erase]

end Registry

/-! ## Candidates taken apart -/

/-- What a scope itself offers, by kind. -/
inductive OwnCandidate (B : Build) (s : Scope) (t : Ty) : Candidate → Prop
  | inheritedBinding {e : Entry} {above : ScopeId} {m : Match} :
      (e, above) ∈ s.inheritedBindings →
      B.registry.match? e t s.context = some m →
      OwnCandidate B s t (.declaration { m with declaredIn := some above })
  | binding {e : Entry} {m : Match} :
      e ∈ s.bindings →
      B.registry.match? e t s.context = some m →
      OwnCandidate B s t (.declaration m)
  | inheritedInput {i : InheritedInput} :
      i ∈ s.inheritedInputs →
      B.registry.isAssignable i.type t = true →
      OwnCandidate B s t (.input i.index i.type (some i.declaredIn))
  | input {index : Nat} {type : Ty} :
      s.inputs[index]? = some type →
      B.registry.isAssignable type t = true →
      OwnCandidate B s t (.input index type none)
  | object :
      B.registry.hasFlag t.classifier .object = true →
      OwnCandidate B s t (.object t.nonNull)
  | funAlias {d : Declaration} :
      B.catalog.alias? t.classifier = some d →
      s.context.canCall d.callKind = true →
      OwnCandidate B s t (.funAlias d t.nonNull)
  | provider {parameters : List Ty} {returns : Ty} :
      t.functionParts? = some (parameters, returns) →
      OwnCandidate B s t (.provider t.nonNull parameters returns)
  | set {element : Ty} :
      t.setElement? = some element →
      OwnCandidate B s t (.set t.nonNull element)

/-- Everything that a scope itself offers is of one of these kinds. -/
theorem ownCandidate_of_mem
    {B : Build}
    {s : Scope}
    {t : Ty}
    {c : Candidate}
    (h : c ∈ s.candidatesFor B.registry B.catalog t) :
    OwnCandidate B s t c := by
  have hmem := mem_distinct.mp h
  simp only [List.mem_append] at hmem
  rcases hmem with ((((hmem | hmem) | hmem) | hmem) | hmem) | hmem
  · rcases List.mem_append.mp hmem with hmem | hmem
    · obtain ⟨⟨e, above⟩, hin, hmap⟩ := List.mem_filterMap.mp hmem
      obtain ⟨m, hm, rfl⟩ := Option.map_eq_some_iff.mp hmap
      exact .inheritedBinding hin hm
    · obtain ⟨e, hin, hmap⟩ := List.mem_filterMap.mp hmem
      obtain ⟨m, hm, rfl⟩ := Option.map_eq_some_iff.mp hmap
      exact .binding hin hm
  · rcases List.mem_append.mp hmem with hmem | hmem
    · obtain ⟨i, hin, rfl⟩ := List.mem_map.mp hmem
      obtain ⟨hin, hfits⟩ := List.mem_filter.mp hin
      exact .inheritedInput hin hfits
    · obtain ⟨p, hin, rfl⟩ := List.mem_map.mp hmem
      obtain ⟨hin, hfits⟩ := List.mem_filter.mp hin
      exact .input (List.mem_zipIdx_iff_getElem?.mp hin) hfits
  · unfold Scope.objectCandidate at hmem
    split at hmem
    · rename_i hobject
      rw [List.mem_singleton.mp hmem]
      exact .object (Bool.and_eq_true_iff.mp hobject).2
    · exact nomatch hmem
  · unfold Scope.aliasCandidate at hmem
    split at hmem
    · split at hmem
      · rename_i d hd
        split at hmem
        · rename_i hcall
          rw [List.mem_singleton.mp hmem]
          exact .funAlias hd hcall
        · exact nomatch hmem
      · exact nomatch hmem
    · exact nomatch hmem
  · unfold Scope.providerCandidate at hmem
    split at hmem
    · rename_i parameters returns hparts
      split at hmem
      · exact nomatch hmem
      · rw [List.mem_singleton.mp hmem]
        exact .provider hparts
    · exact nomatch hmem
  · unfold Scope.setCandidate at hmem
    split at hmem
    · rename_i element helement
      rw [List.mem_singleton.mp hmem]
      exact .set helement
    · exact nomatch hmem

/-- Where a declaration is found that a scope offers for a type. -/
inductive DeclaredAt (B : Build) (s : Scope) (t : Ty) (e : Entry) : Option ScopeId → Prop
  | own : e ∈ s.bindings → DeclaredAt B s t e none
  | inherited {above : ScopeId} :
      (e, above) ∈ s.inheritedBindings → DeclaredAt B s t e (some above)
  | implicit : e ∈ B.catalog.implicitFor t.classifier → DeclaredAt B s t e none

/-- A declaration that is offered is one of the scope, one that it inherits or a global
one, and matches in the scope's call context. -/
theorem Offered.declaration
    {B : Build}
    {s : Scope}
    {t : Ty}
    {m : Match}
    (h : Offered B s t (.declaration m)) :
    ∃ e, DeclaredAt B s t e m.declaredIn
      ∧ s.context.canCall e.declaration.callKind = true
      ∧ B.registry.Instantiates e t m := by
  cases h with
  | own hmem =>
      cases ownCandidate_of_mem hmem with
      | inheritedBinding hin hm =>
          obtain ⟨hcall, hinst, -⟩ := Registry.match?_eq_some hm
          exact ⟨_, .inherited hin, hcall, ⟨hinst.1, hinst.2, hinst.3, hinst.4⟩⟩
      | binding hin hm =>
          obtain ⟨hcall, hinst, hnone⟩ := Registry.match?_eq_some hm
          rw [hnone]
          exact ⟨_, .own hin, hcall, hinst⟩
  | implicit hin hm =>
      obtain ⟨hcall, hinst, hnone⟩ := Registry.match?_eq_some hm
      rw [hnone]
      exact ⟨_, .implicit hin, hcall, hinst⟩

/-- An inherited input that is offered fits. -/
theorem Offered.inheritedInput
    {B : Build}
    {s : Scope}
    {t type : Ty}
    {index : Nat}
    {above : ScopeId}
    (h : Offered B s t (.input index type (some above))) :
    ⟨index, type, above⟩ ∈ s.inheritedInputs
      ∧ B.registry.isAssignable type t = true := by
  cases h with
  | own hmem =>
      cases ownCandidate_of_mem hmem with
      | inheritedInput hin hfits => exact ⟨hin, hfits⟩

/-- A declaration that a star projection is the type of is instantiated as one. -/
theorem Supplied.star
    {B : Build}
    {declaredIn : Option ScopeId}
    {key : Option Ty}
    {e : Entry}
    {declared : Declaration}
    (h : Supplied B declaredIn key e declared false)
    (hstar : declared.type.star = true) :
    e.declaration.type.star = true := by
  generalize hassisted : false = assisted at h
  cases h with
  | offered hoffered =>
      obtain ⟨e, -, -, hinst⟩ := hoffered.declaration
      have heq := hinst.instance_eq
      rw [← hassisted] at heq
      rw [hinst.declared] at hstar
      exact Registry.star_of_instantiate? heq.1 hstar
  | entry => exact hstar

end Wiring
