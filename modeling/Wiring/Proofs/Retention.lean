import Wiring.Proofs.Retention.Construction

/-!
# Searches keep answers

A scope and its ancestors are searched only while they have no answer, so what they
remember in the end replaces nothing that was there when the search began.

**Results.**
* `Resolve.request_retains`: a request at any depth keeps all answers from before it,
  with whatever outcome.
-/

namespace Wiring
namespace Resolve

variable {B : Build} {base : Answers} {resolve : ScopeId → Request → Resolve NodeId}

/-! ## Tiers -/

theorem tryTier_retains
    (hresolve : ∀ scope r, Retaining base (resolve scope r))
    {scope : ScopeId}
    {r : Request}
    (hnone : base.find? scope r.type = none)
    (tier : Tier)
    (candidates : List Candidate) :
    Retaining base (tryTier B resolve scope r tier candidates) := by
  intro s hs
  unfold tryTier
  cases mostSpecific Candidate.rawType r.type candidates with
  | absent => exact .pure hs none
  | chosen c =>
      exact .bind (nodeOf_retains hresolve hnone c s hs) (fun _ _ _ hs₁ => .pure hs₁ _)
  | ambiguous several => exact .throw hs _

theorem ownTiers_retains
    (hresolve : ∀ scope r, Retaining base (resolve scope r))
    {sc : Scope}
    {r : Request}
    (hnone : base.find? sc.id r.type = none)
    (path : List Scope) :
    Retaining base (ownTiers B resolve sc r path) := by
  intro s hs
  have htier : ∀ tier candidates,
      Retaining base (tryTier B resolve sc.id r tier candidates) :=
    tryTier_retains hresolve hnone
  refine .orTry (htier .explicit _ s hs) (fun s₁ _ hs₁ => ?_)
  refine .orTry (htier .internal _ s₁ hs₁) (fun s₂ _ hs₂ => ?_)
  refine .orTry (htier .external _ s₂ hs₂) (fun s₃ _ hs₃ => ?_)
  refine .bind ((frameworkCandidates_onlyMemo B sc path r.type _).retaining s₃ hs₃)
    (fun offered s₄ _ hs₄ => ?_)
  exact htier .framework offered s₄ hs₄

/-! ## Ancestors -/

/-- Whether the scopes of a list know the positions that lead from one to the next. -/
def Follows : Option ScopeId → List Scope → Prop
  | some scope, s :: ancestors => s.id = scope ∧ Follows s.parent ancestors
  | _, _ => True

theorem follows_of_isPath
    {g : Graph}
    (hg : g.Numbered)
    {scope : Option ScopeId}
    {path : List Scope}
    (h : IsPath g scope path) :
    Follows scope path := by
  induction path generalizing scope with
  | nil =>
      cases scope with
      | none => trivial
      | some scope => trivial
  | cons s ancestors ih =>
      cases scope with
      | none => trivial
      | some scope => exact ⟨hg _ _ h.1, ih h.2⟩

theorem recalled_retains
    (scope : ScopeId)
    (t : Ty) :
    Retaining base (recalled scope t) := by
  intro s hs
  refine .of_unchanged hs (.of_outcomes (fun found s' h => ?_) (fun e s' h => ?_))
  · cases found with
    | none => exact (recalled_eq_none h).1
    | some id => exact (recalled_eq_some h).1
  · exact (recalled_eq_error h).1

/-- A scope takes over the answer of its parent where it had none itself. -/
theorem inherit_retains
    {scope : ScopeId}
    {t : Ty}
    (hnone : base.find? scope t = none)
    {up : Resolve (Option NodeId)}
    (hup : Retaining base up) :
    Retaining base (inherit scope t up) := by
  intro s hs
  refine .bind (hup s hs) (fun found s₁ _ hs₁ => ?_)
  cases found with
  | none => exact .pure hs₁ none
  | some id =>
      have hkept : Ends (fun s' => s'.graph.Retains base) (remember scope t id) s₁ :=
        hs₁.remember hnone id
      exact .bind hkept (fun _ _ _ hs₂ => .pure hs₂ _)

theorem lookup_retains
    (hresolve : ∀ scope r, Retaining base (resolve scope r))
    (r : Request)
    {scope : Option ScopeId}
    {path : List Scope}
    (hpath : Follows scope path) :
    Retaining base (lookup B resolve r scope path) := by
  induction path generalizing scope with
  | nil =>
      cases scope with
      | none => exact fun s hs => .pure hs none
      | some scope => exact recalled_retains scope r.type
  | cons sc ancestors ih =>
      cases scope with
      | none => exact fun s hs => .pure hs none
      | some scope =>
          obtain ⟨rfl, hancestors⟩ := hpath
          intro s hs
          rw [lookup_eq]
          refine .orTry (recalled_retains sc.id r.type s hs) (fun s₁ h₁ hs₁ => ?_)
          have hnone := hs.absent (recalled_eq_none h₁).2
          refine .congr ?_ (graph_bind_eq _ s₁)
          refine .orTry (ownTiers_retains hresolve hnone _ s₁ hs₁) (fun s₂ _ hs₂ => ?_)
          exact inherit_retains hnone (ih hancestors) s₂ hs₂

/-- Where nothing is found, the scope that asks had no answer. -/
theorem find?_of_lookup_eq_none
    {r : Request}
    {scope : ScopeId}
    {path : List Scope}
    {s s' : Search}
    (h : lookup B resolve r (some scope) path s = .ok none s') :
    s.graph.answers.find? scope r.type = none := by
  cases path with
  | nil => exact (recalled_eq_none h).2
  | cons sc ancestors =>
      rw [lookup_eq] at h
      obtain ⟨s₁, h₁, -⟩ := orTry_eq_none.mp h
      exact (recalled_eq_none h₁).2

/-! ## Requests -/

theorem unresolved_retains
    {scope : ScopeId}
    {r : Request}
    (hnone : base.find? scope r.type = none) :
    Retaining base (unresolved scope r) := by
  intro s hs
  unfold Ends unresolved
  by_cases hnullable : r.type.nullable = true
  · rw [if_pos hnullable]
    have happend : (s.graph.append (.plain r.type scope .null)).Retains base :=
      hs.of_eq rfl rfl
    exact happend.remember hnone s.graph.nextId
  · rw [if_neg hnullable]
    by_cases hrequired : (!r.required) = true
    · rw [if_pos hrequired]
      exact hs.of_eq rfl rfl
    · rw [if_neg hrequired]
      exact hs

theorem answer_retains
    (hresolve : ∀ scope r, Retaining base (resolve scope r))
    (scope : ScopeId)
    (r : Request) :
    Retaining base (answer B resolve scope r) := by
  intro s hs
  have hpath := follows_of_isPath hs.numbered (s.graph.isPath_path scope)
  refine .congr ?_ (answer_eq scope r s)
  refine .bind (lookup_retains hresolve _ hpath s hs) (fun found s₁ h₁ hs₁ => ?_)
  cases found with
  | some id => exact .pure hs₁ id
  | none => exact unresolved_retains (hs.absent (find?_of_lookup_eq_none h₁)) s₁ hs₁

/-- A request at any depth keeps all answers from before it, with whatever outcome. -/
theorem request_retains
    (B : Build)
    (base : Answers)
    (levels : Nat)
    (scope : ScopeId)
    (r : Request) :
    Retaining base (request B levels scope r) := by
  induction levels generalizing scope r with
  | zero =>
      intro s hs
      rcases request_eq B 0 scope r s with ⟨e, c, -, hrefused⟩ | ⟨below, counter, hlevels, -⟩
      · have hsame : (Search.mk s.graph c).graph.Retains base := hs
        exact .of_error hsame hrefused
      · cases hlevels
  | succ levels ih =>
      intro s hs
      rcases request_eq B (levels + 1) scope r s with
        ⟨e, c, -, hrefused⟩ | ⟨below, counter, hlevels, hopened⟩
      · have hsame : (Search.mk s.graph c).graph.Retains base := hs
        exact .of_error hsame hrefused
      · cases hlevels
        exact .congr ((answer_retains ih scope r).bracket _ _ s hs) hopened

end Resolve
end Wiring
