import Wiring.Proofs.Traversal.Construction

/-!
# Searches are derivations

The tiers of a request and the ancestors of a scope are searched as the rules for
derivations say, so a whole resolution is a derivation if it ends with an answer and a
failing search if not.

**Results.**
* `Resolve.request_sound`: this for a request at any depth.
* `Graph.resolve_ok`, `Graph.resolve_error`: what it says of a top-level request.
-/

namespace Wiring

/-- Whether an error says that there were too many requests, open or in all. -/
def ResolutionError.isLimit : ResolutionError → Bool
  | depthExceeded .. => true
  | stepBudgetExceeded .. => true
  | _ => false

/-! ## Ancestries -/

/-- A list follows the parent links from a scope, in a rooted tree up to the end. -/
def IsPath (g : Graph) : Option ScopeId → List Scope → Prop
  | none, [] => True
  | some scope, [] => g.Rooted → g.scope? scope = none
  | none, _ :: _ => False
  | some scope, s :: ancestors => g.scope? scope = some s ∧ IsPath g s.parent ancestors

theorem isPath_ancestryWithin
    (g : Graph)
    (steps : Nat)
    (scope : ScopeId)
    (hsteps : g.Rooted → scope.index < steps ∨ g.scopes.size ≤ scope.index) :
    IsPath g (some scope) (ancestryWithin g.scopes steps scope) := by
  induction steps generalizing scope with
  | zero =>
      intro hg
      rcases hsteps hg with hlt | hsize
      · omega
      · exact Array.getElem?_eq_none_iff.mpr hsize
  | succ steps ih =>
      unfold ancestryWithin
      cases hs : g.scopes[scope.index]? with
      | none => exact fun _ => hs
      | some s =>
          dsimp only
          cases hp : s.parent with
          | none => exact ⟨hs, by simp [IsPath, hp]⟩
          | some parent =>
              refine ⟨hs, ?_⟩
              rw [hp]
              refine ih parent (fun hg => .inl ?_)
              have hlt := hg _ _ _ hs hp
              have hscope := (Array.getElem?_eq_some_iff.mp hs).1
              rcases hsteps hg with hsteps | hsteps <;> omega

/-- The ancestry of a scope follows its parent links. -/
theorem Graph.isPath_path (g : Graph) (scope : ScopeId) :
    IsPath g (some scope) (g.path scope) :=
  isPath_ancestryWithin g g.scopes.size scope (fun _ => by omega)

theorem IsPath.withMemo
    {g : Graph}
    {scope : Option ScopeId}
    {path : List Scope}
    (h : IsPath g scope path)
    (m : Memo) :
    IsPath (g.withMemo m) scope path := by
  induction path generalizing scope with
  | nil =>
      cases scope with
      | none => trivial
      | some scope => exact h
  | cons s ancestors ih =>
      cases scope with
      | none => exact h
      | some scope => exact ⟨h.1, ih h.2⟩

namespace Resolve

/-! ## Tiers -/

section Tiers

variable {B : Build} {resolve : ScopeId → Request → Resolve NodeId}

section OrTry

variable {α : Type} {first second : Resolve (Option α)} {s s' : Search}

theorem orTry_eq_some {a : α} :
    orTry first second s = .ok (some a) s' ↔
      first s = .ok (some a) s'
        ∨ ∃ s₁, first s = .ok none s₁ ∧ second s₁ = .ok (some a) s' := by
  unfold orTry
  rw [bind_eq_ok]
  constructor
  · rintro ⟨found, s₁, h₁, h₂⟩
    cases found with
    | none => exact .inr ⟨s₁, h₁, h₂⟩
    | some b =>
        obtain ⟨hb, rfl⟩ := pure_eq_ok.mp h₂
        cases hb
        exact .inl h₁
  · rintro (h | ⟨s₁, h₁, h₂⟩)
    · exact ⟨some a, s', h, rfl⟩
    · exact ⟨none, s₁, h₁, h₂⟩

theorem orTry_eq_none :
    orTry first second s = .ok none s' ↔
      ∃ s₁, first s = .ok none s₁ ∧ second s₁ = .ok none s' := by
  unfold orTry
  rw [bind_eq_ok]
  constructor
  · rintro ⟨found, s₁, h₁, h₂⟩
    cases found with
    | none => exact ⟨s₁, h₁, h₂⟩
    | some b => exact nomatch (pure_eq_ok.mp h₂).1
  · rintro ⟨s₁, h₁, h₂⟩
    exact ⟨none, s₁, h₁, h₂⟩

theorem orTry_eq_error {e : ResolutionError} :
    orTry first second s = .error e s' ↔
      first s = .error e s'
        ∨ ∃ s₁, first s = .ok none s₁ ∧ second s₁ = .error e s' := by
  unfold orTry
  rw [bind_eq_error]
  constructor
  · rintro (h | ⟨found, s₁, h₁, h₂⟩)
    · exact .inl h
    · cases found with
      | none => exact .inr ⟨s₁, h₁, h₂⟩
      | some b => exact absurd h₂ pure_ne_error
  · rintro (h | ⟨s₁, h₁, h₂⟩)
    · exact .inl h
    · exact .inr ⟨none, s₁, h₁, h₂⟩

end OrTry

theorem mostSpecific_eq_absent
    {α : Type}
    {rawType : α → Ty}
    {t : Ty}
    {as : List α}
    (h : mostSpecific rawType t as = .absent) :
    as = [] := by
  unfold mostSpecific at h
  split at h
  · rfl
  · cases h
  · split at h <;> cases h

theorem tryTier_eq_some
    {scope : ScopeId}
    {r : Request}
    {tier : Tier}
    {candidates : List Candidate}
    {id : NodeId}
    {s s' : Search}
    (h : tryTier B resolve scope r tier candidates s = .ok (some id) s') :
    candidates ≠ []
      ∧ ∃ c, mostSpecific Candidate.rawType r.type candidates = .chosen c
        ∧ nodeOf B resolve scope r c s = .ok id s' := by
  unfold tryTier at h
  cases hc : mostSpecific Candidate.rawType r.type candidates with
  | absent =>
      rw [hc] at h
      exact nomatch (pure_eq_ok.mp h).1
  | chosen c =>
      rw [hc] at h
      obtain ⟨id', s₁, h₁, h₂⟩ := bind_eq_ok.mp h
      obtain ⟨hid, rfl⟩ := pure_eq_ok.mp h₂
      cases hid
      refine ⟨?_, c, rfl, h₁⟩
      rintro rfl
      cases hc
  | ambiguous several =>
      rw [hc] at h
      exact absurd h throw_ne_ok

theorem tryTier_eq_none
    {scope : ScopeId}
    {r : Request}
    {tier : Tier}
    {candidates : List Candidate}
    {s s' : Search}
    (h : tryTier B resolve scope r tier candidates s = .ok none s') :
    candidates = [] ∧ s' = s := by
  unfold tryTier at h
  cases hc : mostSpecific Candidate.rawType r.type candidates with
  | absent =>
      rw [hc] at h
      obtain ⟨-, rfl⟩ := pure_eq_ok.mp h
      exact ⟨mostSpecific_eq_absent hc, rfl⟩
  | chosen c =>
      rw [hc] at h
      obtain ⟨id', s₁, h₁, h₂⟩ := bind_eq_ok.mp h
      exact nomatch (pure_eq_ok.mp h₂).1
  | ambiguous several =>
      rw [hc] at h
      exact absurd h throw_ne_ok

theorem tryTier_error
    (hresolve : ∀ scope r, Sound B (resolve scope r) (.request scope r))
    {sc : Scope}
    {r : Request}
    {tier : Tier}
    {candidates : List Candidate}
    {e : ResolutionError}
    {s s' : Search}
    (hs : s.graph.Numbered)
    (hsc : s.graph.scope? sc.id = some sc)
    (hoffered : ∀ c ∈ candidates, Offered B sc r.type c)
    (h : tryTier B resolve sc.id r tier candidates s = .error e s') :
    Fails B s.chain.nodes s.graph s'.graph := by
  unfold tryTier at h
  cases hc : mostSpecific Candidate.rawType r.type candidates with
  | absent =>
      rw [hc] at h
      exact absurd h pure_ne_error
  | chosen c =>
      rw [hc] at h
      rcases bind_eq_error.mp h with h₁ | ⟨id, s₁, h₁, h₂⟩
      · exact (nodeOf_sound hresolve
          (hoffered c (mem_of_mostSpecific_eq_chosen hc))).error hs h₁ (fun _ => hsc)
      · exact absurd h₂ pure_ne_error
  | ambiguous several =>
      rw [hc] at h
      obtain ⟨-, rfl⟩ := throw_eq_error.mp h
      exact .here

/-- What the tiers of one scope come to: a candidate of the first tier that has any,
or nothing if none has. -/
def ownTiers (B : Build) (resolve : ScopeId → Request → Resolve NodeId) (s : Scope)
    (r : Request) (path : List Scope) : Resolve (Option NodeId) :=
  let own := s.candidatesFor B.registry B.catalog r.type
  orTry (tryTier B resolve s.id r .explicit
    (own.filter (fun c => c.isExplicit && isVisible path c))) <|
  orTry (tryTier B resolve s.id r .internal
    (implicitCandidates B s path r.type false)) <|
  orTry (tryTier B resolve s.id r .external
    (implicitCandidates B s path r.type true)) <| do
  let offered ← frameworkCandidates B s path r.type own
  tryTier B resolve s.id r .framework offered

theorem orTry_assoc
    {α : Type}
    (a b c : Resolve (Option α)) :
    orTry (orTry a b) c = orTry a (orTry b c) := by
  unfold orTry
  rw [bind_assoc]
  congr 1
  funext found
  cases found <;> rfl

/-- Take over what the search of the parent comes to. -/
def inherit (scope : ScopeId) (t : Ty) (up : Resolve (Option NodeId)) :
    Resolve (Option NodeId) := do
  match ← up with
  | some id =>
      remember scope t id
      pure (some id)
  | none => pure none

/-- A scope looks for a remembered answer, then through its own tiers and then in its
parent. -/
theorem lookup_eq
    (r : Request)
    (scope : ScopeId)
    (s : Scope)
    (ancestors : List Scope) :
    lookup B resolve r (some scope) (s :: ancestors) =
      orTry (recalled scope r.type) (graph >>= fun g =>
        orTry (ownTiers B resolve s r (g.path s.id))
          (inherit s.id r.type (lookup B resolve r s.parent ancestors))) := by
  have hinherit : inherit s.id r.type (lookup B resolve r s.parent ancestors) =
      (lookup B resolve r s.parent ancestors >>= fun
        | some id => remember s.id r.type id >>= fun _ => pure (some id)
        | none => pure none) := rfl
  unfold ownTiers
  simp only [orTry_assoc]
  rw [hinherit]
  conv_lhs => rw [lookup]
  conv_rhs => rw [orTry]
  congr 1
  funext found
  cases found with
  | some id => rfl
  | none => rfl

theorem ownTiers_eq_some
    {s : Scope}
    {r : Request}
    {id : NodeId}
    {σ σ' : Search}
    (h : ownTiers B resolve s r (σ.graph.path s.id) σ = .ok (some id) σ') :
    ∃ candidates c σ₁,
      Offers B s r.type σ.graph candidates σ₁.graph
        ∧ σ₁.chain = σ.chain
        ∧ mostSpecific Candidate.rawType r.type candidates = .chosen c
        ∧ nodeOf B resolve s.id r c σ₁ = .ok id σ' := by
  rcases orTry_eq_some.mp h with h₁ | ⟨s₁, h₁, hrest₁⟩
  · obtain ⟨hne, c, hc, hnode⟩ := tryTier_eq_some h₁
    exact ⟨_, c, σ, .explicit hne, rfl, hc, hnode⟩
  obtain ⟨hexplicit, rfl⟩ := tryTier_eq_none h₁
  rcases orTry_eq_some.mp hrest₁ with h₂ | ⟨s₂, h₂, hrest₂⟩
  · obtain ⟨hne, c, hc, hnode⟩ := tryTier_eq_some h₂
    exact ⟨_, c, s₁, .internal hexplicit hne, rfl, hc, hnode⟩
  obtain ⟨hinternal, rfl⟩ := tryTier_eq_none h₂
  rcases orTry_eq_some.mp hrest₂ with h₃ | ⟨s₃, h₃, hrest₃⟩
  · obtain ⟨hne, c, hc, hnode⟩ := tryTier_eq_some h₃
    exact ⟨_, c, s₂, .external hexplicit hinternal hne, rfl, hc, hnode⟩
  obtain ⟨hexternal, rfl⟩ := tryTier_eq_none h₃
  obtain ⟨offered, s₄, hoffered, h₄⟩ := bind_eq_ok.mp hrest₃
  obtain ⟨-, c, hc, hnode⟩ := tryTier_eq_some h₄
  obtain ⟨m, -, rfl⟩ := (frameworkCandidates_onlyMemo B s _ _ _).ok hoffered
  exact ⟨offered, c, ⟨s₃.graph.withMemo m, s₃.chain⟩, .framework hexplicit hinternal hexternal hoffered, rfl, hc, hnode⟩

theorem ownTiers_eq_none
    {s : Scope}
    {r : Request}
    {σ σ' : Search}
    (h : ownTiers B resolve s r (σ.graph.path s.id) σ = .ok none σ') :
    Offers B s r.type σ.graph [] σ'.graph ∧ σ'.chain = σ.chain := by
  obtain ⟨s₁, h₁, hrest₁⟩ := orTry_eq_none.mp h
  obtain ⟨hexplicit, rfl⟩ := tryTier_eq_none h₁
  obtain ⟨s₂, h₂, hrest₂⟩ := orTry_eq_none.mp hrest₁
  obtain ⟨hinternal, rfl⟩ := tryTier_eq_none h₂
  obtain ⟨s₃, h₃, hrest₃⟩ := orTry_eq_none.mp hrest₂
  obtain ⟨hexternal, rfl⟩ := tryTier_eq_none h₃
  obtain ⟨offered, s₄, hoffered, h₄⟩ := bind_eq_ok.mp hrest₃
  obtain ⟨rfl, rfl⟩ := tryTier_eq_none h₄
  obtain ⟨m, -, rfl⟩ := (frameworkCandidates_onlyMemo B s _ _ _).ok hoffered
  exact ⟨.framework hexplicit hinternal hexternal hoffered, rfl⟩

theorem ownTiers_error
    (hresolve : ∀ scope r, Sound B (resolve scope r) (.request scope r))
    {s : Scope}
    {r : Request}
    {path : List Scope}
    {e : ResolutionError}
    {σ σ' : Search}
    (hσ : σ.graph.Numbered)
    (hsc : σ.graph.scope? s.id = some s)
    (h : ownTiers B resolve s r path σ = .error e σ') :
    Fails B σ.chain.nodes σ.graph σ'.graph := by
  rcases orTry_eq_error.mp h with h₁ | ⟨s₁, h₁, hrest₁⟩
  · exact tryTier_error hresolve hσ hsc (fun c hc => .own (List.mem_filter.mp hc).1) h₁
  obtain ⟨-, rfl⟩ := tryTier_eq_none h₁
  rcases orTry_eq_error.mp hrest₁ with h₂ | ⟨s₂, h₂, hrest₂⟩
  · exact tryTier_error hresolve hσ hsc (fun c hc => implicitCandidates_offered hc) h₂
  obtain ⟨-, rfl⟩ := tryTier_eq_none h₂
  rcases orTry_eq_error.mp hrest₂ with h₃ | ⟨s₃, h₃, hrest₃⟩
  · exact tryTier_error hresolve hσ hsc (fun c hc => implicitCandidates_offered hc) h₃
  obtain ⟨-, rfl⟩ := tryTier_eq_none h₃
  rcases bind_eq_error.mp hrest₃ with h₄ | ⟨offered, s₄, hoffered, h₄⟩
  · obtain ⟨m, hmerges, rfl⟩ := (frameworkCandidates_onlyMemo B s _ _ _).error h₄
    exact .merged hmerges .here
  · have hmem : ∀ c ∈ offered, Offered B s r.type c := fun c hc =>
      frameworkCandidates_offered hoffered hc
    obtain ⟨m, hmerges, rfl⟩ := (frameworkCandidates_onlyMemo B s _ _ _).ok hoffered
    exact .merged hmerges
      (tryTier_error hresolve (s := ⟨s₃.graph.withMemo m, s₃.chain⟩) hσ hsc hmem h₄)

theorem recalled_eq_some
    {scope : ScopeId}
    {t : Ty}
    {id : NodeId}
    {s s' : Search}
    (h : recalled scope t s = .ok (some id) s') :
    s' = s ∧ s.graph.answers.find? scope t = some id
      ∧ s.graph.Admits s.chain.nodes id := by
  unfold recalled at h
  obtain ⟨found, s₁, h₁, h₂⟩ := bind_eq_ok.mp h
  cases h₁
  cases hfound : s.graph.answers.find? scope t with
  | none =>
      rw [hfound] at h₂
      exact nomatch (pure_eq_ok.mp h₂).1
  | some kept =>
      rw [hfound] at h₂
      dsimp only at h₂
      obtain ⟨_, s₂, hcheck, h₃⟩ := bind_eq_ok.mp h₂
      obtain ⟨rfl, hadmits⟩ := checkCycle_eq_ok hcheck
      obtain ⟨hid, rfl⟩ := pure_eq_ok.mp h₃
      cases hid
      exact ⟨rfl, rfl, hadmits⟩

theorem recalled_eq_none
    {scope : ScopeId}
    {t : Ty}
    {s s' : Search}
    (h : recalled scope t s = .ok none s') :
    s' = s ∧ s.graph.answers.find? scope t = none := by
  unfold recalled at h
  obtain ⟨found, s₁, h₁, h₂⟩ := bind_eq_ok.mp h
  cases h₁
  cases hfound : s.graph.answers.find? scope t with
  | none =>
      rw [hfound] at h₂
      exact ⟨(pure_eq_ok.mp h₂).2.symm, rfl⟩
  | some kept =>
      rw [hfound] at h₂
      dsimp only at h₂
      obtain ⟨_, s₂, hcheck, h₃⟩ := bind_eq_ok.mp h₂
      exact nomatch (pure_eq_ok.mp h₃).1

theorem recalled_eq_error
    {scope : ScopeId}
    {t : Ty}
    {e : ResolutionError}
    {s s' : Search}
    (h : recalled scope t s = .error e s') :
    s' = s ∧ ∃ links, e = .circular links := by
  unfold recalled at h
  rcases bind_eq_error.mp h with h₁ | ⟨found, s₁, h₁, h₂⟩
  · cases h₁
  · cases h₁
    cases hfound : s.graph.answers.find? scope t with
    | none =>
        rw [hfound] at h₂
        exact absurd h₂ pure_ne_error
    | some kept =>
        rw [hfound] at h₂
        dsimp only at h₂
        rcases bind_eq_error.mp h₂ with hcheck | ⟨_, s₂, hcheck, h₃⟩
        · exact checkCycle_eq_error hcheck
        · exact absurd h₃ pure_ne_error

section Inherit

variable {scope : ScopeId} {t : Ty} {up : Resolve (Option NodeId)} {s s' : Search}

theorem inherit_eq_some
    {id : NodeId}
    (h : inherit scope t up s = .ok (some id) s') :
    ∃ s₁, up s = .ok (some id) s₁ ∧ s' = ⟨s₁.graph.remember scope t id, s₁.chain⟩ := by
  obtain ⟨found, s₁, h₁, h₂⟩ := bind_eq_ok.mp h
  cases found with
  | none => exact nomatch (pure_eq_ok.mp h₂).1
  | some id' =>
      dsimp only at h₂
      rw [remember_bind_eq] at h₂
      obtain ⟨hid, rfl⟩ := pure_eq_ok.mp h₂
      cases hid
      exact ⟨s₁, h₁, rfl⟩

theorem inherit_eq_none (h : inherit scope t up s = .ok none s') :
    up s = .ok none s' := by
  obtain ⟨found, s₁, h₁, h₂⟩ := bind_eq_ok.mp h
  cases found with
  | none =>
      obtain ⟨-, rfl⟩ := pure_eq_ok.mp h₂
      exact h₁
  | some id' =>
      dsimp only at h₂
      rw [remember_bind_eq] at h₂
      exact nomatch (pure_eq_ok.mp h₂).1

theorem inherit_eq_error
    {e : ResolutionError}
    (h : inherit scope t up s = .error e s') :
    up s = .error e s' := by
  rcases bind_eq_error.mp h with h₁ | ⟨found, s₁, h₁, h₂⟩
  · exact h₁
  · cases found with
    | none => exact absurd h₂ pure_ne_error
    | some id' =>
        dsimp only at h₂
        rw [remember_bind_eq] at h₂
        exact absurd h₂ pure_ne_error

end Inherit

/-- What a scope itself offers answers the request. -/
theorem ownTiers_sound
    (hresolve : ∀ scope r, Sound B (resolve scope r) (.request scope r))
    {s : Scope}
    {r : Request}
    {id : NodeId}
    {σ σ' : Search}
    (hσ : σ.graph.Numbered)
    (hs : σ.graph.scope? s.id = some s)
    (hnone : σ.graph.answers.find? s.id r.type = none)
    (h : ownTiers B resolve s r (σ.graph.path s.id) σ = .ok (some id) σ') :
    σ'.chain.nodes = σ.chain.nodes
      ∧ Derives B σ.chain.nodes σ.graph (.search s.id r id) σ'.graph := by
  obtain ⟨candidates, c, σ₁, hoffers, hchain, hc, hnode⟩ := ownTiers_eq_some h
  obtain ⟨m, -, hm⟩ := hoffers.withMemo
  have hσ₁ : σ₁.graph.Numbered := by
    rw [hm]
    exact hσ
  have hoffered := hoffers.offered (mem_of_mostSpecific_eq_chosen hc)
  obtain ⟨hchain', hd⟩ := (nodeOf_sound hresolve hoffered).ok hσ₁ hnode
    (fun _ => by rw [hm]; exact hs)
  rw [hchain] at hchain' hd
  exact ⟨hchain', .chosen hnone hs rfl hoffers hc hd⟩

/-- What is found by looking through a scope and its ancestors is found by the rules. -/
theorem lookup_eq_some
    (hresolve : ∀ scope r, Sound B (resolve scope r) (.request scope r))
    {r : Request}
    {path : List Scope}
    {scope : Option ScopeId}
    {id : NodeId}
    {s s' : Search}
    (hs : s.graph.Numbered)
    (hpath : IsPath s.graph scope path)
    (h : lookup B resolve r scope path s = .ok (some id) s') :
    s'.chain.nodes = s.chain.nodes
      ∧ ∃ sc, scope = some sc
        ∧ Derives B s.chain.nodes s.graph (.search sc r id) s'.graph := by
  induction path generalizing scope s s' with
  | nil =>
      cases scope with
      | none => cases h
      | some scope =>
          obtain ⟨rfl, hfound, hadmits⟩ := recalled_eq_some h
          exact ⟨rfl, scope, rfl, .recalled hfound hadmits⟩
  | cons sc ancestors ih =>
      cases scope with
      | none => exact hpath.elim
      | some scope =>
          obtain ⟨hsc, hparent⟩ := hpath
          obtain rfl : sc.id = scope := hs _ _ hsc
          rw [lookup_eq] at h
          rcases orTry_eq_some.mp h with h₁ | ⟨s₁, h₁, h₂⟩
          · obtain ⟨rfl, hfound, hadmits⟩ := recalled_eq_some h₁
            exact ⟨rfl, sc.id, rfl, .recalled hfound hadmits⟩
          obtain ⟨rfl, hnone⟩ := recalled_eq_none h₁
          rw [graph_bind_eq] at h₂
          rcases orTry_eq_some.mp h₂ with h₃ | ⟨s₂, h₃, h₄⟩
          · obtain ⟨hchain, hd⟩ := ownTiers_sound hresolve hs hsc hnone h₃
            exact ⟨hchain, sc.id, rfl, hd⟩
          obtain ⟨hoffers, hchain⟩ := ownTiers_eq_none h₃
          obtain ⟨m, -, hm⟩ := hoffers.withMemo
          obtain ⟨s₃, hup, rfl⟩ := inherit_eq_some h₄
          obtain ⟨hchain', p, hp, hd⟩ := ih (by rw [hm]; exact hs)
            (by rw [hm]; exact hparent.withMemo m) hup
          rw [hchain] at hchain' hd
          exact ⟨hchain', sc.id, rfl, .inherited hnone hsc hoffers hp hd⟩

/-- Where nothing is found, only the memo changes. -/
theorem lookup_eq_none
    {r : Request}
    {path : List Scope}
    {scope : Option ScopeId}
    {s s' : Search}
    (hs : s.graph.Numbered)
    (hpath : IsPath s.graph scope path)
    (h : lookup B resolve r scope path s = .ok none s') :
    s'.chain = s.chain ∧ Absent B r.type scope s.graph s'.graph := by
  induction path generalizing scope s s' with
  | nil =>
      cases scope with
      | none =>
          cases h
          exact ⟨rfl, .top⟩
      | some scope =>
          obtain ⟨rfl, hnone⟩ := recalled_eq_none h
          exact ⟨rfl, .unknown hpath hnone⟩
  | cons sc ancestors ih =>
      cases scope with
      | none => exact hpath.elim
      | some scope =>
          obtain ⟨hsc, hparent⟩ := hpath
          obtain rfl : sc.id = scope := hs _ _ hsc
          rw [lookup_eq] at h
          obtain ⟨s₁, h₁, h₂⟩ := orTry_eq_none.mp h
          obtain ⟨rfl, hnone⟩ := recalled_eq_none h₁
          rw [graph_bind_eq] at h₂
          obtain ⟨s₂, h₃, h₄⟩ := orTry_eq_none.mp h₂
          obtain ⟨hoffers, hchain⟩ := ownTiers_eq_none h₃
          obtain ⟨m, -, hm⟩ := hoffers.withMemo
          obtain ⟨hchain', habsent⟩ := ih (by rw [hm]; exact hs)
            (by rw [hm]; exact hparent.withMemo m) (inherit_eq_none h₄)
          exact ⟨hchain'.trans hchain, .step hnone hsc hoffers habsent⟩

/-- Looking through a scope and its ancestors fails as a search does. -/
theorem lookup_eq_error
    (hresolve : ∀ scope r, Sound B (resolve scope r) (.request scope r))
    {r : Request}
    {path : List Scope}
    {scope : Option ScopeId}
    {e : ResolutionError}
    {s s' : Search}
    (hs : s.graph.Numbered)
    (hpath : IsPath s.graph scope path)
    (h : lookup B resolve r scope path s = .error e s') :
    Fails B s.chain.nodes s.graph s'.graph := by
  induction path generalizing scope s s' with
  | nil =>
      cases scope with
      | none => cases h
      | some scope =>
          rw [(recalled_eq_error h).1]
          exact .here
  | cons sc ancestors ih =>
      cases scope with
      | none => exact hpath.elim
      | some scope =>
          obtain ⟨hsc, hparent⟩ := hpath
          obtain rfl : sc.id = scope := hs _ _ hsc
          rw [lookup_eq] at h
          rcases orTry_eq_error.mp h with h₁ | ⟨s₁, h₁, h₂⟩
          · rw [(recalled_eq_error h₁).1]
            exact .here
          obtain ⟨rfl, hnone⟩ := recalled_eq_none h₁
          rw [graph_bind_eq] at h₂
          rcases orTry_eq_error.mp h₂ with h₃ | ⟨s₂, h₃, h₄⟩
          · exact ownTiers_error hresolve hs hsc h₃
          obtain ⟨hoffers, hchain⟩ := ownTiers_eq_none h₃
          obtain ⟨m, hmerges, hm⟩ := hoffers.withMemo
          have hup := ih (by rw [hm]; exact hs) (by rw [hm]; exact hparent.withMemo m)
            (inherit_eq_error h₄)
          rw [hchain, hm] at hup
          exact .merged hmerges hup

/-! ## Requests -/

/-- A request without candidates is answered by null, or it is left out. -/
theorem unresolved_eq_ok
    {scope : ScopeId}
    {r : Request}
    {id : NodeId}
    {s s₁ s' : Search}
    (hs : s.graph.Numbered)
    (hchain : s₁.chain = s.chain)
    (habsent : Absent B (B.registry.normalize r.type) (some scope) s.graph s₁.graph)
    (h : unresolved scope { r with type := B.registry.normalize r.type } s₁ = .ok id s') :
    s'.chain.nodes = s.chain.nodes
      ∧ Derives B s.chain.nodes s.graph (.request scope r id) s'.graph := by
  unfold unresolved at h
  split at h
  · rename_i hnullable
    obtain ⟨m, -, hm⟩ := habsent.withMemo
    have hs₁ : s₁.graph.Numbered := by
      rw [hm]
      exact hs
    obtain ⟨hchain', hd⟩ := (leaf_sound
      (n := .plain (B.registry.normalize r.type) scope .null) (.plain rfl)
      (B.registry.normalize r.type)).ok hs₁ h (fun _ => trivial)
    rw [hchain] at hchain' hd
    exact ⟨hchain', .null habsent hnullable hd⟩
  · rename_i hnullable
    split at h
    · rename_i hrequired
      cases h
      refine ⟨congrArg Chain.nodes hchain, .missing habsent ?_ ?_ (derives_leaf (.plain rfl))⟩
      · simpa using hnullable
      · simpa using hrequired
    · cases h

theorem unresolved_eq_error
    {scope : ScopeId}
    {r : Request}
    {e : ResolutionError}
    {s s' : Search}
    (h : unresolved scope r s = .error e s') :
    s' = s := by
  unfold unresolved at h
  split at h
  · cases h
  · split at h
    · cases h
    · cases h
      rfl

theorem answer_eq
    (scope : ScopeId)
    (r : Request)
    (s : Search) :
    answer B resolve scope r s =
      (lookup B resolve { r with type := B.registry.normalize r.type } (some scope)
          (s.graph.path scope) >>= fun
        | some id => pure id
        | none => unresolved scope { r with type := B.registry.normalize r.type }) s :=
  rfl

theorem answer_sound
    (hresolve : ∀ scope r, Sound B (resolve scope r) (.request scope r))
    (scope : ScopeId)
    (r : Request) :
    Sound B (answer B resolve scope r) (.request scope r) := by
  refine sound_of_ok_of_error ?_ ?_
  · intro s id s' hs h
    rw [answer_eq] at h
    obtain ⟨found, s₁, h₁, h₂⟩ := bind_eq_ok.mp h
    cases found with
    | some id' =>
        obtain ⟨rfl, rfl⟩ := pure_eq_ok.mp h₂
        obtain ⟨hchain, sc, hsc, hd⟩ :=
          lookup_eq_some hresolve hs (s.graph.isPath_path scope) h₁
        cases hsc
        exact ⟨hchain, .found hd⟩
    | none =>
        obtain ⟨hchain, habsent⟩ := lookup_eq_none hs (s.graph.isPath_path scope) h₁
        exact unresolved_eq_ok hs hchain habsent h₂
  · intro s e s' hs h
    rw [answer_eq] at h
    rcases bind_eq_error.mp h with h₁ | ⟨found, s₁, h₁, h₂⟩
    · exact lookup_eq_error hresolve hs (s.graph.isPath_path scope) h₁
    · cases found with
      | some id => exact absurd h₂ pure_ne_error
      | none =>
          obtain ⟨-, habsent⟩ := lookup_eq_none hs (s.graph.isPath_path scope) h₁
          obtain ⟨m, hmerges, hm⟩ := habsent.withMemo
          rw [unresolved_eq_error h₂, hm]
          exact .merged hmerges .here

end Tiers

/-- A request is refused, which leaves the graph alone, or it is opened and answered
with one level less. -/
theorem request_eq
    (B : Build)
    (levels : Nat)
    (scope : ScopeId)
    (r : Request)
    (s : Search) :
    (∃ e c, e.isLimit = true ∧ request B levels scope r s = .error e ⟨s.graph, c⟩)
      ∨ ∃ below counter, levels = below + 1
        ∧ request B levels scope r s
          = withRequest counter r (answer B (request B below) scope r) s := by
  unfold request
  rcases s.chain.counter.enter with ⟨outcome, counter⟩
  cases outcome with
  | entered =>
      cases levels with
      | zero => exact .inl ⟨_, _, rfl, rfl⟩
      | succ below => exact .inr ⟨below, counter, rfl, rfl⟩
  | repeated => exact .inl ⟨_, _, rfl, rfl⟩
  | tooDeep => exact .inl ⟨_, _, rfl, rfl⟩
  | outOfSteps => exact .inl ⟨_, _, rfl, rfl⟩

theorem withRequest_sound
    {B : Build}
    {step : Resolve NodeId}
    {J : NodeId → Judgement}
    (h : Sound B step J)
    (counter : Walk.Counter)
    (r : Request) :
    Sound B (withRequest counter r step) J := by
  intro s hs hJ
  have hstep := h ⟨s.graph, s.chain.openRequest counter r⟩ hs hJ
  unfold withRequest bracket
  dsimp only
  cases hrun : step ⟨s.graph, s.chain.openRequest counter r⟩ with
  | ok id s' =>
      rw [hrun] at hstep
      exact hstep
  | error e s' =>
      rw [hrun] at hstep
      exact hstep

/-- A request at any depth is a derivation if it ends with an answer and a failing
search if not. -/
theorem request_sound
    (B : Build)
    (levels : Nat)
    (scope : ScopeId)
    (r : Request) :
    Sound B (request B levels scope r) (.request scope r) := by
  induction levels generalizing scope r with
  | zero =>
      intro s hs _
      rcases request_eq B 0 scope r s with ⟨e, c, -, hrefused⟩ | ⟨below, counter, hlevels, -⟩
      · rw [hrefused]
        exact .here
      · cases hlevels
  | succ levels ih =>
      intro s hs hJ
      rcases request_eq B (levels + 1) scope r s with
        ⟨e, c, -, hrefused⟩ | ⟨below, counter, hlevels, hopened⟩
      · rw [hrefused]
        exact .here
      · cases hlevels
        rw [hopened]
        exact withRequest_sound (answer_sound ih scope r) counter r s hs hJ

end Resolve

/-! ## Top-level requests -/

namespace Graph

/-- A top-level request that is answered is a derivation on the empty stack, after
which the request is a root. -/
theorem resolve_ok
    {B : Build}
    {g g' : Graph}
    (hg : g.Numbered)
    {scope : ScopeId}
    {r : Request}
    {id : NodeId}
    (h : g.resolve B scope r = (.ok id, g')) :
    ∃ g₁, Derives B [] g (.request scope r id) g₁
      ∧ g' = { g₁ with roots := g₁.roots ++ [⟨scope, r, id⟩] } := by
  have hsound := Resolve.request_sound B B.options.maxDepth scope r
    ⟨g, .start B.options⟩ hg (fun _ => trivial)
  unfold Graph.resolve at h
  split at h
  · rename_i id' s hrun
    rw [hrun] at hsound
    cases h
    exact ⟨s.graph, hsound.2, rfl⟩
  · cases h

/-- A top-level request that is not answered is a failing search on the empty stack,
which is rolled back. -/
theorem resolve_error
    {B : Build}
    {g g' : Graph}
    (hg : g.Numbered)
    {scope : ScopeId}
    {r : Request}
    {e : ResolutionError}
    (h : g.resolve B scope r = (.error e, g')) :
    ∃ g₁, Fails B [] g g₁ ∧ g' = g₁.rollback g.nodes.size g.scopes.size := by
  have hsound := Resolve.request_sound B B.options.maxDepth scope r
    ⟨g, .start B.options⟩ hg (fun _ => trivial)
  unfold Graph.resolve at h
  split at h
  · cases h
  · rename_i e' s hrun
    rw [hrun] at hsound
    cases h
    exact ⟨s.graph, hsound, rfl⟩

end Graph
end Wiring
