import Wiring.Proofs.History.Progress.Construction

/-!
# Searches where an answer is straight

If a request has a straight answer in one graph, then a search for it in an alike scope
of another graph cannot find that nothing is there, that several candidates fit or that
a collection does not merge.  It can only run out of depth or steps, or run into a
circle that is not put off.

**Results.**
* `Resolve.lookup_spares`: looking through the scopes of an ancestry.
* `Resolve.request_spares`: this for a request at any depth.
-/

namespace Wiring
namespace Resolve

/-! ## Tiers -/

section Tiers

variable {B : Build} {resolve : ScopeId → Request → Resolve NodeId}

theorem tryTier_eq_error
    {scope : ScopeId}
    {r : Request}
    {tier : Tier}
    {candidates : List Candidate}
    {e : ResolutionError}
    {s s' : Search}
    (h : tryTier B resolve scope r tier candidates s = .error e s') :
    candidates ≠ []
      ∧ ((∃ several, mostSpecific Candidate.rawType r.type candidates = .ambiguous several)
        ∨ ∃ c, mostSpecific Candidate.rawType r.type candidates = .chosen c
          ∧ nodeOf B resolve scope r c s = .error e s') := by
  unfold tryTier at h
  cases hc : mostSpecific Candidate.rawType r.type candidates with
  | absent =>
      rw [hc] at h
      exact absurd h pure_ne_error
  | chosen c =>
      rw [hc] at h
      refine ⟨?_, .inr ⟨c, rfl, ?_⟩⟩
      · rintro rfl
        cases hc
      · rcases bind_eq_error.mp h with h₁ | ⟨id, s₁, h₁, h₂⟩
        · exact h₁
        · exact absurd h₂ pure_ne_error
  | ambiguous several =>
      refine ⟨?_, .inl ⟨several, rfl⟩⟩
      rintro rfl
      cases hc

/-- The tiers of a scope fail if what the scope offers cannot be merged, if it cannot
choose from it, or if the node of its choice fails. -/
theorem ownTiers_eq_error
    {s : Scope}
    {r : Request}
    {e : ResolutionError}
    {σ σ' : Search}
    (hσ : σ.graph.Faithful B)
    (h : ownTiers B resolve s r (σ.graph.path s.id) σ = .error e σ') :
    Pick.offer B s (σ.graph.path s.id) r.type = .error e
      ∨ ∃ candidates σ₁,
        Offers B s r.type σ.graph candidates σ₁.graph
          ∧ ((∃ several,
              mostSpecific Candidate.rawType r.type candidates = .ambiguous several)
            ∨ ∃ c, mostSpecific Candidate.rawType r.type candidates = .chosen c
              ∧ nodeOf B resolve s.id r c σ₁ = .error e σ') := by
  rcases orTry_eq_error.mp h with h₁ | ⟨s₁, h₁, hrest₁⟩
  · obtain ⟨hne, herror⟩ := tryTier_eq_error h₁
    exact .inr ⟨_, σ, .explicit hne, herror⟩
  obtain ⟨hexplicit, rfl⟩ := tryTier_eq_none h₁
  rcases orTry_eq_error.mp hrest₁ with h₂ | ⟨s₂, h₂, hrest₂⟩
  · obtain ⟨hne, herror⟩ := tryTier_eq_error h₂
    exact .inr ⟨_, s₁, .internal hexplicit hne, herror⟩
  obtain ⟨hinternal, rfl⟩ := tryTier_eq_none h₂
  rcases orTry_eq_error.mp hrest₂ with h₃ | ⟨s₃, h₃, hrest₃⟩
  · obtain ⟨hne, herror⟩ := tryTier_eq_error h₃
    exact .inr ⟨_, s₂, .external hexplicit hinternal hne, herror⟩
  obtain ⟨hexternal, rfl⟩ := tryTier_eq_none h₃
  rcases bind_eq_error.mp hrest₃ with h₄ | ⟨offered, s₄, hoffered, h₄⟩
  · refine .inl ?_
    have hcomputes := (frameworkCandidates_computes hσ s r.type
      (s.candidatesFor B.registry B.catalog r.type)).error h₄
    have hexplicit' : Pick.explicitCandidates B s (s₃.graph.path s.id) r.type = [] :=
      hexplicit
    unfold Pick.offer
    rw [hexplicit', hinternal, hexternal]
    exact hcomputes
  · obtain ⟨-, herror⟩ := tryTier_eq_error h₄
    exact .inr ⟨offered, s₄, .framework hexplicit hinternal hexternal hoffered, herror⟩

/-- Whether an ancestry comes to a choice whose node is spared, or to nothing. -/
structure SparesChoice (B : Build) (resolve : ScopeId → Request → Resolve NodeId)
    (g : Graph) (r : Request) (path : List Scope) : Prop where
  chooses : Pick.along B r.type path ≠ .refused
  chosen {s : Scope} {c : Candidate} :
    Pick.along B r.type path = .chosen s c →
    Offered B s r.type c →
    ∀ m chain, g.Merges B m → Spares (nodeOf B resolve s.id r c) ⟨g.withMemo m, chain⟩

/-- The tiers of a scope. -/
theorem SparesChoice.ownTiers
    {g : Graph}
    (hg : g.Faithful B)
    {s : Scope}
    {r : Request}
    {ancestors : List Scope}
    (hpath : g.path s.id = s :: ancestors)
    (h : SparesChoice B resolve g r (s :: ancestors))
    {m : Memo}
    (hm : g.Merges B m)
    (chain : Chain) :
    Spares (ownTiers B resolve s r (g.path s.id)) ⟨g.withMemo m, chain⟩ := by
  intro e σ' herror
  have hσ := hg.merges hm
  rcases ownTiers_eq_error (σ := ⟨g.withMemo m, chain⟩) hσ herror with
    hoffer | ⟨candidates, σ₁, hoffers, hchoice⟩
  · refine absurd ?_ h.chooses
    have hoffer' : Pick.offer B s (s :: ancestors) r.type = .error e := hpath ▸ hoffer
    rw [Pick.along, hoffer']
  · have hoffer : Pick.offer B s (s :: ancestors) r.type = .ok candidates :=
      hpath ▸ hoffers.eq_offer hσ
    obtain ⟨m', hm', hg₁⟩ := hoffers.withMemo
    rcases hchoice with ⟨several, hseveral⟩ | ⟨c, hc, hnode⟩
    · refine absurd ?_ h.chooses
      rw [Pick.along, hoffer]
      dsimp only
      rw [hseveral]
    · have hσ₁ : σ₁ = ⟨g.withMemo m', σ₁.chain⟩ := by
        rw [show g.withMemo m' = σ₁.graph from hg₁.symm]
      rw [hσ₁] at hnode
      exact h.chosen (Pick.along_of_chosen hoffer hc)
        (hoffers.offered (mem_of_mostSpecific_eq_chosen hc)) m' σ₁.chain
        (hm.trans hm') e σ' hnode

/-- Looking through a scope, if what follows is spared in case it offers nothing. -/
theorem SparesChoice.step
    {g : Graph}
    (hg : g.Faithful B)
    {s : Scope}
    {r : Request}
    {ancestors : List Scope}
    (hpath : g.path s.id = s :: ancestors)
    (h : SparesChoice B resolve g r (s :: ancestors))
    (hup : Pick.offer B s (s :: ancestors) r.type = .ok [] → ∀ m chain, g.Merges B m →
      Spares (lookup B resolve r s.parent ancestors) ⟨g.withMemo m, chain⟩)
    {m : Memo}
    (hm : g.Merges B m)
    (chain : Chain) :
    Spares (lookup B resolve r (some s.id) (s :: ancestors)) ⟨g.withMemo m, chain⟩ := by
  intro e σ' herror
  rw [lookup_eq] at herror
  rcases orTry_eq_error.mp herror with h₁ | ⟨s₁, h₁, h₂⟩
  · exact spares_circular (fun _ _ => recalled_eq_error) e σ' h₁
  obtain ⟨rfl, -⟩ := recalled_eq_none h₁
  rw [graph_bind_eq] at h₂
  rcases orTry_eq_error.mp h₂ with h₃ | ⟨s₂, h₃, h₄⟩
  · exact h.ownTiers hg hpath hm chain e σ' h₃
  obtain ⟨hoffers, -⟩ := ownTiers_eq_none (σ := ⟨g.withMemo m, chain⟩) h₃
  have hoffer : Pick.offer B s (s :: ancestors) r.type = .ok [] :=
    hpath ▸ hoffers.eq_offer (hg.merges hm)
  obtain ⟨m', hm', hg₂⟩ := hoffers.withMemo
  have hs₂ : s₂ = ⟨g.withMemo m', s₂.chain⟩ := by
    rw [show g.withMemo m' = s₂.graph from hg₂.symm]
  rw [hs₂] at h₄
  exact hup hoffer m' s₂.chain (hm.trans hm') e σ' (inherit_eq_error h₄)

/-- If a scope offers nothing, its ancestors come to the same. -/
theorem SparesChoice.parent
    {g : Graph}
    {s : Scope}
    {r : Request}
    {ancestors : List Scope}
    (h : SparesChoice B resolve g r (s :: ancestors))
    (hoffer : Pick.offer B s (s :: ancestors) r.type = .ok []) :
    SparesChoice B resolve g r ancestors := by
  have halong := Pick.along_of_offer_nil hoffer
  exact
    { chooses := halong ▸ h.chooses
      chosen := fun hc => h.chosen (halong.trans hc) }

/-- Looking through the scopes of an ancestry. -/
theorem lookup_spares
    {g : Graph}
    (hg : g.Faithful B)
    {r : Request}
    {scope : ScopeId}
    {path : List Scope}
    (hpath : Lineage g.scopes scope path)
    (h : SparesChoice B resolve g r path)
    {m : Memo}
    (hm : g.Merges B m)
    (chain : Chain) :
    Spares (lookup B resolve r (some scope) path) ⟨g.withMemo m, chain⟩ := by
  induction hpath generalizing m chain with
  | @root scope s hs hp =>
      obtain rfl : s.id = scope := hg.tree.numbered _ _ hs
      refine h.step hg (Lineage.root hs hp).path_eq (fun _ m chain _ => ?_) hm chain
      rw [hp]
      exact spares_pure none
  | @child scope parent s ancestors hs hp hlt hancestors ih =>
      obtain rfl : s.id = scope := hg.tree.numbered _ _ hs
      refine h.step hg (Lineage.child hs hp hlt hancestors).path_eq
        (fun hoffer m chain hm => ?_) hm chain
      rw [hp]
      exact ih (h.parent hoffer) hm chain

end Tiers

/-! ## Requests -/

section Requests

variable {B : Build} {resolve : ScopeId → Request → Resolve NodeId} {g' : Graph}
  {S : Answering}

theorem mem_of_along
    {t : Ty}
    {path : List Scope}
    {s : Scope}
    {c : Candidate}
    (h : Pick.along B t path = .chosen s c) :
    s ∈ path := by
  induction path with
  | nil => exact nomatch h
  | cons s' ancestors ih =>
      rw [Pick.along] at h
      split at h
      · cases h
      · split at h
        · exact List.mem_cons_of_mem s' (ih h)
        · cases h
          exact List.mem_cons_self
        · cases h

/-- A choice that is realized in one graph is spared in alike scopes of another one. -/
theorem sparesChoice_of_chooses
    (hresolve : ∀ scope r, Sound B (resolve scope r) (.request scope r))
    (hspares : SparesNested B resolve g' S)
    (hg' : g'.Faithful B)
    {ρ : Equiv.Perm ScopeId}
    {g : Graph}
    (hg : g.Faithful B)
    {scope : ScopeId}
    (hscope : g'.AlikeBy ρ g scope)
    {t : Ty}
    {required : Bool}
    {id : NodeId}
    (h : g'.Chooses B S scope t required id)
    {r : Request}
    (hr : r.type = B.registry.normalize t) :
    SparesChoice B resolve g r (g.path (ρ scope)) := by
  obtain ⟨n, hnode, hchoice, hsupports⟩ := h
  have halong := hscope.along B r.type
  refine
    { chooses := ?_
      chosen := ?_ }
  · intro hrefused
    rw [halong, Pick.rename_eq_refused, hr] at hrefused
    rw [Graph.choice?_of_refused hrefused] at hchoice
    cases hchoice
  · intro s c hchosen hoffered m chain hm
    rw [halong] at hchosen
    cases hpick : Pick.along B r.type (g'.path scope) with
    | chosen s₀ c₀ =>
        rw [hpick] at hchosen
        cases hchosen
        have hmem := mem_of_along hpick
        have habove := hscope.above
          (hg'.tree.above_of_mem_path (g'.isPath_path scope) hmem)
        have hs₀ := hsupports s₀ c₀ (hr ▸ hpick)
        rw [← hr] at hs₀
        exact nodeOf_spares hresolve hspares hg'
          (hscope.left.scope?_of_mem hg'.tree.numbered hmem)
          (habove.grows ((Graph.Grows.refl g).withMemo m)) (hg.merges hm) hs₀ hoffered
    | _ =>
        rw [hpick] at hchosen
        cases hchosen

/-- A request that was just opened. -/
theorem answer_spares
    (hresolve : ∀ scope r, Sound B (resolve scope r) (.request scope r))
    (hspares : SparesNested B resolve g' S)
    (hg' : g'.Faithful B)
    {scope' scope : ScopeId}
    {r : Request}
    {id : NodeId}
    {s : Search}
    (hs : s.graph.Faithful B)
    (hscope : g'.Alike s.graph scope' scope)
    (h : g'.Chooses B S scope' r.type r.required id) :
    Spares (answer B resolve scope r) s := by
  obtain ⟨ρ, rfl, hρ⟩ := hscope
  let r' : Request := { r with type := B.registry.normalize r.type }
  have hlineage : Lineage s.graph.scopes (ρ scope') (s.graph.path (ρ scope')) :=
    hs.rooted.lineage hρ.right.lt_size
  have hchoice := sparesChoice_of_chooses hresolve hspares hg' hs hρ h (r := r') rfl
  have hlookup :
      Spares (lookup B resolve r' (some (ρ scope')) (s.graph.path (ρ scope'))) s :=
    lookup_spares hs hlineage hchoice .none s.chain
  intro e s' herror
  rw [answer_eq] at herror
  refine hlookup.bind (fun found s₁ h₁ => ?_) e s' herror
  cases found with
  | some id => exact spares_pure id
  | none =>
      obtain ⟨-, habsent⟩ := lookup_eq_none hs.tree.numbered (s.graph.isPath_path _) h₁
      have hnothing := habsent.along hs hlineage
      rw [hρ.along B r'.type, Pick.rename_eq_nothing] at hnothing
      obtain ⟨n, -, hchoice, -⟩ := h
      rw [Graph.choice?_of_nothing hnothing] at hchoice
      intro e s' herror
      dsimp only at herror
      unfold unresolved at herror
      split at herror
      · cases herror
      · rename_i hnullable
        rw [if_neg hnullable] at hchoice
        split at herror
        · cases herror
        · rename_i hrequired
          rw [if_pos (by simpa using hrequired)] at hchoice
          cases hchoice

/-- A request at any depth, where a straight answer shows that there is one. -/
theorem request_spares
    (hS : g'.Confirms B S)
    (hg' : g'.Faithful B)
    (levels : Nat) :
    SparesNested B (request B levels) g' S := by
  induction levels with
  | zero =>
      intro scope' scope r id s _ _ _ e s' herror
      rcases request_eq B 0 scope r s with ⟨e', c, hlimit, hrefused⟩
        | ⟨below, counter, hlevels, -⟩
      · rw [hrefused] at herror
        cases herror
        exact .inl hlimit
      · cases hlevels
  | succ levels ih =>
      intro scope' scope r id s hs hscope hid e s' herror
      rcases request_eq B (levels + 1) scope r s with ⟨e', c, hlimit, hrefused⟩
        | ⟨below, counter, hlevels, hopened⟩
      · rw [hrefused] at herror
        cases herror
        exact .inl hlimit
      · cases hlevels
        rw [hopened] at herror
        have hanswer := answer_spares (request_sound B levels) ih hg' (r := r)
          (s := ⟨s.graph, s.chain.openRequest counter r⟩) hs hscope (hS _ _ _ _ hid)
        unfold withRequest bracket at herror
        dsimp only at herror
        split at herror
        · cases herror
        · rename_i e₁ s₁ hrun
          cases herror
          exact hanswer e s₁ hrun

end Requests

end Resolve
end Wiring
