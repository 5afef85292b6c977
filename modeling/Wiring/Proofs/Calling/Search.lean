import Wiring.Proofs.Answers
import Wiring.Proofs.Ownership.Search

/-!
# Searches invoke what can be called

A declaration is only offered to a request if it can be called from the scope that makes
the request.  So a node that invokes a declaration is owned by a scope such that the
declaration can be called there or somewhere below.  The entries of a collection are not
offered: nobody asks whether they can be called.

**Results.**
* `Graph.CalledExcept.begin`, `Graph.CalledExcept.change`, and others: single changes
  keep this.
* `Derives.called`: a finished part of a search invokes what can be called from some
  scope, except for the entries that it was given.
-/

namespace Wiring

namespace Graph

/-- Whether the declaration of a node can be called from its owner or from a scope
below. -/
def HasCaller (g : Graph) (n : Node) : Prop :=
  ∃ scope s, g.scope? scope = some s ∧ g.Above scope n.owner
    ∧ s.context.canCall n.callKind = true

/-- Whether a node is an element or an entry of a collection. -/
def IsElement (g : Graph) (d : NodeId) : Prop :=
  ∃ id n, g.node? id = some n ∧ n.kind.isCollection = true ∧ d ∈ n.resolved

/-- Whether every node that invokes a declaration is called from somewhere or is in a
collection, but for given nodes. -/
structure CalledExcept (g : Graph) (met : NodeId → Prop) : Prop where
  tree : g.Tree
  called {id : NodeId} {n : Node} :
    g.node? id = some n → n.kind.isInvocation = true →
    met id ∨ g.IsElement id ∨ g.HasCaller n

/-! ## Callers and elements -/

section Callers

variable {g g' : Graph} {n n' : Node} {d : NodeId}

theorem HasCaller.grows
    (h : g.HasCaller n)
    (hg : g.Grows g') :
    g'.HasCaller n := by
  obtain ⟨scope, s, hs, habove, hcall⟩ := h
  exact ⟨scope, s, hg.scope? hs, habove.mono hg.scopes, hcall⟩

theorem HasCaller.of_scopes_eq
    (h : g.HasCaller n)
    (hscopes : g'.scopes = g.scopes) :
    g'.HasCaller n := by
  obtain ⟨scope, s, hs, habove, hcall⟩ := h
  refine ⟨scope, s, ?_, habove.of_scopes_eq hscopes, hcall⟩
  unfold Graph.scope?
  rw [hscopes]
  exact hs

theorem HasCaller.congr
    (h : g.HasCaller n)
    (howner : n'.owner = n.owner)
    (hkind : n'.callKind = n.callKind) :
    g.HasCaller n' := by
  obtain ⟨scope, s, hs, habove, hcall⟩ := h
  exact ⟨scope, s, hs, howner ▸ habove, hkind ▸ hcall⟩

theorem IsElement.grows
    (h : g.IsElement d)
    (hg : g.Grows g') :
    g'.IsElement d := by
  obtain ⟨id, n, hn, hkind, hd⟩ := h
  exact ⟨id, n, hg.node? hn, hkind, hd⟩

/-- A change of a node that keeps its kind and drops no answer. -/
theorem IsElement.change
    (h : g.IsElement d)
    (changed : NodeId)
    {f : Node → Node}
    (hkind : ∀ n, (f n).kind = n.kind)
    (hresolved : ∀ n, g.node? changed = some n → ∀ d ∈ n.resolved, d ∈ (f n).resolved) :
    (g.change changed f).IsElement d := by
  obtain ⟨id, n, hn, hcollection, hd⟩ := h
  by_cases heq : changed = id
  · subst heq
    exact ⟨changed, f n, change_node? hn f, by rwa [hkind], hresolved n hn d hd⟩
  · exact ⟨id, n, (change_node?_of_ne heq f).trans hn, hcollection, hd⟩

end Callers

/-! ## Single changes -/

namespace CalledExcept

variable {B : Build} {g g' : Graph} {met met' : NodeId → Prop}

theorem empty (met : NodeId → Prop) : Graph.empty.CalledExcept met where
  tree := .empty
  called := fun hn => nomatch hn

theorem imp
    (h : g.CalledExcept met)
    (himp : ∀ d, met d → met' d) :
    g.CalledExcept met' where
  tree := h.tree
  called := fun hn hkind => (h.called hn hkind).imp_left (himp _)

/-- What a node that was there is called from stays. -/
theorem called_grows
    (h : g.CalledExcept met)
    (hgrows : g.Grows g')
    {id : NodeId}
    {n : Node}
    (hn : g.node? id = some n)
    (hkind : n.kind.isInvocation = true) :
    met id ∨ g'.IsElement id ∨ g'.HasCaller n := by
  rcases h.called hn hkind with hmet | helement | hcaller
  · exact .inl hmet
  · exact .inr (.inl (helement.grows hgrows))
  · exact .inr (.inr (hcaller.grows hgrows))

/-- Only scopes and nodes matter. -/
theorem congr
    (h : g.CalledExcept met)
    (hscopes : g'.scopes = g.scopes)
    (hnodes : g'.nodes = g.nodes) :
    g'.CalledExcept met := by
  have hnode := Graph.node?_congr hnodes
  refine ⟨h.tree.of_scopes_eq hscopes, fun hn hkind => ?_⟩
  rcases h.called ((hnode _).symm.trans hn) hkind with hmet | ⟨id, n, hn', hin⟩ | hcaller
  · exact .inl hmet
  · exact .inr (.inl ⟨id, n, (hnode id).trans hn', hin⟩)
  · exact .inr (.inr (hcaller.of_scopes_eq hscopes))

theorem withMemo
    (h : g.CalledExcept met)
    (m : Memo) :
    (g.withMemo m).CalledExcept met :=
  h.congr rfl rfl

theorem remember
    (h : g.CalledExcept met)
    (scope : ScopeId)
    (t : Ty)
    (id : NodeId) :
    (g.remember scope t id).CalledExcept met :=
  h.congr rfl rfl

/-- A new node that invokes nothing, or what can be called. -/
theorem begin
    (h : g.CalledExcept met)
    {n : Node}
    (hcalled : n.kind.isInvocation = true → met g.nextId ∨ g.HasCaller n)
    (key : Option Ty)
    (scope : ScopeId) :
    (g.begin n key scope).CalledExcept met := by
  have hgrows := (Grows.refl g).begin n key scope
  refine ⟨h.tree.of_scopes_eq (begin_scopes g n key scope), fun hn' hkind => ?_⟩
  rcases begin_node?_eq_some hn' with hold | ⟨rfl, rfl⟩
  · exact h.called_grows hgrows hold hkind
  · rcases hcalled hkind with hmet | hcaller
    · exact .inl hmet
    · exact .inr (.inr ((hcaller.grows hgrows).congr rfl rfl))

/-- A change of one node that keeps what it invokes. -/
theorem change
    (h : g.CalledExcept met)
    (id : NodeId)
    {f : Node → Node}
    (hkind : ∀ n, (f n).kind = n.kind)
    (howner : ∀ n, (f n).owner = n.owner)
    (hcall : ∀ n, (f n).callKind = n.callKind)
    (hresolved : ∀ n, g.node? id = some n → ∀ d ∈ n.resolved, d ∈ (f n).resolved) :
    (g.change id f).CalledExcept met := by
  refine ⟨h.tree.of_scopes_eq rfl, fun {id' n'} hn' hinvokes => ?_⟩
  obtain ⟨n, hn, hsame⟩ : ∃ n, g.node? id' = some n ∧ n'.kind = n.kind
      ∧ n'.owner = n.owner ∧ n'.callKind = n.callKind := by
    by_cases heq : id = id'
    · subst heq
      obtain ⟨n, hn, rfl⟩ := change_node?_self_eq_some hn'
      exact ⟨n, hn, hkind n, howner n, hcall n⟩
    · exact ⟨n', (change_node?_of_ne heq f).symm.trans hn', rfl, rfl, rfl⟩
  rw [hsame.1] at hinvokes
  rcases h.called hn hinvokes with hmet | helement | hcaller
  · exact .inl hmet
  · exact .inr (.inl (helement.change id hkind hresolved))
  · exact .inr (.inr ((hcaller.of_scopes_eq rfl).congr hsame.2.1 hsame.2.2))

theorem narrowAt
    (h : g.CalledExcept met)
    (B : Build)
    (id : NodeId)
    (declared : Declaration)
    (assisted : Bool) :
    (g.narrowAt B id declared assisted).CalledExcept met := by
  rcases narrowAt_cases B g id declared assisted with heq | ⟨-, types, heq⟩
  · rw [heq]
    exact h
  · rw [heq]
    exact h.change id (fun _ => rfl) (fun _ => rfl) (fun _ => rfl) (fun _ _ _ hd => hd)

theorem pushScope
    (h : g.CalledExcept met)
    {parent : Option ScopeId}
    {spec : ScopeSpec}
    {found : Contributions}
    {inner : ScopeId}
    (hp : g.pushScope B parent spec found = .ok (inner, g')) :
    g'.CalledExcept met := by
  have hgrows := (Grows.refl g).pushScope hp
  refine ⟨h.tree.pushScope hp, fun {id n} hn hkind => ?_⟩
  have hold : g.node? id = some n := (node?_congr (pushScope_answers hp).2 id).symm.trans hn
  exact h.called_grows hgrows hold hkind

end CalledExcept
end Graph

/-! ## Parts of a search -/

namespace Judgement

/-- Where a part of a search may invoke declarations: the scope that chose one can call
it, and so can some scope the new node. -/
def Callable (g : Graph) (met : NodeId → Prop) : Judgement → Prop
  | candidate s _ _ _ => g.scope? s.id = some s
  | declaration scope declaredIn key e .. =>
      g.Above scope (declaredIn.getD scope)
        ∧ (key = none ∨ ∃ s, g.scope? scope = some s
          ∧ s.context.canCall e.declaration.callKind = true)
  | node n .. => n.kind.isInvocation = true → met g.nextId ∨ g.HasCaller n
  | _ => True

/-- The entries of a collection that a part of a search came to. -/
def Pending (d : NodeId) : Judgement → Prop
  | declaration _ _ key _ _ _ id => key = none ∧ d = id
  | demands _ ts ids => ∃ e, (Demand.entry e, d) ∈ ts.zip ids
  | _ => False

theorem not_pending_requests
    {scope : ScopeId}
    {rs : List Request}
    {ids : List NodeId}
    {d : NodeId} :
    ¬ (demands scope (rs.map .request) ids).Pending d := by
  rintro ⟨e, he⟩
  obtain ⟨r, -, hr⟩ := List.mem_map.mp (List.of_mem_zip he).1
  exact nomatch hr

end Judgement

section Pending

variable {g : Graph} {met : NodeId → Prop} {J : Judgement}

theorem Graph.CalledExcept.pending (h : g.CalledExcept met) :
    g.CalledExcept (fun d => met d ∨ J.Pending d) :=
  h.imp (fun _ => .inl)

/-- A part of a search that came to no entries leaves no exceptions. -/
theorem Graph.CalledExcept.settled
    (h : g.CalledExcept (fun d => met d ∨ J.Pending d))
    (hJ : ∀ d, ¬ J.Pending d) :
    g.CalledExcept met :=
  h.imp (fun d hd => hd.resolve_right (hJ d))

end Pending

/-- Instances of a declaration are called as the declaration is. -/
theorem Registry.instantiate?_callKind
    {R : Registry}
    {d d' : Declaration}
    {t : Ty}
    (h : R.instantiate? d t = some d') :
    d'.callKind = d.callKind := by
  unfold Registry.instantiate? at h
  split at h
  · cases h
    rfl
  · obtain ⟨σ, -, rfl⟩ := Option.map_eq_some_iff.mp h
    rfl

theorem Registry.Instantiates.callKind
    {R : Registry}
    {e : Entry}
    {t : Ty}
    {m : Match}
    (h : R.Instantiates e t m) :
    m.declaration.callKind = e.declaration.callKind := by
  obtain ⟨t', hinstance⟩ := h.exists_instantiate?
  exact Registry.instantiate?_callKind hinstance

/-- A declaration that a scope offers can be called there. -/
theorem Offered.canCall
    {B : Build}
    {s : Scope}
    {t : Ty}
    {m : Match}
    (h : Offered B s t (.declaration m)) :
    s.context.canCall m.declaration.callKind = true := by
  obtain ⟨e, -, hcall, hinstance⟩ := h.declaration
  rwa [hinstance.callKind]

/-- Only declarations are invoked. -/
theorem Blueprint.not_invocation
    {B : Build}
    {scope evaluated : ScopeId}
    {r : Request}
    {c : Candidate}
    {n : Node}
    {demands : List Demand}
    {g g' : Graph}
    (h : Blueprint B scope r g c n evaluated demands g') :
    n.kind.isInvocation = false := by
  cases h with
  | input | object | self | funAlias | set | map | provider | childComponent => rfl

theorem Blueprint.called
    {B : Build}
    {scope evaluated : ScopeId}
    {r : Request}
    {c : Candidate}
    {n : Node}
    {demands : List Demand}
    {g g' : Graph}
    (h : Blueprint B scope r g c n evaluated demands g')
    {met : NodeId → Prop}
    (hg : g.CalledExcept met) :
    g'.CalledExcept met :=
  h.surroundings (P := fun g => g.CalledExcept met) (fun hg _ => hg.withMemo _)
    (fun hp => hg.pushScope hp) hg

/-- A node, once the answers to what it asks for are recorded: the entries that it came to
are elements of it now. -/
theorem Derives.called_of_resolved
    {B : Build}
    {stack : List NodeId}
    {n : Node}
    {key : Option Ty}
    {scope evaluated : ScopeId}
    {demands : List Demand}
    {ids : List NodeId}
    {g g' : Graph}
    {met : NodeId → Prop}
    (hplans : n.Plans evaluated demands)
    (hd : Derives B (stack ++ [g.nextId]) (g.begin n key scope)
      (.demands evaluated demands ids) g')
    (hg' : g'.CalledExcept (fun d => met d
      ∨ Judgement.Pending d (.demands evaluated demands ids))) :
    (g'.change g.nextId (fun n => { n with resolved := ids })).CalledExcept met := by
  have hself := hd.grows.node? (g.begin_node?_self n key scope)
  have hchanged := hg'.change g.nextId (f := fun n => { n with resolved := ids })
    (fun _ => rfl) (fun _ => rfl) (fun _ => rfl) (fun n' hn' d hd' => by
      rw [hself] at hn'
      cases hn'
      rw [hplans.resolved] at hd'
      exact nomatch hd')
  refine ⟨hchanged.tree, fun {d n'} hn' hkind => ?_⟩
  rcases hchanged.called hn' hkind with (hmet | hpending) | hcalled
  · exact .inl hmet
  · cases hcollection : n.kind.isCollection with
    | false =>
        obtain ⟨rs, rfl⟩ := hplans.requests hcollection
        exact absurd hpending Judgement.not_pending_requests
    | true =>
        obtain ⟨e, he⟩ := hpending
        have hlast := Graph.change_node? hself (fun n => { n with resolved := ids })
        exact .inr (.inl ⟨_, _, hlast, hcollection, (List.of_mem_zip he).2⟩)
  · exact .inr hcalled

/-- A finished part of a search invokes what can be called from some scope, except for
the entries of a collection that it came to. -/
theorem Derives.called
    {B : Build}
    {stack : List NodeId}
    {J : Judgement}
    {g g' : Graph}
    (h : Derives B stack g J g')
    {met : NodeId → Prop}
    (hg : g.CalledExcept met)
    (hJ : J.Callable g met) :
    g'.CalledExcept (fun d => met d ∨ J.Pending d) := by
  induction h generalizing met with
  | found _ ih => exact ih hg trivial
  | null habsent _ _ ih =>
      obtain ⟨m, -, rfl⟩ := habsent.withMemo
      exact ih (hg.withMemo m) (fun hkind => nomatch hkind)
  | missing habsent _ _ _ ih =>
      obtain ⟨m, -, rfl⟩ := habsent.withMemo
      exact ih (hg.withMemo m) (fun hkind => nomatch hkind)
  | recalled => exact hg.pending
  | chosen _ hscope hsid hoffers _ _ ih =>
      obtain ⟨m, -, rfl⟩ := hoffers.withMemo
      subst hsid
      exact ih (hg.withMemo m) hscope
  | inherited _ _ hoffers _ _ ih =>
      obtain ⟨m, -, rfl⟩ := hoffers.withMemo
      exact (ih (hg.withMemo m) trivial).remember _ _ _
  | declaration hoffered _ ih =>
      have habove := hoffered.above_declaredIn hg.tree hJ
      have hcalled := ih hg ⟨habove, .inr ⟨_, hJ, hoffered.canCall⟩⟩
      exact (hcalled.settled (fun d hd => nomatch hd.1)).pending
  | keptInput => exact (hg.remember _ _ _).pending
  | aliasAgain => exact hg.pending
  | built _ hblueprint _ ih =>
      refine ih (hblueprint.called hg) (fun hkind => ?_)
      rw [hblueprint.not_invocation] at hkind
      exact nomatch hkind
  | again => exact hg.pending
  | relocated => exact (hg.remember _ _ _).pending
  | @fresh stack scope owner declaredIn key e declared assisted n entries attached m id g
      g₁ g' _ howner _ hnode _ _ hd ihnode ih =>
      have hid := hnode.node_eq
      subst hid
      obtain ⟨hdeclared, hcaller⟩ := hJ
      have hnew : g.CalledExcept (fun d => met d
          ∨ Judgement.Pending d (.declaration scope declaredIn key e declared assisted
            g.nextId)) := hg.pending
      -- without a key the declaration is an entry, which nobody has to be able to call
      have hcalled₁ := ihnode hnew (fun _ => by
        rcases hcaller with hkey | ⟨s, hs, hcall⟩
        · exact .inl (.inr ⟨hkey, rfl⟩)
        · refine .inr ⟨scope, s, hs, ?_, hcall⟩
          exact howner ▸ hg.tree.above_ownerOf hdeclared e.declaration)
      have hcalled₂ := (hcalled₁.settled (fun _ hd => hd)).narrowAt B g.nextId declared
        assisted
      have hcalled := (ih (hcalled₂.withMemo m) trivial).settled (fun _ hd => hd)
      exact hcalled.change g.nextId (fun _ => rfl) (fun _ => rfl) (fun _ => rfl)
        (fun _ _ _ hd => hd)
  | @node stack n key scope evaluated demands ids g g' hplans hd ih =>
      exact (hd.called_of_resolved hplans (ih (hg.begin hJ key scope) trivial)).pending
  | noDemands => exact hg.pending
  | requestDemand _ _ ih ihs =>
      have hcalled₁ := (ih hg trivial).settled (fun _ hd => hd)
      refine (ihs hcalled₁ trivial).imp (fun d => Or.imp_right ?_)
      rintro ⟨e, he⟩
      exact ⟨e, List.mem_cons_of_mem _ he⟩
  | @entryDemand stack scope e id demands ids g g₁ g' _ _ ih ihs =>
      refine (ihs (ih hg ⟨.refl, .inl rfl⟩) trivial).imp ?_
      rintro d ((hmet | ⟨-, rfl⟩) | ⟨e', he⟩)
      · exact .inl hmet
      · exact .inr ⟨e, List.mem_cons_self⟩
      · exact .inr ⟨e', List.mem_cons_of_mem _ he⟩
  | noInterceptors => exact hg.pending
  | interceptor _ _ ih ihs =>
      have hcalled₁ := (ih hg trivial).settled (fun _ => Judgement.not_pending_requests)
      exact ihs hcalled₁ trivial

end Wiring
