import Wiring.Proofs.Ownership.Invariant

/-!
# Searches keep owners

A search only makes nodes that the scope which asks for them, or one of its ancestors,
owns.  Answers that are remembered were made for the scope or for an ancestor as well.
The exception are nodes that are found again on the stack: they are recognized by their
declaration and their type, whoever owns them.

**Results.**
* `Derives.owned`: a finished part of a search keeps owners, except for what it met.
-/

namespace Wiring

namespace Judgement

/-- What the surroundings of a part of a search have to be like. -/
def Placed (g : Graph) (met : NodeId → Prop) : Judgement → Prop
  | candidate s _ _ _ => g.scope? s.id = some s
  | declaration scope declaredIn .. => g.Above scope (declaredIn.getD scope)
  | node n _ scope _ _ _ => met g.nextId ∨ g.Above scope n.owner
  | _ => True

/-- The owners of what a part of a search came to. -/
def Owned (g : Graph) (met : NodeId → Prop) : Judgement → Prop
  | request scope _ id => met id ∨ g.Holds scope id
  | search scope _ id => met id ∨ g.Holds scope id
  | candidate s _ _ id => met id ∨ g.Holds s.id id
  | declaration scope _ _ _ _ _ id => met id ∨ g.Holds scope id
  | node _ _ scope _ _ id => met id ∨ g.Holds scope id
  | demands scope _ ids => ∀ d ∈ ids, met d ∨ g.Holds scope d
  | interceptors _ owner _ _ attached =>
      ∀ i ∈ attached, ∀ d ∈ i.resolved, met d ∨ g.Holds owner d

end Judgement

/-- A declaration that a scope offers is declared there or above. -/
theorem Offered.above_declaredIn
    {B : Build}
    {g : Graph}
    (hg : g.Tree)
    {s : Scope}
    (hs : g.scope? s.id = some s)
    {t : Ty}
    {m : Match}
    (h : Offered B s t (.declaration m)) :
    g.Above s.id (m.declaredIn.getD s.id) := by
  obtain ⟨e, hdeclared, -⟩ := h.declaration
  generalize m.declaredIn = declaredIn at hdeclared
  cases hdeclared with
  | own => exact .refl
  | inherited hmem => exact hg.bindings hs hmem
  | implicit => exact .refl

/-- An input that a scope offers is an input there or above. -/
theorem Offered.above_input
    {B : Build}
    {g : Graph}
    (hg : g.Tree)
    {s : Scope}
    (hs : g.scope? s.id = some s)
    {t type : Ty}
    {index : Nat}
    {declaredIn : Option ScopeId}
    (h : Offered B s t (.input index type declaredIn)) :
    g.Above s.id (declaredIn.getD s.id) := by
  cases declaredIn with
  | none => exact .refl
  | some above => exact hg.inputs hs h.inheritedInput.1

theorem Blueprint.above_owner
    {B : Build}
    {s : Scope}
    {evaluated : ScopeId}
    {r : Request}
    {c : Candidate}
    {n : Node}
    {demands : List Demand}
    {g g' : Graph}
    (h : Blueprint B s.id r g c n evaluated demands g')
    (hg : g.Tree)
    (hs : g.scope? s.id = some s)
    (hoffered : Offered B s r.type c) :
    g'.Above s.id n.owner := by
  cases h with
  | input => exact hoffered.above_input hg hs
  | object | self | funAlias | set | map | provider | childComponent => exact .refl

theorem Blueprint.owned
    {B : Build}
    {s : Scope}
    {evaluated : ScopeId}
    {r : Request}
    {c : Candidate}
    {n : Node}
    {demands : List Demand}
    {g g' : Graph}
    (h : Blueprint B s.id r g c n evaluated demands g')
    {met : NodeId → Prop}
    (hg : g.OwnedExcept met) :
    g'.OwnedExcept met :=
  h.surroundings (P := fun g => g.OwnedExcept met) (fun hg _ => hg.withMemo _)
    (fun hp => hg.pushScope hp) hg

/-- A node, once the answers to what it asks for are recorded: what was met meanwhile is
met by the node. -/
theorem Derives.owned_of_resolved
    {B : Build}
    {stack : List NodeId}
    {n : Node}
    {key : Option Ty}
    {scope evaluated : ScopeId}
    {demands : List Demand}
    {ids : List NodeId}
    {g g' : Graph}
    {met : NodeId → Prop}
    (hplans : n.Plans evaluated demands)
    (hd : Derives B (stack ++ [g.nextId]) (g.begin n key scope)
      (.demands evaluated demands ids) g')
    (hstack : ∀ i ∈ stack, i.index < g.nodes.size)
    (hbounded : g.Bounded)
    (hg' : g'.OwnedExcept
      (fun d => met d ∨ (g.begin n key scope).Met g' (stack ++ [g.nextId]) ids d))
    (hids : ∀ d ∈ ids,
      (met d ∨ (g.begin n key scope).Met g' (stack ++ [g.nextId]) ids d)
        ∨ g'.Holds evaluated d) :
    (g'.change g.nextId (fun n => { n with resolved := ids })).OwnedExcept (fun d => met d
      ∨ g.Met (g'.change g.nextId (fun n => { n with resolved := ids })) stack
        [g.nextId] d) := by
  have hself := hd.grows.node? (g.begin_node?_self n key scope)
  have hexplored := hd.explored (stack_push hstack n key scope) (hbounded.begin n key scope)
  refine hg'.close hexplored (Nat.le_refl _)
    ((Graph.Grows.refl g).begin n key scope).size_nodes hself (fun _ => rfl) (fun _ => rfl)
    ?_ (fun _ hr => List.mem_append_left _ hr) ?_ ?_
  · intro d hd'
    simp [Node.edges, hplans.resolved, hplans.interceptors] at hd'
  · intro d hd'
    have hevaluated : n.evaluated = evaluated := hplans.evaluated
    have hheld := hids d hd'
    rw [← hevaluated] at hheld
    exact hheld
  · intro i hi
    rw [hplans.interceptors] at hi
    exact absurd hi List.not_mem_nil

/-- The node of a declaration, once its interceptors are attached: what was met while it
was open, and open again, is met by the declaration. -/
theorem Derives.owned_of_attached
    {B : Build}
    {stack : List NodeId}
    {built n : Node}
    {key : Option Ty}
    {scope evaluated : ScopeId}
    {demands : List Demand}
    {declared : Declaration}
    {assisted : Bool}
    {t : Ty}
    {entries : List Entry}
    {attached : List Interceptor}
    {m : Memo}
    {id : NodeId}
    {g g₁ g' : Graph}
    {met : NodeId → Prop}
    (hnode : Derives B stack g (.node built key scope evaluated demands id) g₁)
    (hplain : built.interceptors = [])
    (hn : (g₁.narrowAt B id declared assisted).node? id = some n)
    (hd : Derives B (stack ++ [id]) ((g₁.narrowAt B id declared assisted).withMemo m)
      (.interceptors id built.owner t entries attached) g')
    (hstack : ∀ i ∈ stack, i.index < g.nodes.size)
    (hbounded : g.Bounded)
    (hg' : g'.OwnedExcept (fun d => (met d ∨ g.Met g₁ stack [id] d)
      ∨ ((g₁.narrowAt B id declared assisted).withMemo m).Met g' (stack ++ [id])
        (attached.flatMap Interceptor.resolved) d))
    (hattached : ∀ i ∈ attached, ∀ d ∈ i.resolved, ((met d ∨ g.Met g₁ stack [id] d)
      ∨ ((g₁.narrowAt B id declared assisted).withMemo m).Met g' (stack ++ [id])
        (attached.flatMap Interceptor.resolved) d) ∨ g'.Holds built.owner d) :
    (g'.change id (fun n => { n with interceptors := attached })).OwnedExcept
      (fun d => met d
        ∨ g.Met (g'.change id (fun n => { n with interceptors := attached })) stack [id] d) := by
  have hid := hnode.node_eq
  subst hid
  obtain ⟨hopen, hbounded₁⟩ := hnode.reopened hstack hbounded declared assisted
  obtain ⟨ids, t', ht'⟩ := hnode.narrowed_node? declared assisted
  rw [hn] at ht'
  cases ht'
  have hself := hd.grows.node? hn
  have hsize : g.nodes.size ≤ (g₁.narrowAt B g.nextId declared assisted).nodes.size := by
    rw [Graph.narrowAt_size]
    exact hnode.grows.size_nodes
  have hkept : ∀ d ∈ ids ++ built.interceptors.flatMap Interceptor.resolved,
      d ∈ ids ++ attached.flatMap Interceptor.resolved := by
    rw [hplain]
    intro d hd'
    rw [List.flatMap_nil, List.append_nil] at hd'
    exact List.mem_append_left _ hd'
  have hresolved := fun d (hd' : d ∈ ids) => hg'.resolved hself hd'
  have hclosed := hg'.close (f := fun n => { n with interceptors := attached })
    (hd.explored hopen hbounded₁) (Nat.le_refl _) hsize hself (fun _ => rfl)
    (fun _ => rfl) hkept (fun _ hr => List.mem_append_right _ hr) hresolved hattached
  refine hclosed.imp ?_
  rintro d ((hmet | hmet) | hmet)
  · exact .inl hmet
  · refine .inr (hmet.mono (Nat.le_refl _) (fun he => ?_) (fun _ hr => hr))
    have he' := (he.narrowAt B g.nextId declared assisted).grows hd.grows
    exact he'.change_node hself hkept
  · exact .inr hmet

/-- A finished part of a search keeps owners, except for what it met. -/
theorem Derives.owned
    {B : Build}
    {stack : List NodeId}
    {J : Judgement}
    {g g' : Graph}
    (h : Derives B stack g J g')
    (hstack : ∀ i ∈ stack, i.index < g.nodes.size)
    (hbounded : g.Bounded)
    {met : NodeId → Prop}
    (hg : g.OwnedExcept met)
    (hJ : J.Placed g met) :
    g'.OwnedExcept (fun d => met d ∨ g.Met g' stack J.results d)
      ∧ J.Owned g' (fun d => met d ∨ g.Met g' stack J.results d) := by
  induction h generalizing met with
  | found _ ih => exact ih hstack hbounded hg trivial
  | null habsent _ _ ih =>
      obtain ⟨m, -, rfl⟩ := habsent.withMemo
      exact ih hstack hbounded (hg.withMemo m) (.inr .refl)
  | missing habsent _ _ _ ih =>
      obtain ⟨m, -, rfl⟩ := habsent.withMemo
      exact ih hstack hbounded (hg.withMemo m) (.inr .refl)
  | recalled hfound _ =>
      exact ⟨hg.imp (fun _ => .inl), (hg.find? hfound).imp_left .inl⟩
  | @chosen stack scope s r candidates c id g g₁ g' _ hscope hsid hoffers _ _ ih =>
      obtain ⟨m, -, rfl⟩ := hoffers.withMemo
      subst hsid
      exact ih hstack hbounded (hg.withMemo m) hscope
  | @inherited stack scope parent s r id g g₁ g' _ hscope hoffers hparent hd ih =>
      obtain ⟨m, -, rfl⟩ := hoffers.withMemo
      obtain ⟨howned, hid⟩ := ih hstack hbounded (hg.withMemo m) trivial
      have hscope₁ : (g.withMemo m).scope? scope = some s := hscope
      have habove : g'.Above scope parent :=
        .single ⟨s, hd.grows.scope? hscope₁, hparent⟩
      have hid' := hid.imp_right (Graph.Holds.above habove)
      exact ⟨howned.remember hid' r.type, hid'⟩
  | declaration hoffered _ ih =>
      exact ih hstack hbounded hg (hoffered.above_declaredIn hg.tree hJ)
  | @keptInput stack s r index type declaredIn id g hoffered hfound =>
      have hid := (hg.find? hfound).imp_right
        (Graph.Holds.above (hoffered.above_input hg.tree hJ))
      exact ⟨(hg.remember hid r.type).imp (fun _ => .inl), hid.imp_left .inl⟩
  | aliasAgain _ hmem _ _ =>
      exact ⟨hg.imp (fun _ => .inl),
        .inl (.inr (.inl ⟨hmem, .inl (List.mem_singleton_self _)⟩))⟩
  | built hoffered hblueprint _ ih =>
      have hsize := hblueprint.grows.size_nodes
      obtain ⟨howned, hid⟩ := ih (stack_grows hstack hblueprint.grows)
        (hblueprint.bounded hbounded) (hblueprint.owned hg)
        (.inr (hblueprint.above_owner hg.tree hJ hoffered))
      refine ⟨howned.imp (fun d => ?_), hid.imp_left ?_⟩
      · exact Or.imp_right (Graph.Met.mono hsize (fun he => he) (fun _ hr => hr))
      · exact Or.imp_right (Graph.Met.mono hsize (fun he => he) (fun _ hr => hr))
  | again _ hmem _ _ =>
      exact ⟨hg.imp (fun _ => .inl),
        .inl (.inr (.inl ⟨hmem, .inl (List.mem_singleton_self _)⟩))⟩
  | @relocated stack scope declaredIn t e declared assisted id g _ _ hfound _ =>
      have habove := hg.tree.above_ownerOf hJ e.declaration
      have hid := (hg.find? hfound).imp_right (Graph.Holds.above habove)
      exact ⟨(hg.remember hid t).imp (fun _ => .inl), hid.imp_left .inl⟩
  | @fresh stack scope owner declaredIn key e declared assisted n entries attached m id g
      g₁ g' _ howner _ hnode hn _ hd ihnode ih =>
      have hid := hnode.node_eq
      subst hid
      have habove : g.Above scope owner :=
        howner ▸ hg.tree.above_ownerOf hJ e.declaration
      obtain ⟨howned₁, -⟩ := ihnode hstack hbounded hg (.inr habove)
      -- the interceptors are attached while the node is open again
      obtain ⟨hopen, hbounded₁⟩ := hnode.reopened hstack hbounded declared assisted
      obtain ⟨howned, hattached⟩ := ih hopen hbounded₁
        ((howned₁.narrowAt B g.nextId declared assisted).withMemo m) trivial
      refine ⟨hnode.owned_of_attached rfl hn hd hstack hbounded howned hattached, ?_⟩
      have habove₁ : (g₁.narrowAt B g.nextId declared assisted).Above scope owner :=
        (habove.mono hnode.grows.scopes).of_scopes_eq (Graph.narrowAt_scopes _ _ _ _ _)
      obtain ⟨ids, t, ht⟩ := hnode.narrowed_node? declared assisted
      exact .inr ⟨_, Graph.change_node? (hd.grows.node? ht) _, habove₁.mono hd.grows.scopes⟩
  | @node stack n key scope evaluated demands ids g g' hplans hd ih =>
      have hbegin := hg.begin hplans.resolved hplans.interceptors hJ key
      obtain ⟨howned, hids⟩ := ih (stack_push hstack n key scope)
        (hbounded.begin n key scope) hbegin trivial
      refine ⟨hd.owned_of_resolved hplans hstack hbounded howned hids, ?_⟩
      refine hJ.imp .inl (fun habove => ?_)
      have hlast := Graph.change_node? (hd.grows.node? (g.begin_node?_self n key scope))
        (fun n => { n with resolved := ids })
      have hgrows := (Graph.Grows.refl g).begin n key scope
      exact ⟨_, hlast, (habove.mono hgrows.scopes).mono hd.grows.scopes⟩
  | noDemands => exact ⟨hg.imp (fun _ => .inl), fun _ hd => absurd hd List.not_mem_nil⟩
  | requestDemand hd hds ih ihs =>
      obtain ⟨howned₁, hid⟩ := ih hstack hbounded hg trivial
      obtain ⟨howned, hids⟩ := ihs (stack_grows hstack hd.grows)
        (hd.bounded hstack hbounded).1 howned₁ trivial
      exact ⟨howned.imp (fun _ => Graph.Met.seq hd.grows hds.grows),
        Graph.held_append hd.grows hds.grows (List.forall_mem_singleton.mpr hid) hids⟩
  | entryDemand hd hds ih ihs =>
      obtain ⟨howned₁, hid⟩ := ih hstack hbounded hg .refl
      obtain ⟨howned, hids⟩ := ihs (stack_grows hstack hd.grows)
        (hd.bounded hstack hbounded).1 howned₁ trivial
      exact ⟨howned.imp (fun _ => Graph.Met.seq hd.grows hds.grows),
        Graph.held_append hd.grows hds.grows (List.forall_mem_singleton.mpr hid) hids⟩
  | noInterceptors =>
      exact ⟨hg.imp (fun _ => .inl), fun _ hi => absurd hi List.not_mem_nil⟩
  | interceptor hd hds ih ihs =>
      obtain ⟨howned₁, hids⟩ := ih hstack hbounded hg trivial
      obtain ⟨howned, hattached⟩ := ihs (stack_grows hstack hd.grows)
        (hd.bounded hstack hbounded).1 howned₁ trivial
      refine ⟨howned.imp (fun _ => Graph.Met.seq hd.grows hds.grows), ?_⟩
      exact List.forall_mem_flatMap.mp (Graph.held_append hd.grows hds.grows hids
        (List.forall_mem_flatMap.mpr hattached))

end Wiring
