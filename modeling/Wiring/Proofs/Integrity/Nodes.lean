import Wiring.Proofs.Integrity.Scopes
import Wiring.Proofs.Ownership.Search

/-!
# Nodes that fit their graph

A node names scopes and other nodes by position.  It is carried by a graph if these are
there, and if the scopes are what the kind of the node says: a provider opens a scope below
its owner, an input is one of its owner, and a collection has an entry for each dependency.
Narrowing the type of a node does no harm, since only invocations are narrowed.

**Results.**
* `Blueprint.carries`: the node that a candidate asks for is carried.
* `Derives.firm`: a part of a search only appends nodes that are carried.
-/

namespace Wiring

/-- Whether what the kind of a node says of scopes and of dependencies is so. -/
def Node.KindFits (g : Graph) (n : Node) : Prop :=
  match n.kind with
  | .map keys => keys.length = n.dependencies.length
  | .set elements => elements.length = n.dependencies.length
  | .provider inner parameters _ => g.Encloses n.owner inner parameters
  | .childComponent inner parameters => g.Encloses n.owner inner parameters
  | .input index => g.HasInput n.owner index n.type
  | _ => True

namespace Graph

/-- Whether everything that a node names is there, and is what its kind says. -/
structure Carries (g : Graph) (n : Node) : Prop where
  owner : n.owner.index < g.scopes.size
  edges : ∀ d ∈ n.edges, d.index < g.nodes.size
  kind : n.KindFits g

/-- A graph whose scopes fit together and whose nodes and answers name what is there. -/
structure Firm (B : Build) (g : Graph) : Prop where
  faithful : g.Faithful B
  charted : g.Charted
  bounded : g.Bounded
  nodes : g.Every (fun _ => g.Carries)

/-! ## Changes of a node -/

namespace Carries

variable {g g' : Graph} {n : Node}

theorem mono
    (h : g.Carries n)
    (hscopes : ∀ {i : Nat} {s : Scope}, g.scopes[i]? = some s → g'.scopes[i]? = some s)
    (hscopesSize : g.scopes.size ≤ g'.scopes.size)
    (hsize : g.nodes.size ≤ g'.nodes.size) :
    g'.Carries n := by
  refine ⟨Nat.lt_of_lt_of_le h.owner hscopesSize,
    fun d hd => Nat.lt_of_lt_of_le (h.edges d hd) hsize, ?_⟩
  have hkind := h.kind
  unfold Node.KindFits at hkind ⊢
  cases hk : n.kind with
  | map | set =>
      rw [hk] at hkind
      exact hkind
  | provider | childComponent =>
      rw [hk] at hkind
      exact hkind.of_grows hscopes
  | input index =>
      rw [hk] at hkind
      exact HasInput.of_grows hscopes hkind
  | _ => trivial

theorem grows
    (h : g.Carries n)
    (hgrows : g.Grows g') :
    g'.Carries n :=
  h.mono hgrows.scopes hgrows.size_scopes hgrows.size_nodes

theorem withId
    (h : g.Carries n)
    (id : NodeId) :
    g.Carries { n with id := id } :=
  ⟨h.owner, h.edges, h.kind⟩

theorem withResolved
    (h : g.Carries n)
    {ids : List NodeId}
    (hids : ∀ d ∈ ids, d.index < g.nodes.size) :
    g.Carries { n with resolved := ids } := by
  refine ⟨h.owner, fun d hd => ?_, h.kind⟩
  rcases Node.mem_edges.mp hd with hd | ⟨i, hi, hd⟩
  · exact hids d hd
  · exact h.edges d (Node.mem_edges.mpr (.inr ⟨i, hi, hd⟩))

theorem withInterceptors
    (h : g.Carries n)
    {attached : List Interceptor}
    (hattached : ∀ d ∈ attached.flatMap Interceptor.resolved, d.index < g.nodes.size) :
    g.Carries { n with interceptors := attached } := by
  refine ⟨h.owner, fun d hd => ?_, h.kind⟩
  rcases List.mem_append.mp hd with hd | hd
  · exact h.edges d (Node.mem_edges.mpr (.inl hd))
  · exact hattached d hd

/-- The type of an invocation does not matter. -/
theorem withType
    (h : g.Carries n)
    (hinput : ∀ index, n.kind ≠ .input index)
    (t : Ty) :
    g.Carries { n with type := t } := by
  refine ⟨h.owner, h.edges, ?_⟩
  have hkind := h.kind
  unfold Node.KindFits at hkind ⊢
  cases hk : n.kind with
  | map | set | provider | childComponent =>
      rw [hk] at hkind
      exact hkind
  | input index => exact absurd hk (hinput index)
  | _ => trivial

end Carries

/-! ## Changes of a graph -/

section Every

variable {g g' : Graph}

/-- What all nodes are carried by is a larger graph as well. -/
theorem Every.carries
    (h : g.Every (fun _ => g.Carries))
    (hgrows : g.Grows g') :
    g.Every (fun _ => g'.Carries) :=
  fun _ _ hn => (h hn).grows hgrows

theorem every_carries_of_eq
    (h : g.Every (fun _ => g.Carries))
    (hnodes : g'.nodes = g.nodes)
    (hgrows : g.Grows g') :
    g'.Every (fun _ => g'.Carries) :=
  (h.carries hgrows).of_nodes_eq hnodes

/-- A change after which the changed node is still carried. -/
theorem every_carries_change
    (h : g.Every (fun _ => g.Carries))
    (id : NodeId)
    {f : Node → Node}
    (hf : ∀ n, g.node? id = some n → g.Carries n → g.Carries (f n)) :
    (g.change id f).Every (fun _ => (g.change id f).Carries) := by
  have hkept : ∀ {n : Node}, g.Carries n → (g.change id f).Carries n := fun hn =>
    hn.mono (fun hs => hs) (Nat.le_refl _) (Nat.le_of_eq (change_size g id f).symm)
  intro id' n' hn'
  rcases change_node?_eq_some hn' with hn | ⟨n, hn, rfl⟩
  · exact hkept (h hn)
  · exact hkept (hf n hn (h hn))

end Every
end Graph

/-! ## Parts of a search -/

/-- Whether the scopes that a part of a search starts from are there, and the node that it
appends is carried. -/
def Judgement.Grounded (g : Graph) : Judgement → Prop
  | request scope _ _ => scope.index < g.scopes.size
  | search scope _ _ => scope.index < g.scopes.size
  | candidate s _ _ _ => g.scope? s.id = some s
  | declaration scope declaredIn .. =>
      scope.index < g.scopes.size ∧ g.Above scope (declaredIn.getD scope)
  | node n _ _ evaluated _ _ => g.Carries n ∧ evaluated.index < g.scopes.size
  | demands scope _ _ => scope.index < g.scopes.size
  | interceptors _ owner _ _ _ => owner.index < g.scopes.size

/-- What is above a scope is there. -/
theorem Graph.Rooted.lt_size_of_above
    {g : Graph}
    (hg : g.Rooted)
    {scope above : ScopeId}
    (hscope : scope.index < g.scopes.size)
    (habove : g.Above scope above) :
    above.index < g.scopes.size := by
  obtain ⟨s, -, hs⟩ := hg.mem_path_of_above hscope habove
  exact Graph.lt_size_of_scope? hs

/-- An input that a scope offers is one of the scope that declares it. -/
theorem Offered.hasInput
    {B : Build}
    {g : Graph}
    (hg : g.Charted)
    {s : Scope}
    (hs : g.scope? s.id = some s)
    {t type : Ty}
    {index : Nat}
    {declaredIn : Option ScopeId}
    (h : Offered B s t (.input index type declaredIn)) :
    g.HasInput (declaredIn.getD s.id) index type := by
  cases declaredIn with
  | some above => exact hg.inputs hs h.inheritedInput.1
  | none =>
      cases h with
      | own hmem =>
          cases ownCandidate_of_mem hmem with
          | input hin _ => exact ⟨s, hs, hin⟩

/-- Every entry of a map has a key. -/
theorem length_mapKeys
    {entries : List Entry}
    (h : ∀ e ∈ entries, (Collection.key? .map e).isSome = true) :
    (entries.filterMap (fun e => e.declaration.mapKey)).length = entries.length := by
  induction entries with
  | nil => rfl
  | cons e entries ih =>
      obtain ⟨hkey, hrest⟩ := List.forall_mem_cons.mp h
      cases hk : e.declaration.mapKey with
      | none => simp [Collection.key?, hk] at hkey
      | some k => simp [hk, ih hrest]

/-- A node that refers to nothing yet is carried where its owner is there. -/
theorem Graph.Carries.of_edges_eq_nil
    {g : Graph}
    {n : Node}
    (hedges : n.edges = [])
    (howner : n.owner.index < g.scopes.size)
    (hkind : n.KindFits g) :
    g.Carries n :=
  ⟨howner, by simp [hedges], hkind⟩

/-- The node that a candidate asks for is carried. -/
theorem Blueprint.carries
    {B : Build}
    {s : Scope}
    {evaluated : ScopeId}
    {r : Request}
    {c : Candidate}
    {n : Node}
    {demands : List Demand}
    {g g' : Graph}
    (h : Blueprint B s.id r g c n evaluated demands g')
    (hg : g.Firm B)
    (hs : g.scope? s.id = some s)
    (hoffered : Offered B s r.type c) :
    g'.Carries n ∧ evaluated.index < g'.scopes.size := by
  have hscope : s.id.index < g.scopes.size := Graph.lt_size_of_scope? hs
  have hopened : ∀ {inner : ScopeId} {inputs : List Ty}, g'.Encloses s.id inner inputs →
      inner.index < g'.scopes.size := fun ⟨_, hinner, _⟩ =>
    Graph.lt_size_of_scope? hinner
  have hsize := h.grows.size_scopes
  cases h with
  | input =>
      have howner := hg.faithful.rooted.lt_size_of_above hscope
        (hoffered.above_input hg.faithful.tree hs)
      exact ⟨.of_edges_eq_nil rfl howner (hoffered.hasInput hg.charted hs), howner⟩
  | object => exact ⟨.of_edges_eq_nil rfl hscope trivial, hscope⟩
  | self => exact ⟨.of_edges_eq_nil rfl hscope trivial, hscope⟩
  | funAlias => exact ⟨.of_edges_eq_nil rfl hscope trivial, hscope⟩
  | set =>
      refine ⟨.of_edges_eq_nil rfl hscope ?_, hscope⟩
      change (List.map Entry.origin _).length = (List.map Entry.request _).length
      simp
  | @map type merged m hm =>
      refine ⟨.of_edges_eq_nil rfl hscope ?_, hscope⟩
      have hkeys := length_mapKeys (fun e he => hg.faithful.keyed hscope hm he)
      rw [← List.length_map (f := Entry.request)] at hkeys
      exact hkeys
  | provider hp =>
      have hencloses := Graph.encloses_of_pushScope hp
      exact ⟨.of_edges_eq_nil rfl (Nat.lt_of_lt_of_le hscope hsize) hencloses, hopened hencloses⟩
  | childComponent _ hadd =>
      obtain ⟨found, -, hp⟩ := Graph.addScope_eq_ok hadd
      have hencloses := Graph.encloses_of_pushScope hp
      exact ⟨.of_edges_eq_nil rfl (Nat.lt_of_lt_of_le hscope hsize) hencloses, hopened hencloses⟩

theorem Blueprint.charted
    {B : Build}
    {s : Scope}
    {evaluated : ScopeId}
    {r : Request}
    {c : Candidate}
    {n : Node}
    {demands : List Demand}
    {g g' : Graph}
    (h : Blueprint B s.id r g c n evaluated demands g')
    (hs : g.scope? s.id = some s)
    (hfaithful : g.Faithful B)
    (hcharted : g.Charted) :
    g'.Faithful B ∧ g'.Charted := by
  have hparent : ∀ p, some s.id = some p → p.index < g.scopes.size := by
    rintro p ⟨⟩
    exact Graph.lt_size_of_scope? hs
  exact h.surroundings (P := fun g => g.Faithful B ∧ g.Charted)
    (fun hg hm => ⟨hg.1.merges hm, hg.2.of_scopes_eq rfl⟩)
    (fun hp => ⟨hfaithful.pushScope hparent hp,
      hcharted.pushScope hfaithful.tree.numbered hfaithful.rooted hparent hp⟩)
    ⟨hfaithful, hcharted⟩

theorem Blueprint.firm
    {B : Build}
    {s : Scope}
    {evaluated : ScopeId}
    {r : Request}
    {c : Candidate}
    {n : Node}
    {demands : List Demand}
    {g g' : Graph}
    (h : Blueprint B s.id r g c n evaluated demands g')
    (hs : g.scope? s.id = some s)
    (hg : g.Firm B) :
    g'.Firm B := by
  obtain ⟨hfaithful, hcharted⟩ := h.charted hs hg.faithful hg.charted
  exact ⟨hfaithful, hcharted, h.bounded hg.bounded,
    Graph.every_carries_of_eq hg.nodes h.nodes_eq h.grows⟩

namespace Graph.Firm

variable {B : Build} {g : Graph}

theorem withMemo
    (h : g.Firm B)
    {m : Memo}
    (hm : g.Merges B m) :
    (g.withMemo m).Firm B :=
  ⟨h.faithful.merges hm, h.charted.of_scopes_eq rfl, h.bounded,
    every_carries_of_eq h.nodes rfl ((Grows.refl g).withMemo m)⟩

theorem remember
    (h : g.Firm B)
    {id : NodeId}
    (hid : id.index < g.nodes.size)
    (scope : ScopeId)
    (t : Ty) :
    (g.remember scope t id).Firm B :=
  ⟨h.faithful.congr rfl rfl, h.charted.of_scopes_eq rfl, h.bounded.remember hid scope t,
    every_carries_of_eq h.nodes rfl ((Grows.refl g).remember scope t id)⟩

theorem begin
    (h : g.Firm B)
    {n : Node}
    (hn : g.Carries n)
    (key : Option Ty)
    (scope : ScopeId) :
    (g.begin n key scope).Firm B := by
  have hgrows := (Grows.refl g).begin n key scope
  refine ⟨h.faithful.congr (begin_scopes g n key scope) (begin_memo g n key scope),
    h.charted.of_scopes_eq (begin_scopes g n key scope), h.bounded.begin n key scope, ?_⟩
  exact (h.nodes.carries hgrows).begin ((hn.grows hgrows).withId g.nextId) key scope

theorem change
    (h : g.Firm B)
    (id : NodeId)
    {f : Node → Node}
    (hf : ∀ n, g.node? id = some n → g.Carries n → g.Carries (f n)) :
    (g.change id f).Firm B :=
  ⟨h.faithful.congr rfl rfl, h.charted.of_scopes_eq rfl, h.bounded.change id f,
    every_carries_change h.nodes id hf⟩

/-- Narrowing the type of an invocation does no harm. -/
theorem narrowAt
    (h : g.Firm B)
    {id : NodeId}
    {n : Node}
    (hn : g.node? id = some n)
    (hinput : ∀ index, n.kind ≠ .input index)
    (declared : Declaration)
    (assisted : Bool) :
    (g.narrowAt B id declared assisted).Firm B := by
  rcases narrowAt_cases B g id declared assisted with heq | ⟨-, types, heq⟩
  · rw [heq]
    exact h
  · rw [heq]
    refine h.change id fun n' hn' hcarries => ?_
    rw [hn] at hn'
    cases hn'
    exact hcarries.withType hinput _

end Graph.Firm

/-- A part of a search only appends nodes that are carried. -/
theorem Derives.firm
    {B : Build}
    {stack : List NodeId}
    {J : Judgement}
    {g g' : Graph}
    (h : Derives B stack g J g')
    (hstack : ∀ i ∈ stack, i.index < g.nodes.size)
    (hJ : J.Grounded g)
    (hg : g.Firm B) :
    g'.Firm B := by
  have hplain : ∀ {g : Graph} {type : Ty} {owner : ScopeId} {kind : NodeKind},
      owner.index < g.scopes.size → (Node.plain type owner kind).KindFits g →
      g.Carries (.plain type owner kind) := fun howner hkind =>
    .of_edges_eq_nil rfl howner hkind
  induction h with
  | found _ ih => exact ih hstack hJ hg
  | null habsent _ _ ih =>
      obtain ⟨m, hm, rfl⟩ := habsent.withMemo
      exact ih hstack ⟨hplain hJ trivial, hJ⟩ (hg.withMemo hm)
  | missing habsent _ _ _ ih =>
      obtain ⟨m, hm, rfl⟩ := habsent.withMemo
      exact ih hstack ⟨hplain hJ trivial, hJ⟩ (hg.withMemo hm)
  | recalled => exact hg
  | chosen _ hscope hsid hoffers _ _ ih =>
      obtain ⟨m, hm, rfl⟩ := hoffers.withMemo
      subst hsid
      exact ih hstack hscope (hg.withMemo hm)
  | inherited _ hscope hoffers hparent hd ih =>
      have hlt := hg.faithful.rooted _ _ _ hscope hparent
      obtain ⟨m, hm, rfl⟩ := hoffers.withMemo
      have hid := (hd.bounded hstack (hg.withMemo hm).bounded).2
      exact (ih hstack (Nat.lt_trans hlt hJ) (hg.withMemo hm)).remember
        (hid _ (List.mem_singleton_self _)) _ _
  | declaration hoffered _ ih =>
      have hscope := Graph.lt_size_of_scope? hJ
      exact ih hstack ⟨hscope, hoffered.above_declaredIn hg.faithful.tree hJ⟩ hg
  | keptInput _ hfound => exact hg.remember (hg.bounded.find? hfound) _ _
  | aliasAgain => exact hg
  | built hoffered hblueprint _ ih =>
      exact ih (stack_grows hstack hblueprint.grows) (hblueprint.carries hg hJ hoffered) (hblueprint.firm hJ hg)
  | again => exact hg
  | relocated _ _ hfound _ => exact hg.remember (hg.bounded.find? hfound) _ _
  | @fresh stack scope owner declaredIn key e declared assisted n entries attached m id g
      g₁ g' _ howner _ hnode hn hvisible hd ihnode ih =>
      obtain ⟨hscope, hdeclared⟩ := hJ
      have habove := hg.faithful.tree.above_ownerOf hdeclared e.declaration
      rw [howner] at habove
      have hsize := hg.faithful.rooted.lt_size_of_above hscope habove
      have hnew : g.Carries (.ofDeclaration e declared
          (if assisted then key.getD e.declaration.type else e.declaration.type)
          assisted owner) := .of_edges_eq_nil rfl hsize trivial
      have hg₁ := ihnode hstack ⟨hnew, hsize⟩ hg
      -- the node that is narrowed is an invocation
      obtain ⟨ids, hbuilt⟩ := hnode.node_built
      have hg₂ := hg₁.narrowAt hbuilt (fun _ hkind => nomatch hkind) declared assisted
      have hmerges : (g₁.narrowAt B id declared assisted).Merges B _ :=
        .interceptors n.type owner .none
      rw [hvisible] at hmerges
      obtain ⟨hstack₂, -⟩ := hnode.reopened hstack hg.bounded declared assisted
      have howner₂ : owner.index < (g₁.narrowAt B id declared assisted).scopes.size := by
        rw [Graph.narrowAt_scopes]
        exact Nat.lt_of_lt_of_le hsize hnode.grows.size_scopes
      have hg₃ := hg₂.withMemo hmerges
      have hattached := (hd.bounded hstack₂ hg₃.bounded).2
      exact (ih hstack₂ howner₂ hg₃).change id
        (fun _ _ hcarries => hcarries.withInterceptors hattached)
  | @node stack n key scope evaluated demands ids g g' _ hd ih =>
      obtain ⟨hn, hevaluated⟩ := hJ
      have hg₁ := hg.begin hn key scope
      have hstack₁ := stack_push hstack n key scope
      have hevaluated₁ : evaluated.index < (g.begin n key scope).scopes.size := by
        rw [Graph.begin_scopes]
        exact hevaluated
      have hids := (hd.bounded hstack₁ hg₁.bounded).2
      exact (ih hstack₁ hevaluated₁ hg₁).change g.nextId
        (fun _ _ hcarries => hcarries.withResolved hids)
  | noDemands => exact hg
  | requestDemand hd _ ih ihs =>
      exact ihs (stack_grows hstack hd.grows) (Nat.lt_of_lt_of_le hJ hd.grows.size_scopes)
        (ih hstack hJ hg)
  | entryDemand hd _ ih ihs =>
      exact ihs (stack_grows hstack hd.grows) (Nat.lt_of_lt_of_le hJ hd.grows.size_scopes)
        (ih hstack ⟨hJ, .refl⟩ hg)
  | noInterceptors => exact hg
  | interceptor hd _ ih ihs =>
      exact ihs (stack_grows hstack hd.grows) (Nat.lt_of_lt_of_le hJ hd.grows.size_scopes)
        (ih hstack hJ hg)

end Wiring
