import Wiring.Proofs.Ownership.Search
import Wiring.Proofs.Reachable

/-!
# Pinned declarations

A declaration that is pinned to a component is meant to be built by the scope of that
component.  A scope uses such a declaration only below the component, so an answer to a
request is built there.  The entries of a collection are not looked at in this way: an
entry whose component is not in sight is built by the scope of the collection.

**Results.**
* `Offers.isVisible`: whatever a tier holds can be used along the ancestry.
* `Derives.pinned`: a part of a search builds pinned declarations in their component, but
  for entries that the scope of their collection builds.
* `Graph.Reachable.pinned_iff`: all pinned declarations are built in their component
  exactly if this is so for the entries that the scope of their collection builds.
-/

namespace Wiring

/-- The component that the declaration of a node is pinned to. -/
def Node.pinnedTo? (n : Node) : Option Ty :=
  match n.kind with
  | .callable .. => n.component
  | _ => none

namespace Graph

/-- Whether a scope builds exactly this component. -/
def Builds (g : Graph) (scope : ScopeId) (t : Ty) : Prop :=
  ∃ s, g.scope? scope = some s ∧ s.component = some t

/-- Whether the nodes of a given set that are pinned to a component are owned by a scope
that builds it. -/
def Pinned (g : Graph) (which : NodeId → Prop) : Prop :=
  ∀ ⦃id : NodeId⦄ ⦃n : Node⦄ ⦃t : Ty⦄, g.node? id = some n → n.pinnedTo? = some t →
    which id → g.Builds n.owner t

/-- Whether a node is an entry of a collection that a scope owns. -/
def EntryOf (g : Graph) (scope : ScopeId) (id : NodeId) : Prop :=
  ∃ c n, g.node? c = some n ∧ n.kind.isCollection = true ∧ n.owner = scope ∧ id ∈ n.resolved

/-- Whether a node is an entry of a collection with the same owner. -/
def OwnEntry (g : Graph) (id : NodeId) : Prop :=
  ∃ n, g.node? id = some n ∧ g.EntryOf n.owner id

/-- Whether all pinned nodes are owned by their component or entries of a collection with
the same owner, but for nodes that are still to be recorded as such entries. -/
def PinnedExcept (g : Graph) (pending : NodeId → Prop) : Prop :=
  ∀ ⦃id : NodeId⦄ ⦃n : Node⦄ ⦃t : Ty⦄, g.node? id = some n → n.pinnedTo? = some t →
    g.Builds n.owner t ∨ g.EntryOf n.owner id ∨ pending id

end Graph

/-! ## What can be seen -/

theorem Candidate.component?_eq_none
    {c : Candidate}
    (h : c.isExplicit = false) :
    c.component? = none := by
  cases c with
  | declaration => exact nomatch h
  | input | object | funAlias | provider | set | map | self | childComponent => rfl

theorem Resolve.isVisible_of_not_isExplicit
    {c : Candidate}
    (h : c.isExplicit = false)
    (path : List Scope) :
    isVisible path c = true := by
  unfold isVisible
  rw [Candidate.component?_eq_none h]

/-- A pinned declaration that can be used has its component in sight. -/
theorem Resolve.isSome_of_isVisible
    {path : List Scope}
    {m : Match}
    (h : isVisible path (.declaration m) = true)
    {t : Ty}
    (ht : m.declaration.component = some t) :
    (ownerForTarget path t).isSome = true := by
  unfold isVisible at h
  rw [show (Candidate.declaration m).component? = some t from ht] at h
  exact h

/-- What the shape of a type offers is neither a declaration nor an input. -/
theorem Resolve.not_isExplicit_of_frameworkCandidates
    {B : Build}
    {sc : Scope}
    {path : List Scope}
    {t : Ty}
    {own offered : List Candidate}
    {s s' : Search}
    (h : frameworkCandidates B sc path t own s = .ok offered s')
    {c : Candidate}
    (hc : c ∈ offered) :
    c.isExplicit = false := by
  obtain ⟨shaped, s₁, hshaped, h₁⟩ := bind_eq_ok.mp h
  obtain ⟨map, s₂, hmap, h₂⟩ := bind_eq_ok.mp h₁
  obtain ⟨rfl, -⟩ := pure_eq_ok.mp h₂
  simp only [List.mem_append] at hc
  rcases hc with ((hc | hc) | hc) | hc
  · simpa using (List.mem_filter.mp (mem_of_filterM hshaped hc)).2
  · unfold selfCandidate at hc
    split at hc
    · rw [List.mem_singleton.mp hc]
      rfl
    · exact nomatch hc
  · unfold childCandidate at hc
    split at hc
    · split at hc
      · rw [List.mem_singleton.mp hc]
        rfl
      · exact nomatch hc
    · exact nomatch hc
  · unfold mapCandidate at hmap
    split at hmap
    · obtain ⟨found, s₃, -, h₃⟩ := bind_eq_ok.mp hmap
      obtain ⟨rfl, -⟩ := pure_eq_ok.mp h₃
      split at hc
      · rw [List.mem_singleton.mp hc]
        rfl
      · exact nomatch hc
    · obtain ⟨rfl, -⟩ := pure_eq_ok.mp hmap
      exact nomatch hc

/-- Whatever a tier holds can be used along the ancestry of the scope. -/
theorem Offers.isVisible
    {B : Build}
    {s : Scope}
    {t : Ty}
    {candidates : List Candidate}
    {g g' : Graph}
    (h : Offers B s t g candidates g')
    {c : Candidate}
    (hc : c ∈ candidates) :
    Resolve.isVisible (g.path s.id) c = true := by
  cases h with
  | explicit => exact (Bool.and_eq_true_iff.mp (List.mem_filter.mp hc).2).2
  | internal => exact (List.mem_filter.mp hc).2
  | external => exact (List.mem_filter.mp hc).2
  | framework _ _ _ hrun =>
      exact Resolve.isVisible_of_not_isExplicit
        (Resolve.not_isExplicit_of_frameworkCandidates hrun hc) _

/-- The scopes of an ancestry are at their positions. -/
theorem IsPath.scope?_of_mem
    {g : Graph}
    (hg : g.Numbered)
    {scope : Option ScopeId}
    {path : List Scope}
    (hpath : IsPath g scope path)
    {s : Scope}
    (hs : s ∈ path) :
    g.scope? s.id = some s := by
  induction path generalizing scope with
  | nil => exact nomatch hs
  | cons s' ancestors ih =>
      cases scope with
      | none => exact hpath.elim
      | some scope =>
          obtain ⟨hs', hancestors⟩ := hpath
          rcases List.mem_cons.mp hs with rfl | hs
          · rw [hg _ _ hs']
            exact hs'
          · exact ih hancestors hs

/-- The owner that a component determines builds it. -/
theorem Graph.Numbered.builds
    {g : Graph}
    (hg : g.Numbered)
    {scope owner : ScopeId}
    {t : Ty}
    (h : ownerForTarget (g.path scope) t = some owner) :
    g.Builds owner t := by
  obtain ⟨s, hfind, rfl⟩ := Option.map_eq_some_iff.mp h
  have hs := (g.isPath_path scope).scope?_of_mem hg (List.mem_of_find?_eq_some hfind)
  have hbuilds := List.find?_some hfind
  exact ⟨s, hs, of_decide_eq_true hbuilds⟩

/-- The owner of a declaration's node builds the component that the declaration is pinned
to, unless that is not in sight. -/
theorem Graph.Numbered.builds_ownerOf
    {g : Graph}
    (hg : g.Numbered)
    {d : Declaration}
    {t : Ty}
    (ht : d.component = some t)
    (scope : ScopeId)
    (declaredIn : Option ScopeId) :
    g.Builds (ownerOf (g.path scope) scope declaredIn d) t
      ∨ (ownerForTarget (g.path scope) t = none
        ∧ ownerOf (g.path scope) scope declaredIn d = declaredIn.getD scope) := by
  unfold ownerOf
  rw [ht]
  dsimp only
  cases howner : ownerForTarget (g.path scope) t with
  | none => exact .inr ⟨rfl, rfl⟩
  | some owner => exact .inl (hg.builds howner)

/-! ## Single changes -/

namespace Graph

variable {g g' : Graph} {pending pending' : NodeId → Prop}

theorem Builds.of_grows
    (hscopes : ∀ {i : Nat} {s : Scope}, g.scopes[i]? = some s → g'.scopes[i]? = some s)
    {scope : ScopeId}
    {t : Ty}
    (h : g.Builds scope t) :
    g'.Builds scope t := by
  obtain ⟨s, hs, ht⟩ := h
  exact ⟨s, hscopes hs, ht⟩

namespace PinnedExcept

theorem imp
    (h : g.PinnedExcept pending)
    (himp : ∀ ⦃id : NodeId⦄ ⦃n : Node⦄ ⦃t : Ty⦄, g.node? id = some n →
      n.pinnedTo? = some t → pending id →
      g.Builds n.owner t ∨ g.EntryOf n.owner id ∨ pending' id) :
    g.PinnedExcept pending' := by
  intro id n t hn ht
  rcases h hn ht with hbuilds | hentry | hpending
  · exact .inl hbuilds
  · exact .inr (.inl hentry)
  · exact himp hn ht hpending

theorem weaken
    (h : g.PinnedExcept pending)
    (himp : ∀ id, pending id → pending' id) :
    g.PinnedExcept pending' :=
  h.imp (fun id _ _ _ _ hp => .inr (.inr (himp id hp)))

/-- More scopes do no harm. -/
theorem of_nodes_eq
    (h : g.PinnedExcept pending)
    (hnodes : g'.nodes = g.nodes)
    (hscopes : ∀ {i : Nat} {s : Scope}, g.scopes[i]? = some s → g'.scopes[i]? = some s) :
    g'.PinnedExcept pending := by
  have hnode := Graph.node?_congr hnodes
  intro id n t hn ht
  rw [hnode] at hn
  rcases h hn ht with hbuilds | ⟨c, cn, hc, hentry⟩ | hpending
  · exact .inl (hbuilds.of_grows hscopes)
  · exact .inr (.inl ⟨c, cn, (hnode c).trans hc, hentry⟩)
  · exact .inr (.inr hpending)

/-- A new node is pending. -/
theorem begin
    (h : g.PinnedExcept pending)
    (n : Node)
    (key : Option Ty)
    (scope : ScopeId) :
    (g.begin n key scope).PinnedExcept (fun id => pending id ∨ id = g.nextId) := by
  have hgrows := (Grows.refl g).begin n key scope
  intro id n' t hn' ht
  rcases begin_node?_eq_some hn' with hn | ⟨rfl, -⟩
  · rcases h hn ht with hbuilds | ⟨c, cn, hc, hentry⟩ | hpending
    · exact .inl (hbuilds.of_grows hgrows.scopes)
    · exact .inr (.inl ⟨c, cn, hgrows.node? hc, hentry⟩)
    · exact .inr (.inr (.inl hpending))
  · exact .inr (.inr (.inr rfl))

/-- A change that keeps what a node stands for and refers to nothing less. -/
theorem change
    (h : g.PinnedExcept pending)
    (id : NodeId)
    {f : Node → Node}
    (hkind : ∀ n, (f n).kind = n.kind)
    (howner : ∀ n, (f n).owner = n.owner)
    (hcomponent : ∀ n, (f n).component = n.component)
    (hresolved : ∀ n, g.node? id = some n → n.resolved ⊆ (f n).resolved) :
    (g.change id f).PinnedExcept pending := by
  -- an entry stays one
  have hentry : ∀ {scope : ScopeId} {d : NodeId}, g.EntryOf scope d →
      (g.change id f).EntryOf scope d := by
    rintro scope d ⟨c, cn, hc, hcollection, howned, hd⟩
    by_cases heq : id = c
    · subst heq
      exact ⟨id, f cn, change_node? hc f, by rw [hkind]; exact hcollection,
        (howner cn).trans howned, hresolved cn hc hd⟩
    · exact ⟨c, cn, (change_node?_of_ne heq f).trans hc, hcollection, howned, hd⟩
  have hpinned : ∀ n, (f n).pinnedTo? = n.pinnedTo? := fun n => by
    unfold Node.pinnedTo?
    rw [hkind, hcomponent]
  intro id' n' t hn' ht
  by_cases heq : id = id'
  · subst heq
    obtain ⟨n, hn, rfl⟩ := change_node?_self_eq_some hn'
    rw [hpinned] at ht
    rw [howner]
    exact (h hn ht).imp (fun hb => hb) (Or.imp_left hentry)
  · rw [change_node?_of_ne heq] at hn'
    exact (h hn' ht).imp (fun hb => hb) (Or.imp_left hentry)

theorem narrowAt
    (h : g.PinnedExcept pending)
    (B : Build)
    (id : NodeId)
    (declared : Declaration)
    (assisted : Bool) :
    (g.narrowAt B id declared assisted).PinnedExcept pending := by
  rcases narrowAt_cases B g id declared assisted with heq | ⟨-, types, heq⟩
  · rw [heq]
    exact h
  · rw [heq]
    exact h.change id (fun _ => rfl) (fun _ => rfl) (fun _ => rfl)
      (fun n _ => List.Subset.refl n.resolved)

end PinnedExcept
end Graph

/-! ## Parts of a search -/

namespace Judgement

/-- Whether what a part of a search is to build can be used along the ancestry. -/
def Seen (g : Graph) : Judgement → Prop
  | candidate s _ c _ => Resolve.isVisible (g.path s.id) c = true
  | declaration scope _ (some _) e _ _ _ =>
      ∀ t, e.declaration.component = some t → (ownerForTarget (g.path scope) t).isSome = true
  | _ => True

/-- The nodes of a part of a search that are still to be recorded as entries of a
collection: one that was just appended, and entries that the scope itself owns. -/
def Unrecorded (g : Graph) : Judgement → NodeId → Prop
  | .node _ _ _ _ _ id, d => d = id
  | .declaration scope _ none _ _ _ id, d =>
      d = id ∧ ∃ n, g.node? d = some n ∧ n.owner = scope
  | .demands scope entries ids, d =>
      (∃ e, (Demand.entry e, d) ∈ entries.zip ids) ∧ ∃ n, g.node? d = some n ∧ n.owner = scope
  | _, _ => False

end Judgement

/-- No other node that a candidate asks for is pinned. -/
theorem Blueprint.pinnedTo?_eq_none
    {B : Build}
    {scope evaluated : ScopeId}
    {r : Request}
    {c : Candidate}
    {n : Node}
    {demands : List Demand}
    {g g' : Graph}
    (h : Blueprint B scope r g c n evaluated demands g') :
    n.pinnedTo? = none := by
  cases h with
  | input | object | self | funAlias | set | map | provider | childComponent => rfl

/-- The node of an unpinned value need not be recorded as an entry. -/
theorem Derives.pinned_of_unpinned
    {B : Build}
    {stack : List NodeId}
    {n : Node}
    {key : Option Ty}
    {scope evaluated : ScopeId}
    {demands : List Demand}
    {id : NodeId}
    {g g' : Graph}
    {pending : NodeId → Prop}
    (h : Derives B stack g (.node n key scope evaluated demands id) g')
    (hpinned : n.pinnedTo? = none)
    (hg : g'.PinnedExcept (fun d => pending d ∨ d = id)) :
    g'.PinnedExcept pending := by
  obtain ⟨ids, hbuilt⟩ := h.node_built
  refine hg.imp fun d n' t hn' ht hd => ?_
  rcases hd with hd | rfl
  · exact .inr (.inr hd)
  · rw [hbuilt] at hn'
    cases hn'
    exact absurd (hpinned.symm.trans ht) (Option.some_ne_none t).symm

/-- The node of a declaration, once its interceptors are attached: it is built in the
component that it is pinned to, unless it is an entry that the scope of its collection
builds. -/
theorem Derives.pinned_of_attached
    {B : Build}
    {stack : List NodeId}
    {scope owner : ScopeId}
    {declaredIn : Option ScopeId}
    {key : Option Ty}
    {e : Entry}
    {declared : Declaration}
    {assisted : Bool}
    {type : Ty}
    {entries : List Entry}
    {attached : List Interceptor}
    {m : Memo}
    {id : NodeId}
    {g g₁ g' : Graph}
    {pending : NodeId → Prop}
    (hnumbered : g.Numbered)
    (hseen : (Judgement.declaration scope declaredIn key e declared assisted id).Seen g)
    (hsupplied : Supplied B declaredIn key e declared assisted)
    (howner : ownerOf (g.path scope) scope declaredIn e.declaration = owner)
    (hnode : Derives B stack g
      (.node
        (.ofDeclaration e declared
          (if assisted then key.getD e.declaration.type else e.declaration.type)
          assisted owner)
        key scope owner (e.declaration.requests.map .request) id) g₁)
    (hd : Derives B (stack ++ [id]) ((g₁.narrowAt B id declared assisted).withMemo m)
      (.interceptors id owner type entries attached) g')
    (hg' : g'.PinnedExcept (fun d => pending d ∨ d = id)) :
    (g'.change id (fun n => { n with interceptors := attached })).PinnedExcept
      (fun d => pending d
        ∨ (Judgement.declaration scope declaredIn key e declared assisted id).Unrecorded
          (g'.change id (fun n => { n with interceptors := attached })) d) := by
  -- the node is pinned as the declaration is, and keeps its owner
  obtain ⟨ids, type, hnarrowed⟩ := hnode.narrowed_node? declared assisted
  have hchanged := Graph.change_node? (hd.grows.node? hnarrowed)
    (fun n => { n with interceptors := attached })
  have hscopes : ∀ {i : Nat} {s : Scope}, g.scopes[i]? = some s →
      g'.scopes[i]? = some s := fun hs => hd.grows.scopes
        ((Graph.narrowAt_scopes B g₁ id declared assisted) ▸ hnode.grows.scopes hs)
  refine Graph.PinnedExcept.imp (hg'.change id (fun _ => rfl) (fun _ => rfl)
    (fun _ => rfl) (fun n _ => List.Subset.refl n.resolved)) fun d n' t hn' ht hd => ?_
  rcases hd with hpending | rfl
  · exact .inr (.inr (.inl hpending))
  · rw [hchanged] at hn'
    cases hn'
    change e.declaration.component = some t at ht
    have hbuilds := hnumbered.builds_ownerOf ht scope declaredIn
    rw [howner] at hbuilds
    rcases hbuilds with hbuilds | ⟨hnone, hdeclaring⟩
    · exact .inl (hbuilds.of_grows hscopes)
    · cases key with
      | some key => exact absurd (hseen t ht) (by simp [hnone])
      | none =>
          -- an entry of a collection, which says nothing about its scope
          cases hsupplied with
          | entry => exact .inr (.inr (.inr ⟨rfl, _, hchanged, hdeclaring⟩))

/-- The entries of a collection are asked for in the scope that owns the collection. -/
theorem Node.Plans.owner_of_isCollection
    {n : Node}
    {evaluated : ScopeId}
    {demands : List Demand}
    (h : n.Plans evaluated demands)
    (hcollection : n.kind.isCollection = true) :
    n.owner = evaluated := by
  rw [← h.evaluated]
  unfold Node.evaluated
  cases hkind : n.kind with
  | provider | childComponent =>
      rw [hkind] at hcollection
      exact nomatch hcollection
  | _ => rfl

/-- A node, once the answers to what it asks for are recorded: those entries of it that its
owner builds are entries of a collection now. -/
theorem Derives.pinned_of_resolved
    {B : Build}
    {stack : List NodeId}
    {n : Node}
    {key : Option Ty}
    {scope evaluated : ScopeId}
    {demands : List Demand}
    {ids : List NodeId}
    {g g' : Graph}
    {pending : NodeId → Prop}
    (hplans : n.Plans evaluated demands)
    (hd : Derives B (stack ++ [g.nextId]) (g.begin n key scope)
      (.demands evaluated demands ids) g')
    (hg' : g'.PinnedExcept
      (fun d => pending d ∨ (Judgement.demands evaluated demands ids).Unrecorded g' d)) :
    (g'.change g.nextId (fun n => { n with resolved := ids })).PinnedExcept pending := by
  have hold := hd.grows.node? (g.begin_node?_self n key scope)
  have hchanged := Graph.change_node? hold (fun n => { n with resolved := ids })
  refine Graph.PinnedExcept.imp (hg'.change g.nextId (fun _ => rfl) (fun _ => rfl)
    (fun _ => rfl) (fun n' hn' => ?_)) fun d n' t hn' ht hd => ?_
  · -- the new node referred to nothing so far
    rw [hold] at hn'
    cases hn'
    change n.resolved ⊆ ids
    rw [hplans.resolved]
    exact List.nil_subset ids
  · rcases hd with hpending | ⟨⟨e, hentry⟩, n₀, hn₀, hn₀owner⟩
    · exact .inr (.inr hpending)
    · cases hcollection : n.kind.isCollection with
      | false =>
          obtain ⟨rs, rfl⟩ := hplans.requests hcollection
          obtain ⟨r, -, heq⟩ := List.mem_map.mp (List.of_mem_zip hentry).1
          exact nomatch heq
      | true =>
          have howner := hplans.owner_of_isCollection hcollection
          have hn'owner : n'.owner = evaluated := by
            by_cases heq : g.nextId = d
            · subst heq
              rw [hchanged] at hn'
              cases hn'
              exact howner
            · rw [Graph.change_node?_of_ne heq, hn₀] at hn'
              exact Option.some.inj hn' ▸ hn₀owner
          exact .inr (.inl ⟨g.nextId, _, hchanged, hcollection,
            howner.trans hn'owner.symm, (List.of_mem_zip hentry).2⟩)

/-- A part of a search builds pinned declarations in their component, but for entries that
the scope of their collection builds. -/
theorem Derives.pinned
    {B : Build}
    {stack : List NodeId}
    {J : Judgement}
    {g g' : Graph}
    (h : Derives B stack g J g')
    (hnumbered : g.Numbered)
    (hseen : J.Seen g)
    {pending : NodeId → Prop}
    (hg : g.PinnedExcept pending) :
    g'.PinnedExcept (fun d => pending d ∨ J.Unrecorded g' d) := by
  induction h generalizing pending with
  | found _ ih => exact ih hnumbered trivial hg
  | null habsent _ hd ih =>
      obtain ⟨m, -, rfl⟩ := habsent.withMemo
      exact (hd.pinned_of_unpinned rfl (ih hnumbered trivial hg)).weaken (fun _ => .inl)
  | missing habsent _ _ hd ih =>
      obtain ⟨m, -, rfl⟩ := habsent.withMemo
      exact (hd.pinned_of_unpinned rfl (ih hnumbered trivial hg)).weaken (fun _ => .inl)
  | recalled => exact hg.weaken (fun _ => .inl)
  | chosen _ _ _ hoffers hchosen _ ih =>
      have hvisible := hoffers.isVisible (mem_of_mostSpecific_eq_chosen hchosen)
      obtain ⟨m, -, rfl⟩ := hoffers.withMemo
      exact ih hnumbered hvisible hg
  | inherited _ _ hoffers _ _ ih =>
      obtain ⟨m, -, rfl⟩ := hoffers.withMemo
      exact (ih hnumbered trivial hg).of_nodes_eq rfl (fun hs => hs)
  | @declaration stack s r m id g g' _ _ ih =>
      exact ih hnumbered (fun t ht => Resolve.isSome_of_isVisible hseen ht) hg
  | keptInput => exact (hg.of_nodes_eq rfl (fun hs => hs)).weaken (fun _ => .inl)
  | aliasAgain => exact hg.weaken (fun _ => .inl)
  | built _ hblueprint hd ih =>
      have hg₁ := hg.of_nodes_eq hblueprint.nodes_eq hblueprint.grows.scopes
      exact (hd.pinned_of_unpinned hblueprint.pinnedTo?_eq_none
        (ih (hblueprint.numbered hnumbered) trivial hg₁)).weaken (fun _ => .inl)
  | again => exact hg.weaken (fun _ => .inl)
  | relocated => exact (hg.of_nodes_eq rfl (fun hs => hs)).weaken (fun _ => .inl)
  | @fresh stack scope owner declaredIn key e declared assisted n entries attached m id g
      g₁ g' hsupplied howner _ hnode _ _ hd ihnode ih =>
      have hnumbered₁ : (g₁.narrowAt B id declared assisted).Numbered :=
        (hnode.numbered hnumbered).of_scopes_eq (Graph.narrowAt_scopes _ _ _ _ _)
      have hg₁ := (ihnode hnumbered trivial hg).narrowAt B id declared assisted
      have hg' := ih hnumbered₁ trivial (hg₁.of_nodes_eq rfl (fun hs => hs))
      exact Derives.pinned_of_attached hnumbered hseen hsupplied howner hnode hd
        (hg'.weaken (fun d hd => hd.resolve_right (fun hfalse => hfalse)))
  | @node stack n key scope evaluated demands ids g g' hplans hd ih =>
      have hnumbered₁ := hnumbered.of_scopes_eq (Graph.begin_scopes g n key scope)
      exact Derives.pinned_of_resolved hplans hd
        (ih hnumbered₁ trivial (hg.begin n key scope))
  | noDemands => exact hg.weaken (fun _ => .inl)
  | requestDemand hd hds ih ihs =>
      have hg₁ := ih hnumbered trivial hg
      have hg' := ihs (hd.numbered hnumbered) trivial hg₁
      refine hg'.weaken fun d hd => ?_
      rcases hd with (hpending | hfalse) | ⟨⟨e, hentry⟩, hscope⟩
      · exact .inl hpending
      · exact hfalse.elim
      · exact .inr ⟨⟨e, List.mem_cons_of_mem _ hentry⟩, hscope⟩
  | entryDemand hd hds ih ihs =>
      have hg₁ := ih hnumbered trivial hg
      have hg' := ihs (hd.numbered hnumbered) trivial hg₁
      refine hg'.weaken fun d hd => ?_
      rcases hd with (hpending | ⟨rfl, n, hn, howner⟩) | ⟨⟨e, hentry⟩, hscope⟩
      · exact .inl hpending
      · exact .inr ⟨⟨_, List.mem_cons_self⟩, n, hds.grows.node? hn, howner⟩
      · exact .inr ⟨⟨e, List.mem_cons_of_mem _ hentry⟩, hscope⟩
  | noInterceptors => exact hg.weaken (fun _ => .inl)
  | @interceptor _ _ _ _ _ _ _ _ _ g₁ _ hd _ ih ihs =>
      have hg₁ : g₁.PinnedExcept pending := by
        refine (ih hnumbered trivial hg).weaken fun d hd => ?_
        rcases hd with hpending | ⟨⟨e, hentry⟩, -⟩
        · exact hpending
        · obtain ⟨r, -, heq⟩ := List.mem_map.mp (List.of_mem_zip hentry).1
          exact nomatch heq
      exact ihs (hd.numbered hnumbered) trivial hg₁

/-! ## Graphs that calls reach -/

namespace Graph

theorem Reachable.pinnedExcept
    {B : Build}
    {g : Graph}
    (h : Reachable B g) :
    g.PinnedExcept (fun _ => False) := by
  refine h.invariant (P := fun g => g.PinnedExcept (fun _ => False)) ?_ ?_ ?_ ?_
  · exact fun id n t hn => nomatch hn
  · exact fun hg hp =>
      hg.of_nodes_eq (pushScope_answers hp).2 ((Grows.refl _).pushScope hp).scopes
  · intro g g₁ scope r node hg hnumbered hd
    have hg₁ : g₁.PinnedExcept (fun _ => False) :=
      (hd.pinned hnumbered trivial hg).weaken (fun _ hpending => hpending.elim id id)
    exact hg₁.of_nodes_eq rfl (fun hs => hs)
  · intro g g₁ hg hnumbered hf
    refine hg.of_nodes_eq hf.grows.rollback_nodes fun hs => ?_
    rw [hf.grows.rollback_scopes]
    exact hs

/-- All pinned declarations are built in their component exactly if this is so for the
entries that the scope of their collection builds. -/
theorem Reachable.pinned_iff
    {B : Build}
    {g : Graph}
    (h : Reachable B g) :
    g.Pinned (fun _ => True) ↔ g.Pinned g.OwnEntry := by
  constructor
  · intro hpinned id n t hn ht _
    exact hpinned hn ht trivial
  · intro hentries id n t hn ht _
    rcases h.pinnedExcept hn ht with hbuilds | hentry | hfalse
    · exact hbuilds
    · exact hentries hn ht ⟨n, hn, hentry⟩
    · exact hfalse.elim

/-! ## A pinned element of a set -/

/-- A class `A` and a component `X`. -/
def pinningBuild : Build where
  registry :=
    { Registry.initial with
      registered := #[{ name := ⟨"A"⟩ }, { name := ⟨"X"⟩, flags := [.component] }] }

/-- A scope that builds no component contributes an element pinned to `X` to a set of `A`,
and asks for the set. -/
def elementGraph : Graph :=
  (Graph.empty.withScope pinningBuild none { name := "App" }
      [{ name := ⟨"app.a"⟩
         type := .of ⟨16⟩
         role := .setElement
         component := some (.of ⟨17⟩) }]).resolve pinningBuild ⟨0⟩
    { type := .setOf (.of ⟨16⟩), origin := ⟨"app"⟩ } |>.2

theorem elementGraph_reachable : Reachable pinningBuild elementGraph :=
  .resolve _ _ (Reachable.empty.withScope _ _ _)

theorem elementGraph_pinned_iff :
    elementGraph.Pinned (fun _ => True) ↔ elementGraph.Pinned elementGraph.OwnEntry :=
  Reachable.pinned_iff elementGraph_reachable

/-- The scope builds the element itself. -/
theorem elementGraph_not_pinned :
    Reachable pinningBuild elementGraph ∧ ¬ elementGraph.Pinned (fun _ => True) := by
  refine ⟨elementGraph_reachable, fun hpinned => ?_⟩
  have helement : (elementGraph.node? ⟨1⟩).map
      (fun n => (n.pinnedTo?, n.owner)) = some (some (.of ⟨17⟩), ⟨0⟩) := by
    decide +kernel
  have hscope : (elementGraph.scope? ⟨0⟩).map (fun s => s.component) = some none := by
    decide +kernel
  obtain ⟨n, hn, heq⟩ := Option.map_eq_some_iff.mp helement
  obtain ⟨hpinnedTo, howner⟩ := Prod.mk.inj heq
  obtain ⟨s, hs, hbuilds⟩ := hpinned hn hpinnedTo trivial
  rw [howner] at hs
  rw [hs] at hscope
  exact absurd ((Option.some.inj hscope).symm.trans hbuilds) (Option.some_ne_none _).symm

end Graph
end Wiring
