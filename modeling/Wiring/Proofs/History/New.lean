import Wiring.Proofs.History.Straight

/-!
# New answers

As long as no nodes are being built, a request is answered by a node that is remembered for
some scope, or by a new one.  A new one is the node of what the scope itself chooses.  What
the node asks for can narrow its type and nothing else.

**Results.**
* `Derives.remembered_or_new`: this for a request.
-/

namespace Wiring

variable {B : Build} {g g' : Graph} {id : NodeId}

/-- Whether a node has a profile but for its type, which may have been narrowed. -/
def Node.MadeAs (n : Node) (p : Profile) : Prop :=
  n.profile = { p with type := n.type }

/-- Only the profile of the node matters. -/
theorem Node.MadeAs.congr
    {n n' : Node}
    {p : Profile}
    (h : n.MadeAs p)
    (hprofile : n.profile = n'.profile) :
    n'.MadeAs p := by
  have htype : n.type = n'.type := congrArg Profile.type hprofile
  unfold Node.MadeAs at h ⊢
  rw [← hprofile, h, htype]

/-- Whether a node is remembered as the answer to requests for a type, in whatever scope. -/
def Graph.Remembers (g : Graph) (t : Ty) (id : NodeId) : Prop :=
  ∃ scope, g.answers.find? scope t = some id

/-- A node that is built keeps its profile. -/
theorem Derives.new_node
    {n : Node}
    {key : Option Ty}
    {scope evaluated : ScopeId}
    {demands : List Demand}
    (h : Derives B [] g (.node n key scope evaluated demands id) g') :
    ∃ n', g'.node? id = some n' ∧ n'.profile = n.profile := by
  obtain ⟨ids, hn⟩ := h.node_built
  exact ⟨_, hn, rfl⟩

/-- A declaration is invoked by a node that is remembered, or by a new one. -/
theorem Derives.new_declaration
    {scope : ScopeId}
    {declaredIn : Option ScopeId}
    {key : Option Ty}
    {e : Entry}
    {declared : Declaration}
    {assisted : Bool}
    (h : Derives B [] g (.declaration scope declaredIn key e declared assisted id) g')
    (type : Ty) :
    (∃ t, key = some t ∧ g.Remembers t id)
      ∨ ∃ n, g'.node? id = some n ∧ n.MadeAs (.ofDeclaration e.declaration
        (ownerOf (g.path scope) scope declaredIn e.declaration) type) := by
  cases h with
  | again _ hmem => exact absurd hmem List.not_mem_nil
  | relocated _ _ hfound => exact .inl ⟨_, rfl, _, hfound⟩
  | @fresh _ _ owner _ _ _ _ _ n entries attached m _ _ g₁ g₂ _ howner _ hnode hn _ hd =>
      obtain ⟨ids, t, ht⟩ := hnode.narrowed_node? declared assisted
      have hlast : g₂.node? id = some _ := hd.grows.node? ht
      refine .inr ⟨_, Graph.change_node? hlast _, ?_⟩
      rw [howner]
      rfl

/-- The node that a blueprint asks for has the profile of the candidate. -/
theorem Blueprint.profile_eq
    {s : Scope}
    {evaluated : ScopeId}
    {r : Request}
    {c : Candidate}
    {n : Node}
    {demands : List Demand}
    (hoffered : Offered B s r.type c)
    (h : Blueprint B s.id r g c n evaluated demands g') :
    n.profile = c.profile B.registry (g.path s.id) s r.type := by
  cases h with
  | @childComponent type component parameters c inner g₁ hc hadd =>
      have hflag : B.registry.hasFlag component.classifier .childComponent = true := by
        cases hoffered with
        | own hmem => cases ownCandidate_of_mem hmem
        | childComponent _ hflag => exact hflag
      cases hname : B.registry.name? component.classifier with
      | none =>
          have hnone : B.registry.classifier? component.classifier = none :=
            Option.map_eq_none_iff.mp hname
          unfold Registry.hasFlag Registry.flags at hflag
          rw [hnone] at hflag
          cases hflag
      | some origin =>
          unfold Candidate.profile
          dsimp only
          rw [hname]
          rfl
  | _ => rfl

/-- The node of a candidate that a scope chose. -/
theorem Derives.new_candidate
    {s : Scope}
    {r : Request}
    {c : Candidate}
    (h : Derives B [] g (.candidate s r c id) g') :
    g.Remembers r.type id
      ∨ ∃ n, g'.node? id = some n
        ∧ n.MadeAs (c.profile B.registry (g.path s.id) s r.type) := by
  cases h with
  | @declaration _ _ _ m _ _ _ _ hd =>
      rcases hd.new_declaration (if m.assisted then r.type else m.declaration.type) with
        ⟨t, ht, hremembered⟩ | hnew
      · cases ht
        exact .inl hremembered
      · exact .inr hnew
  | keptInput _ hfound => exact .inl ⟨_, hfound⟩
  | aliasAgain _ hmem => exact absurd hmem List.not_mem_nil
  | built hoffered hblueprint hd =>
      obtain ⟨n', hn', hprofile⟩ := hd.new_node
      rw [hblueprint.profile_eq hoffered] at hprofile
      refine .inr ⟨n', hn', ?_⟩
      unfold Node.MadeAs
      rw [← hprofile]
      rfl

/-- A scope or the nearest of its ancestors that offers anything. -/
theorem Derives.new_search
    {scope : ScopeId}
    {r : Request}
    (h : Derives B [] g (.search scope r id) g')
    (hg : g.Faithful B) :
    g.Remembers r.type id
      ∨ ∃ s c n, Pick.along B r.type (g.path scope) = .chosen s c
        ∧ g'.node? id = some n
        ∧ n.MadeAs (c.profile B.registry (g.path s.id) s r.type) := by
  generalize hstack : ([] : List NodeId) = stack at h
  generalize hsearch : Judgement.search scope r id = J at h
  induction h generalizing scope with
  | recalled hfound _ =>
      cases hsearch
      exact .inl ⟨_, hfound⟩
  | @chosen stack scope s r candidates c id g g₁ g' _ hs hid hoffers hc hd =>
      cases hsearch
      subst hstack hid
      obtain ⟨m, -, rfl⟩ := hoffers.withMemo
      refine hd.new_candidate.imp_right fun ⟨n, hn, hmade⟩ => ?_
      have hsize := Graph.lt_size_of_scope? hs
      obtain ⟨s', ancestors, hpath, hs'⟩ := (hg.rooted.lineage hsize).head
      obtain rfl := Option.some.inj (hs.symm.trans hs')
      have hoffer := hoffers.eq_offer hg
      rw [hpath] at hoffer ⊢
      exact ⟨s, c, n, Pick.along_of_chosen hoffer hc, hn, hmade⟩
  | @inherited stack scope parent s r id g g₁ g' _ hs hoffers hp hd ih =>
      cases hsearch
      have hid : s.id = scope := hg.tree.numbered _ _ hs
      have hoffer := hoffers.eq_offer hg
      obtain ⟨m, hm, rfl⟩ := hoffers.withMemo
      refine (ih (hg.merges hm) hstack rfl).imp_right fun ⟨s', c, n, hc, hn, hmade⟩ => ?_
      have hpath := hg.rooted.path_eq_cons hs hp
      rw [hid, hpath] at hoffer
      refine ⟨s', c, n, ?_, hn, hmade⟩
      rw [hpath, Pick.along_of_offer_nil hoffer]
      exact hc
  | _ => cases hsearch

/-- A request is answered by a node that is remembered for some scope, or by a new one of
what the scope itself chooses. -/
theorem Derives.remembered_or_new
    {scope : ScopeId}
    {r : Request}
    (h : Derives B [] g (.request scope r id) g')
    (hg : g.Faithful B)
    (hscope : scope.index < g.scopes.size) :
    g.Remembers (B.registry.normalize r.type) id
      ∨ ∃ n p, g'.node? id = some n
        ∧ g.choice? B scope r.type r.required = some p
        ∧ n.MadeAs p := by
  cases h with
  | found hd =>
      refine (hd.new_search hg).imp_right fun ⟨s, c, n, hc, hn, hmade⟩ => ?_
      exact ⟨n, _, hn, Graph.choice?_of_chosen hc, hmade⟩
  | null habsent hnullable hd =>
      have hnothing := habsent.along hg (hg.rooted.lineage hscope)
      obtain ⟨n, hn, hprofile⟩ := hd.new_node
      refine .inr ⟨n, n.profile, hn, ?_, rfl⟩
      rw [Graph.choice?_of_nothing hnothing, if_pos hnullable, hprofile]
      rfl
  | missing habsent hnullable hrequired hd =>
      have hnothing := habsent.along hg (hg.rooted.lineage hscope)
      obtain ⟨n, hn, hprofile⟩ := hd.new_node
      refine .inr ⟨n, n.profile, hn, ?_, rfl⟩
      rw [Graph.choice?_of_nothing hnothing, hnullable, hrequired, hprofile]
      rfl

end Wiring
