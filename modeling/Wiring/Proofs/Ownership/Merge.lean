import Wiring.Plan.StarMerge
import Wiring.Proofs.Ownership.Invariant

/-!
# Merging keeps owners

A node that is merged becomes a delegate to a node of the same owner, and all other
nodes keep their edges.

**Results.**
* `Graph.OwnedExcept.mergeStars`: merging keeps owners, except for the nodes that were
  excepted before.
-/

namespace Wiring

namespace StarMerge

/-- The nodes of a group have one owner. -/
theorem group?_eq_some
    {n : Node}
    {group : QName × ScopeId}
    (h : group? n = some group) :
    n.owner = group.2 := by
  unfold group? at h
  split at h
  · obtain ⟨origin, -, rfl⟩ := Option.map_eq_some_iff.mp h
    rfl
  · cases h

theorem canonicalOf_mem
    (n : Node)
    (members : List Node) :
    canonicalOf n members = n ∨ canonicalOf n members ∈ members := by
  unfold canonicalOf
  induction members generalizing n with
  | nil => exact .inl rfl
  | cons m ms ih =>
      rw [List.foldl_cons]
      have hbetter : better n m = m ∨ better n m = n := by
        unfold better
        split
        · exact .inl rfl
        · exact .inr rfl
      rcases hbetter with heq | heq
      · rw [heq]
        rcases ih m with hm | hm
        · rw [hm]
          exact .inr List.mem_cons_self
        · exact .inr (List.mem_cons_of_mem m hm)
      · rw [heq]
        exact (ih n).imp_right (List.mem_cons_of_mem m)

/-- What becomes of a node: it may turn eager, or into a delegate to a node of its
owner. -/
inductive Outcome (nodes : List Node) (n : Node) : Node → Prop
  | kept : Outcome nodes n n
  | canonical (eager : Bool) : Outcome nodes n { n with eager := eager }
  | delegate {c : Node} (origin : QName) :
      c ∈ nodes →
      c.owner = n.owner →
      Outcome nodes n (delegateTo n c origin)

theorem outcome_cases
    (nodes : List Node)
    (n : Node) :
    Outcome nodes n (outcome nodes n) := by
  unfold outcome
  cases hgroup : group? n with
  | none => exact .kept
  | some group =>
      dsimp only
      split
      · exact .canonical _
      · rename_i hid
        split
        · rcases canonicalOf_mem n (nodes.filter (fun m => group? m = some group)) with
            hself | hmem
          · exact absurd (congrArg Node.id hself.symm) hid
          · obtain ⟨hin, hc⟩ := List.mem_filter.mp hmem
            have howner := group?_eq_some (of_decide_eq_true hc)
            exact .delegate _ hin (howner.trans (group?_eq_some hgroup).symm)
        · exact .kept

namespace Outcome

variable {nodes : List Node} {n n' : Node}

theorem owner (h : Outcome nodes n n') : n'.owner = n.owner := by
  cases h with
  | kept | canonical | delegate => rfl

theorem id (h : Outcome nodes n n') : n'.id = n.id := by
  cases h with
  | kept | canonical | delegate => rfl

end Outcome
end StarMerge

namespace Graph

/-- The graph with its star-projected nodes merged. -/
def merged (g : Graph) : Graph :=
  { g with nodes := StarMerge.mergeStars g.nodes }

theorem merged_node?
    (g : Graph)
    (id : NodeId) :
    g.merged.node? id = (g.node? id).map (StarMerge.outcome g.nodes.toList) := by
  simp [merged, node?, StarMerge.mergeStars]

theorem merged_node?_eq_some
    {g : Graph}
    {id : NodeId}
    {n' : Node}
    (h : g.merged.node? id = some n') :
    ∃ n, g.node? id = some n ∧ StarMerge.Outcome g.nodes.toList n n' := by
  rw [merged_node?] at h
  obtain ⟨n, hn, rfl⟩ := Option.map_eq_some_iff.mp h
  exact ⟨n, hn, StarMerge.outcome_cases g.nodes.toList n⟩

/-- Where every node knows its position, it is found there. -/
theorem node?_of_mem
    {g : Graph}
    {n : Node}
    (hpositions : ∀ {id : NodeId} {n : Node}, g.node? id = some n → n.id = id)
    (hn : n ∈ g.nodes.toList) :
    g.node? n.id = some n := by
  obtain ⟨i, hi⟩ := List.getElem?_of_mem hn
  have hnode : g.node? ⟨i⟩ = some n := by
    simpa [node?] using hi
  rwa [hpositions hnode]

theorem Holds.merged
    {g : Graph}
    {scope : ScopeId}
    {id : NodeId}
    (h : g.Holds scope id) :
    g.merged.Holds scope id := by
  obtain ⟨n, hn, habove⟩ := h
  have houtcome := StarMerge.outcome_cases g.nodes.toList n
  refine ⟨StarMerge.outcome g.nodes.toList n, ?_, ?_⟩
  · rw [merged_node?, hn]
    rfl
  · rw [houtcome.owner]
    exact habove

/-- Merging keeps owners. -/
theorem OwnedExcept.mergeStars
    {g : Graph}
    {met : NodeId → Prop}
    (h : g.OwnedExcept met) :
    g.merged.OwnedExcept met := by
  refine
    { tree := h.tree.of_scopes_eq rfl
      positions := fun hn' => ?_
      answers := fun ha => (h.answers ha).imp_right Holds.merged
      resolved := fun {id d n'} hn' hd => ?_
      interceptors := fun hn' hi hd => ?_ }
  · obtain ⟨n, hn, houtcome⟩ := merged_node?_eq_some hn'
    exact houtcome.id.trans (h.positions hn)
  · obtain ⟨n, hn, houtcome⟩ := merged_node?_eq_some hn'
    cases houtcome with
    | kept => exact (h.resolved hn hd).imp_right Holds.merged
    | canonical eager =>
        have hheld : met d ∨ g.Holds n.evaluated d := h.resolved hn hd
        exact hheld.imp_right Holds.merged
    | @delegate c origin hc howner =>
        -- the canonical node is at its position and has the same owner
        have hd' : d = c.id := List.mem_singleton.mp hd
        have hheld : g.Holds n.owner c.id :=
          ⟨c, node?_of_mem h.positions hc, by rw [howner]; exact .refl⟩
        rw [hd']
        exact .inr hheld.merged
  · obtain ⟨n, hn, houtcome⟩ := merged_node?_eq_some hn'
    cases houtcome with
    | kept => exact (h.interceptors hn hi hd).imp_right Holds.merged
    | canonical eager =>
        have hheld : met _ ∨ g.Holds n.owner _ := h.interceptors hn hi hd
        exact hheld.imp_right Holds.merged
    | delegate => cases hi

end Graph
end Wiring
