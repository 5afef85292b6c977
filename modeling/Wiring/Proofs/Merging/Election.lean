import Wiring.Proofs.Batched

/-!
# Election of canonical nodes

Nodes that invoke one declaration for one owner form a group.  The group elects one of
them: the first among those with the fewest star projections.  Members whose type
generalizes the elected one's are redirected to it, and nothing else changes.

**Results.**
* `StarMerge.elected_canonicalOf`: the canonical node of a group is elected, whichever
  member one starts from.
* `StarMerge.part_outcome`: what becomes of a node depends on its part in its group.
* `StarMerge.Elected.merged`: the elected node of a group is elected again.
* `Graph.Labelled.fate`: a node is redirected to the elected one or keeps all but its
  eagerness.
-/

namespace Wiring

/-- Whether what a node is known by is what another one was known by. -/
structure Node.Resembles (n' n : Node) : Prop where
  id : n'.id = n.id
  type : n'.type = n.type
  rawType : n'.rawType = n.rawType
  owner : n'.owner = n.owner
  origin : n'.origin = n.origin
  component : n'.component = n.component

namespace StarMerge

variable {nodes : List Node} {a b c n n' : Node} {group : QName × ScopeId}

/-! ## Order of preference -/

/-- Whether a node has fewer star projections than another one, or as many and comes no
later. -/
def Precedes (a b : Node) : Prop :=
  a.type.starCount < b.type.starCount
    ∨ (a.type.starCount = b.type.starCount ∧ a.id.index ≤ b.id.index)

theorem Precedes.refl (a : Node) : Precedes a a := by
  simp [Precedes]

theorem Precedes.trans
    (hab : Precedes a b)
    (hbc : Precedes b c) :
    Precedes a c := by
  simp only [Precedes] at *
  omega

theorem Precedes.antisymm
    (hab : Precedes a b)
    (hba : Precedes b a) :
    a.id = b.id := by
  refine NodeId.eq_of_index ?_
  simp only [Precedes] at *
  omega

/-- The better of two nodes precedes both. -/
theorem better_precedes
    (a b : Node) :
    Precedes (better a b) a ∧ Precedes (better a b) b := by
  unfold better
  by_cases hb : b.type.starCount < a.type.starCount
      ∨ (b.type.starCount = a.type.starCount ∧ b.id.index < a.id.index)
  · rw [if_pos (by simpa using hb)]
    refine ⟨?_, .refl b⟩
    simp only [Precedes]
    omega
  · rw [if_neg (by simpa using hb)]
    refine ⟨.refl a, ?_⟩
    simp only [Precedes]
    omega

/-- The canonical node precedes the one that the search starts from and all members. -/
theorem canonicalOf_precedes
    (n : Node)
    (members : List Node) :
    Precedes (canonicalOf n members) n
      ∧ ∀ m ∈ members, Precedes (canonicalOf n members) m := by
  induction members generalizing n with
  | nil => simp [canonicalOf, Precedes.refl]
  | cons m ms ih =>
      obtain ⟨hbetter, hms⟩ := ih (better n m)
      obtain ⟨hn, hm⟩ := better_precedes n m
      refine ⟨hbetter.trans hn, fun m' hm' => ?_⟩
      rcases List.mem_cons.mp hm' with rfl | hm'
      · exact hbetter.trans hm
      · exact hms m' hm'

/-! ## Groups -/

theorem group?_eq_some_iff :
    group? n = some group ↔
      n.kind.isInvocation = true ∧ n.origin = some group.1 ∧ n.owner = group.2 := by
  obtain ⟨origin, owner⟩ := group
  cases hkind : n.kind with
  | callable _ _ assisted =>
      cases assisted with
      | nil => simp [group?, NodeKind.isInvocation, hkind]
      | cons => simp [group?, NodeKind.isInvocation, hkind]
  | _ => simp [group?, NodeKind.isInvocation, hkind]

/-- Whether a node of a group precedes all others of the group. -/
structure Elected (nodes : List Node) (group : QName × ScopeId) (c : Node) : Prop where
  mem : c ∈ nodes
  grouped : group? c = some group
  least : ∀ m ∈ nodes, group? m = some group → Precedes c m

/-- The canonical node of a group is elected, whichever member one starts from. -/
theorem elected_canonicalOf
    (hn : n ∈ nodes)
    (hgroup : group? n = some group) :
    Elected nodes group
      (canonicalOf n (nodes.filter (fun m => group? m = some group))) := by
  obtain ⟨-, hleast⟩ := canonicalOf_precedes n (nodes.filter (fun m => group? m = some group))
  have hmem : canonicalOf n (nodes.filter (fun m => group? m = some group)) ∈ nodes
      ∧ group? (canonicalOf n (nodes.filter (fun m => group? m = some group)))
        = some group := by
    rcases canonicalOf_mem n (nodes.filter (fun m => group? m = some group)) with hself | hmem
    · rw [hself]
      exact ⟨hn, hgroup⟩
    · simpa using hmem
  exact ⟨hmem.1, hmem.2, fun m hm hmgroup => hleast m (by simp [hm, hmgroup])⟩

/-- Whether no two nodes of a list have one position. -/
def Distinct (nodes : List Node) : Prop :=
  ∀ a ∈ nodes, ∀ b ∈ nodes, a.id = b.id → a = b

theorem Elected.unique
    (hdistinct : Distinct nodes)
    (ha : Elected nodes group a)
    (hb : Elected nodes group b) :
    a = b := by
  have hab := ha.least b hb.mem hb.grouped
  have hba := hb.least a ha.mem ha.grouped
  exact hdistinct a ha.mem b hb.mem (hab.antisymm hba)

/-! ## Outcomes -/

theorem outcome_of_no_group
    (hgroup : group? n = none) :
    outcome nodes n = n := by
  unfold outcome
  rw [hgroup]

/-- Whether a member of a group that turns into a delegate to a node is eager. -/
def relieved (nodes : List Node) (group : QName × ScopeId) (c : Node) : Bool :=
  (nodes.filter (fun m => group? m = some group)).any (fun m => delegates m c && m.eager)

theorem relieved_eq_true_iff :
    relieved nodes group c = true ↔
      ∃ m ∈ nodes, group? m = some group ∧ delegates m c = true ∧ m.eager = true := by
  simp [relieved]

/-- The elected node takes over the eagerness of the members that turn into delegates. -/
theorem outcome_elected
    (hdistinct : Distinct nodes)
    (hc : Elected nodes group c) :
    outcome nodes c = { c with eager := c.eager || relieved nodes group c } := by
  have hcanonical := (elected_canonicalOf hc.mem hc.grouped).unique hdistinct hc
  unfold outcome
  rw [hc.grouped]
  dsimp only
  rw [hcanonical, if_pos rfl]
  rfl

/-- Another member is redirected if its type generalizes the elected one's. -/
theorem outcome_of_rival
    (hdistinct : Distinct nodes)
    (hn : n ∈ nodes)
    (hgroup : group? n = some group)
    (hc : Elected nodes group c)
    (hne : n ≠ c) :
    outcome nodes n =
      if n.type.generalizes c.type = true then delegateTo n c group.1 else n := by
  have hcanonical := (elected_canonicalOf hn hgroup).unique hdistinct hc
  have hid : n.id ≠ c.id := fun heq => hne (hdistinct n hn c hc.mem heq)
  unfold outcome
  rw [hgroup]
  dsimp only
  rw [hcanonical, if_neg hid]
  simp [delegates, hid]

/-! ## The part of a node -/

/-- What becomes of a node in its group, if it is in one. -/
inductive Part (nodes : List Node) (n : Node) : Node → Prop
  | ungrouped :
      group? n = none →
      Part nodes n n
  | elected {group : QName × ScopeId} :
      Elected nodes group n →
      Part nodes n { n with eager := n.eager || relieved nodes group n }
  | delegate {group : QName × ScopeId} {c : Node} :
      group? n = some group →
      Elected nodes group c →
      delegates n c = true →
      Part nodes n (delegateTo n c group.1)
  | rival {group : QName × ScopeId} {c : Node} :
      group? n = some group →
      Elected nodes group c →
      n.type.generalizes c.type = false →
      Part nodes n n

theorem part_outcome
    (hdistinct : Distinct nodes)
    (hn : n ∈ nodes) :
    Part nodes n (outcome nodes n) := by
  cases hgroup : group? n with
  | none =>
      rw [outcome_of_no_group hgroup]
      exact .ungrouped hgroup
  | some group =>
      have hc := elected_canonicalOf hn hgroup
      generalize canonicalOf n _ = c at hc
      by_cases hself : n = c
      · subst hself
        rw [outcome_elected hdistinct hc]
        exact .elected hc
      · rw [outcome_of_rival hdistinct hn hgroup hc hself]
        split
        · rename_i hgeneralizes
          refine .delegate hgroup hc ?_
          have hid : n.id ≠ c.id := fun heq => hself (hdistinct n hn c hc.mem heq)
          simp [delegates, hid, hgeneralizes]
        · rename_i hgeneralizes
          exact .rival hgroup hc (by simpa using hgeneralizes)

namespace Part

theorem resembles (h : Part nodes n n') : n'.Resembles n := by
  cases h with
  | ungrouped | elected | delegate | rival => constructor <;> rfl

/-- Only invocations change. -/
theorem eq_of_not_isInvocation
    (h : Part nodes n n')
    (hkind : n.kind.isInvocation = false) :
    n' = n := by
  have hnone : ∀ group, group? n ≠ some group := by
    intro group hgroup
    rw [(group?_eq_some_iff.mp hgroup).1] at hkind
    cases hkind
  cases h with
  | ungrouped | rival => rfl
  | elected hn => exact absurd hn.grouped (hnone _)
  | delegate hgroup => exact absurd hgroup (hnone _)

/-- What is still in a group was in it before. -/
theorem grouped
    (h : Part nodes n n')
    (hgroup : group? n' = some group) :
    group? n = some group := by
  cases h with
  | ungrouped | elected | rival => exact hgroup
  | delegate => exact nomatch hgroup

/-- What is left of a group are the elected node and the members that its type does not
fit. -/
theorem eq_or_not_generalizes
    (h : Part nodes n n')
    (hdistinct : Distinct nodes)
    (hgroup : group? n' = some group)
    (hc : Elected nodes group c) :
    n = c ∨ n.type.generalizes c.type = false := by
  cases h with
  | ungrouped hnone => exact nomatch hnone.symm.trans hgroup
  | elected hn =>
      cases hn.grouped.symm.trans hgroup
      exact .inl (hn.unique hdistinct hc)
  | delegate => exact nomatch hgroup
  | rival hgroup' hc' hgeneralizes =>
      cases hgroup'.symm.trans hgroup
      rw [hc'.unique hdistinct hc] at hgeneralizes
      exact .inr hgeneralizes

end Part

/-! ## What is left of a group -/

/-- All nodes after merging. -/
abbrev outcomes (nodes : List Node) : List Node := nodes.map (outcome nodes)

theorem toList_mergeStars (arena : Array Node) :
    (mergeStars arena).toList = outcomes arena.toList := by
  simp [mergeStars]

theorem Distinct.outcomes
    (hdistinct : Distinct nodes) :
    Distinct (outcomes nodes) := by
  intro a' ha' b' hb' hid
  obtain ⟨a, ha, rfl⟩ := List.mem_map.mp ha'
  obtain ⟨b, hb, rfl⟩ := List.mem_map.mp hb'
  rw [(part_outcome hdistinct ha).resembles.id, (part_outcome hdistinct hb).resembles.id] at hid
  rw [hdistinct a ha b hb hid]

/-- The elected node of a group is elected again. -/
theorem Elected.merged
    (hdistinct : Distinct nodes)
    (hc : Elected nodes group c) :
    Elected (outcomes nodes) group (outcome nodes c) := by
  have hcpart := outcome_elected hdistinct hc
  refine ⟨List.mem_map_of_mem hc.mem, ?_, fun m' hm' hgroup => ?_⟩
  · rw [hcpart]
    exact hc.grouped
  · obtain ⟨m, hm, rfl⟩ := List.mem_map.mp hm'
    have hpart := part_outcome hdistinct hm
    have hprecedes := hc.least m hm (hpart.grouped hgroup)
    rw [hcpart]
    simpa only [Precedes, hpart.resembles.id, hpart.resembles.type] using hprecedes

end StarMerge

namespace Graph

/-! ## Redirected nodes -/

/-- Whether a node is redirected to another one, the elected one of its group. -/
def Redirects (g : Graph) (x y : NodeId) : Prop :=
  ∃ n c group, g.node? x = some n ∧ StarMerge.group? n = some group
    ∧ StarMerge.Elected g.nodes.toList group c ∧ c.id = y ∧ x ≠ y
    ∧ n.type.generalizes c.type = true

/-- Whether a node is redirected. -/
def Redirected (g : Graph) (x : NodeId) : Prop :=
  ∃ y, g.Redirects x y

/-- What becomes of a node when nodes are merged. -/
inductive Fate (g : Graph) (x : NodeId) (n : Node) : Node → Prop
  | kept (eager : Bool) :
      ¬ g.Redirected x →
      Fate g x n { n with eager := eager }
  | redirected {c : Node} (origin : QName) :
      n.kind.isInvocation = true →
      g.Redirects x c.id →
      (∀ y, g.Redirects x y → y = c.id) →
      Fate g x n (StarMerge.delegateTo n c origin)

section Fate

variable {g : Graph} {x y : NodeId} {n n' : Node}

theorem mem_nodes
    (hn : g.node? x = some n) :
    n ∈ g.nodes.toList := by
  have hn' : g.nodes.toList[x.index]? = some n := by
    simpa [Graph.node?] using hn
  exact List.mem_of_getElem? hn'

theorem merged_node?_eq_none
    (hn : g.node? x = none) :
    g.merged.node? x = none := by
  rw [merged_node?, hn]
  rfl

theorem distinct_of_positions
    (hpositions : ∀ {id : NodeId} {n : Node}, g.node? id = some n → n.id = id) :
    StarMerge.Distinct g.nodes.toList := by
  intro a ha b hb hid
  have ha' := node?_of_mem hpositions ha
  rw [hid, node?_of_mem hpositions hb] at ha'
  exact (Option.some.inj ha').symm

theorem Labelled.distinct
    (h : g.Labelled) :
    StarMerge.Distinct g.nodes.toList :=
  distinct_of_positions h.positions

/-- A node is only redirected to the elected one of its group. -/
theorem Redirects.elected
    (h : g.Labelled)
    {group : QName × ScopeId}
    {c : Node}
    (hredirects : g.Redirects x y)
    (hn : g.node? x = some n)
    (hgroup : StarMerge.group? n = some group)
    (hc : StarMerge.Elected g.nodes.toList group c) :
    y = c.id ∧ StarMerge.delegates n c = true := by
  obtain ⟨n', c', group', hn', hgroup', hc', rfl, hne, hgeneralizes⟩ := hredirects
  cases hn.symm.trans hn'
  cases hgroup.symm.trans hgroup'
  obtain rfl := hc'.unique h.distinct hc
  have hid : n.id ≠ c'.id := by rwa [h.positions hn]
  exact ⟨rfl, by simp [StarMerge.delegates, hid, hgeneralizes]⟩

/-- A node is redirected to the elected one or keeps all but its eagerness. -/
theorem Labelled.fate
    (h : g.Labelled)
    (hn : g.node? x = some n) :
    g.Fate x n (StarMerge.outcome g.nodes.toList n) := by
  have hpart := StarMerge.part_outcome h.distinct (mem_nodes hn)
  generalize StarMerge.outcome g.nodes.toList n = n' at hpart
  cases hpart with
  | ungrouped hnone =>
      refine .kept n.eager ?_
      rintro ⟨y, n', c, group, hn', hgroup, -⟩
      cases hn.symm.trans hn'
      exact nomatch hnone.symm.trans hgroup
  | elected hc =>
      refine .kept _ ?_
      rintro ⟨y, hy⟩
      obtain ⟨-, hdelegates⟩ := hy.elected h hn hc.grouped hc
      simp [StarMerge.delegates] at hdelegates
  | @delegate group c hgroup hc hdelegates =>
      obtain ⟨hid, hgeneralizes⟩ : n.id ≠ c.id ∧ n.type.generalizes c.type = true := by
        simpa [StarMerge.delegates] using hdelegates
      refine .redirected group.1 (StarMerge.group?_eq_some_iff.mp hgroup).1 ?_
        (fun y hy => (hy.elected h hn hgroup hc).1)
      exact ⟨n, c, group, hn, hgroup, hc, rfl, by rwa [← h.positions hn], hgeneralizes⟩
  | rival hgroup hc hgeneralizes =>
      refine .kept n.eager ?_
      rintro ⟨y, hy⟩
      obtain ⟨-, hdelegates⟩ := hy.elected h hn hgroup hc
      simp [StarMerge.delegates, hgeneralizes] at hdelegates

theorem Labelled.exists_fate
    (h : g.Labelled)
    (hn : g.node? x = some n) :
    ∃ n', g.merged.node? x = some n' ∧ g.Fate x n n' := by
  refine ⟨StarMerge.outcome g.nodes.toList n, ?_, h.fate hn⟩
  rw [merged_node?, hn]
  rfl

/-- A node of the merged graph is one from before after its fate. -/
theorem Labelled.merged_fate
    (h : g.Labelled)
    (hn' : g.merged.node? x = some n') :
    ∃ n, g.node? x = some n ∧ g.Fate x n n' := by
  rw [merged_node?] at hn'
  obtain ⟨n, hn, rfl⟩ := Option.map_eq_some_iff.mp hn'
  exact ⟨n, hn, h.fate hn⟩

end Fate

end Graph
end Wiring
