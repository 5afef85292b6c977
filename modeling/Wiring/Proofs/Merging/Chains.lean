import Mathlib.Data.List.Count
import Mathlib.Logic.Relation
import Wiring.Proofs.Merging.Delegates
import Wiring.Proofs.Merging.Election

/-!
# Chains of delegates

A later batch may redirect the elected node of an earlier one, so delegates form chains, which
lead forwards and backwards among the nodes.  Each link leads to a node of the same declaration
and owner that has fewer star projections, or as many and an earlier position.  Types and
positions never change.  So a chain never comes back to where it was, and it is shorter than
the list of all nodes, which is as far as it is followed.

**Results.**
* `Graph.Batched.represented`: in every graph that calls and batches reach, the target of a
  delegate outranks it within its group.
* `Plan.Represented.canonicalWithin`: whoever follows as many links as there are nodes that
  outrank the first one has arrived.
* `Graph.Batched.delegates_lead`: delegates lead to a node that is none, of the same
  declaration and owner.
-/

namespace Wiring

/-! ## Rank -/

namespace StarMerge

/-- Whether a node has fewer star projections than another one, or as many and comes
earlier. -/
def Outranks (a b : Node) : Prop :=
  a.type.starCount < b.type.starCount
    ∨ (a.type.starCount = b.type.starCount ∧ a.id.index < b.id.index)

instance : DecidableRel Outranks := fun a b =>
  inferInstanceAs (Decidable (a.type.starCount < b.type.starCount
    ∨ (a.type.starCount = b.type.starCount ∧ a.id.index < b.id.index)))

variable {a b c : Node}

theorem Outranks.irrefl (a : Node) : ¬ Outranks a a := by
  simp [Outranks]

theorem Outranks.trans
    (hab : Outranks a b)
    (hbc : Outranks b c) :
    Outranks a c := by
  simp only [Outranks] at *
  omega

theorem Precedes.outranks
    (h : Precedes a b)
    (hne : b.id ≠ a.id) :
    Outranks a b := by
  have hindex : a.id.index ≠ b.id.index := fun heq => hne (NodeId.eq_of_index heq.symm)
  simp only [Precedes, Outranks] at *
  omega

end StarMerge

/-- Whether a node may stand in for another one: it invokes the same declaration for the same
owner, and outranks it. -/
structure Node.StandsInFor (c n : Node) : Prop where
  owner : c.owner = n.owner
  origin : c.origin = n.origin
  outranks : StarMerge.Outranks c n

namespace Node.StandsInFor

variable {n c c' d : Node}

theorem trans
    (hd : d.StandsInFor c)
    (hc : c.StandsInFor n) :
    d.StandsInFor n :=
  ⟨hd.owner.trans hc.owner, hd.origin.trans hc.origin, hd.outranks.trans hc.outranks⟩

theorem irrefl (n : Node) : ¬ n.StandsInFor n :=
  fun h => StarMerge.Outranks.irrefl n h.outranks

/-- It depends on what nodes are known by, which merging keeps. -/
theorem of_resembles
    {n' : Node}
    (h : c.StandsInFor n)
    (hc : c'.Resembles c)
    (hn : n'.Resembles n) :
    c'.StandsInFor n' := by
  refine ⟨?_, ?_, ?_⟩
  · rw [hc.owner, hn.owner, h.owner]
  · rw [hc.origin, hn.origin, h.origin]
  · have houtranks := h.outranks
    unfold StarMerge.Outranks at houtranks ⊢
    rwa [hc.type, hn.type, hc.id, hn.id]

end Node.StandsInFor

/-- A delegate was one before, or becomes one to a node that stands in for it. -/
theorem StarMerge.Part.delegate_cases
    {nodes : List Node}
    {n n' : Node}
    {target : NodeId}
    (h : Part nodes n n')
    (hn : n ∈ nodes)
    (hkind : n'.kind = .delegate target) :
    n.kind = .delegate target ∨ ∃ c ∈ nodes, c.id = target ∧ c.StandsInFor n := by
  cases h with
  | ungrouped | elected | rival => exact .inl hkind
  | @delegate group c hgroup hc hdelegates =>
      obtain ⟨hid, -⟩ : n.id ≠ c.id ∧ n.type.generalizes c.type = true := by
        simpa [StarMerge.delegates] using hdelegates
      obtain ⟨-, horigin, howner⟩ := StarMerge.group?_eq_some_iff.mp hgroup
      obtain ⟨-, horigin', howner'⟩ := StarMerge.group?_eq_some_iff.mp hc.grouped
      have houtranks := (hc.least n hn hgroup).outranks hid
      refine .inr ⟨c, hc.mem, ?_, howner'.trans howner.symm, horigin'.trans horigin.symm,
        houtranks⟩
      cases hkind
      rfl

/-! ## Plans -/

namespace Plan

/-- Whether a node is a delegate to another one. -/
def Delegates (p : Plan) (x y : NodeId) : Prop :=
  ∃ n, p.node? x = some n ∧ n.kind = .delegate y

/-- Whether every delegate's target stands in for it. -/
def Represented (p : Plan) : Prop :=
  ∀ ⦃x y : NodeId⦄ ⦃n : Node⦄, p.node? x = some n → n.kind = .delegate y →
    ∃ c, p.node? y = some c ∧ c.StandsInFor n

/-- The number of nodes that outrank a node. -/
def rank (p : Plan) (n : Node) : Nat :=
  p.nodes.toList.countP (fun m => decide (StarMerge.Outranks m n))

section Rank

variable {p : Plan} {x y : NodeId} {n c : Node}

theorem mem_nodes
    (hn : p.node? x = some n) :
    n ∈ p.nodes.toList :=
  Array.mem_toList_iff.mpr (Array.mem_of_getElem? hn)

/-- A node's own rank does not count the node. -/
theorem rank_lt_size
    (hn : p.node? x = some n) :
    p.rank n < p.nodes.size := by
  have hlt : p.rank n < p.nodes.toList.length := by
    refine List.countP_lt_length_iff.mpr ⟨n, mem_nodes hn, ?_⟩
    simpa using StarMerge.Outranks.irrefl n
  simpa using hlt

/-- What outranks the better node outranks the other one, and so does the better node
itself. -/
theorem rank_lt_rank
    (hc : p.node? y = some c)
    (houtranks : StarMerge.Outranks c n) :
    p.rank c < p.rank n := by
  have hmono : ∀ m ∈ p.nodes.toList, decide (StarMerge.Outranks m c) = true →
      decide (StarMerge.Outranks m n) = true := by
    intro m _ hm
    have hmc : StarMerge.Outranks m c := by simpa using hm
    simpa using hmc.trans houtranks
  have hself : ¬ StarMerge.Outranks c c := StarMerge.Outranks.irrefl c
  obtain ⟨before, after, hsplit⟩ := List.append_of_mem (mem_nodes hc)
  unfold rank
  rw [hsplit] at hmono ⊢
  have hbefore := List.countP_mono_left
    (fun m hm => hmono m (List.mem_append_left _ hm))
  have hafter := List.countP_mono_left
    (fun m hm => hmono m (List.mem_append_right before (List.mem_cons_of_mem c hm)))
  simp only [List.countP_append, List.countP_cons, hself, houtranks, decide_true,
    decide_false, Bool.false_eq_true, if_true, if_false]
  omega

end Rank

/-- Whether following delegates never comes back to where it was, and the canonical node of
every node is reached by following them and is one that produces a value, of the same
declaration and owner. -/
structure DelegatesLead (p : Plan) : Prop where
  acyclic (x : NodeId) : ¬ Relation.TransGen p.Delegates x x
  canonical {x : NodeId} {n : Node} : p.node? x = some n →
    Relation.ReflTransGen p.Delegates x (p.canonical x)
      ∧ ∃ c, p.node? (p.canonical x) = some c ∧ c.kind.isDelegate = false
        ∧ c.owner = n.owner ∧ c.origin = n.origin

namespace Represented

variable {p : Plan} {x y : NodeId} {n : Node}

/-- Whatever delegates lead to stands in for the first of them. -/
theorem standsInFor
    (h : p.Represented)
    (hn : p.node? x = some n)
    (hpath : Relation.TransGen p.Delegates x y) :
    ∃ c, p.node? y = some c ∧ c.StandsInFor n := by
  induction hpath with
  | single hstep =>
      obtain ⟨n', hn', hkind⟩ := hstep
      cases hn.symm.trans hn'
      exact h hn hkind
  | tail _ hstep ih =>
      obtain ⟨c, hc, hstands⟩ := ih
      obtain ⟨c', hc', hkind⟩ := hstep
      cases hc.symm.trans hc'
      obtain ⟨d, hd, hstands'⟩ := h hc hkind
      exact ⟨d, hd, hstands'.trans hstands⟩

theorem acyclic
    (h : p.Represented)
    (x : NodeId) :
    ¬ Relation.TransGen p.Delegates x x := by
  intro hpath
  obtain ⟨y, ⟨n, hn, -⟩, -⟩ := Relation.TransGen.head'_iff.mp hpath
  obtain ⟨c, hc, hstands⟩ := h.standsInFor hn hpath
  cases hn.symm.trans hc
  exact hstands.irrefl n

/-- As many steps as there are nodes of a better rank lead to a node that produces a
value. -/
theorem canonicalWithin
    (h : p.Represented)
    {steps : Nat}
    (hn : p.node? x = some n)
    (hrank : p.rank n ≤ steps) :
    Relation.ReflTransGen p.Delegates x (p.canonicalWithin steps x)
      ∧ ∃ c, p.node? (p.canonicalWithin steps x) = some c ∧ c.kind.isDelegate = false
        ∧ c.owner = n.owner ∧ c.origin = n.origin := by
  induction steps generalizing x n with
  | zero =>
      refine ⟨.refl, n, hn, ?_, rfl, rfl⟩
      cases hkind : n.kind with
      | delegate y =>
          obtain ⟨c, hc, hstands⟩ := h hn hkind
          have hlt := rank_lt_rank hc hstands.outranks
          omega
      | _ => rfl
  | succ steps ih =>
      cases hkind : n.kind with
      | delegate y =>
          obtain ⟨c, hc, hstands⟩ := h hn hkind
          have hlt := rank_lt_rank hc hstands.outranks
          obtain ⟨hpath, d, hd, hproduces, howner, horigin⟩ := ih hc (by omega)
          have hstep : p.canonicalWithin (steps + 1) x = p.canonicalWithin steps y := by
            simp [Plan.canonicalWithin, hn, hkind]
          rw [hstep]
          exact ⟨.head ⟨n, hn, hkind⟩ hpath, d, hd, hproduces, howner.trans hstands.owner,
            horigin.trans hstands.origin⟩
      | _ =>
          have hstay : p.canonicalWithin (steps + 1) x = x := by
            simp [Plan.canonicalWithin, hn, hkind]
          rw [hstay]
          exact ⟨.refl, n, hn, by rw [hkind]; rfl, rfl, rfl⟩

theorem delegatesLead (h : p.Represented) : p.DelegatesLead :=
  ⟨h.acyclic, fun hn => h.canonicalWithin hn (Nat.le_of_lt (rank_lt_size hn))⟩

end Represented
end Plan

/-! ## Graphs -/

namespace Graph

/-- Merging keeps what delegates and their targets are known by, and elects the target of a
new one. -/
theorem Delegating.merged_represented
    {g : Graph}
    (hpositions : g.Delegating)
    (h : g.plan.Represented) :
    g.merged.plan.Represented := by
  have hdistinct : StarMerge.Distinct g.nodes.toList :=
    distinct_of_positions (fun hn => hpositions.positions hn)
  intro x y n' hn' hkind
  have hn'' : g.merged.node? x = some n' := hn'
  rw [merged_node?] at hn''
  obtain ⟨n, hn, rfl⟩ := Option.map_eq_some_iff.mp hn''
  have hmem := mem_nodes hn
  have hpart := StarMerge.part_outcome hdistinct hmem
  have hbefore : ∃ c, g.node? y = some c ∧ c.StandsInFor n := by
    rcases hpart.delegate_cases hmem hkind with hold | ⟨c, hc, rfl, hstands⟩
    · exact h hn hold
    · exact ⟨c, node?_of_mem (fun hn => hpositions.positions hn) hc, hstands⟩
  obtain ⟨c, hc, hstands⟩ := hbefore
  have hc' : g.merged.node? y = some (StarMerge.outcome g.nodes.toList c) := by
    rw [merged_node?, hc]
    rfl
  have hresembles := (StarMerge.part_outcome hdistinct (mem_nodes hc)).resembles
  exact ⟨_, hc', hstands.of_resembles hresembles hpart.resembles⟩

/-- In every graph that calls and batches reach, the targets of delegates stand in for
them. -/
theorem Batched.represented
    {B : Build}
    {g : Graph}
    (h : Batched B g) :
    g.plan.Represented := by
  have hof_nodes_eq : ∀ {g g' : Graph}, g.plan.Represented → g'.nodes = g.nodes →
      g'.plan.Represented := by
    intro g g' hg hnodes
    unfold Plan.Represented Plan.node? at hg ⊢
    simpa only [Graph.plan, hnodes] using hg
  have hholds : g.Delegating ∧ g.plan.Represented := by
    refine Invariant.holds (B := B) (P := fun g => g.Delegating ∧ g.plan.Represented)
      { empty := ⟨⟨(fun _ _ hn => nomatch hn), (fun _ _ hn => nomatch hn)⟩,
          fun _ _ _ hn => nomatch hn⟩
        pushed := fun hg _ hp => ?_
        answered := fun {g g₁ scope r id} hg _ hd => ?_
        refused := fun hg _ hf => ?_
        merged := fun hg => ⟨hg.1.merged, hg.1.merged_represented hg.2⟩ } h
    · have hnodes := (pushScope_answers hp).2
      exact ⟨hg.1.of_nodes_eq hnodes, hof_nodes_eq hg.2 hnodes⟩
    · refine ⟨(hg.1.answered hd).of_nodes_eq rfl, fun x y n hn hkind => ?_⟩
      obtain ⟨c, hc, hstands⟩ := hg.2 (node?_of_delegate hd hn hkind) hkind
      exact ⟨c, hd.grows.node? hc, hstands⟩
    · have hnodes := hf.grows.rollback_nodes
      exact ⟨hg.1.of_nodes_eq hnodes, hof_nodes_eq hg.2 hnodes⟩
  exact hholds.2

/-- In the plan of every graph that calls and batches reach, delegates lead to a node that
produces a value, of the same declaration and owner. -/
theorem Batched.delegates_lead
    {B : Build}
    {g : Graph}
    (h : Batched B g) :
    g.plan.DelegatesLead :=
  h.represented.delegatesLead

/-! ## A chain that grew with the second batch -/

/-- The graph after a batch that asks for `C` with no argument and with one argument known, a
request that fails, and a batch that asks for `C` with both arguments known. -/
def pairChain : Graph :=
  let scope := Graph.empty.withScope pairs none { name := "App" } pairDeclarations
  let first := (scope.resolveAll pairs ⟨0⟩
    [ { type := .generic ⟨18⟩ [.starProjection, .starProjection], origin := ⟨"app"⟩ },
      { type := .generic ⟨18⟩ [.of .any, .starProjection], origin := ⟨"app"⟩ } ]).2
  let refused := (first.resolve pairs ⟨0⟩ { type := .of ⟨16⟩, origin := ⟨"app"⟩ }).2
  (refused.resolveAll pairs ⟨0⟩
    [{ type := .generic ⟨18⟩ [.of .any, .of .any], origin := ⟨"app"⟩ }]).2

theorem pairChain_batched : Batched pairs pairChain :=
  .all _ _ (.resolve _ _ (.all _ _ (Batched.empty.withScope _ _ _)))

/-- The node that was elected first has become a delegate itself. -/
theorem pairChain_delegates_lead :
    Batched pairs pairChain
      ∧ pairChain.nodes.toList.map Node.kind
        = [ .delegate ⟨1⟩, .delegate ⟨2⟩,
            .callable
              { name := ⟨"app.c"⟩
                type := .generic ⟨18⟩ [.of .any, .of .any]
                typeParameters := [] } [] [] ]
      ∧ pairChain.plan.canonical ⟨0⟩ = ⟨2⟩
      ∧ pairChain.plan.DelegatesLead := by
  refine ⟨pairChain_batched, ?_, ?_, Batched.delegates_lead pairChain_batched⟩
  · decide +kernel
  · decide +kernel

end Graph
end Wiring
