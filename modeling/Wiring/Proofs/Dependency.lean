import Mathlib.Logic.Relation
import Wiring.Proofs.Growth

/-!
# Dependencies of nodes

Which nodes a node refers to, in which scope it asks for them, and which scopes are
above a scope.  Interceptors of a node ask in the scope of its owner, a provider and a
factory of a child component ask in the scope they open, and all other nodes ask in
the scope of their owner.
-/

namespace Wiring

/-- Whether a declaration is invoked, with all its parameters resolved. -/
def NodeKind.isInvocation : NodeKind → Bool
  | .callable _ _ [] => true
  | _ => false

namespace Node

/-- The nodes that a node and its interceptors refer to. -/
def edges (n : Node) : List NodeId :=
  n.resolved ++ n.interceptors.flatMap Interceptor.resolved

/-- Whether a node asks for a request in a scope and is answered by another node. -/
def Asks (n : Node) (scope : ScopeId) (r : Request) (d : NodeId) : Prop :=
  (scope = n.evaluated ∧ (r, d) ∈ n.dependencies.zip n.resolved)
    ∨ (scope = n.owner ∧ ∃ i ∈ n.interceptors, (r, d) ∈ i.dependencies.zip i.resolved)

theorem mem_edges
    {n : Node}
    {d : NodeId} :
    d ∈ n.edges ↔ d ∈ n.resolved ∨ ∃ i ∈ n.interceptors, d ∈ i.resolved := by
  simp [edges]

end Node

namespace Graph

/-- Whether a node refers to another. -/
def Edge (g : Graph) (n d : NodeId) : Prop :=
  ∃ node, g.node? n = some node ∧ d ∈ node.edges

/-- Whether a node asks for a request in a scope and is answered by another node. -/
def Asks (g : Graph) (n : NodeId) (scope : ScopeId) (r : Request) (d : NodeId) : Prop :=
  ∃ node, g.node? n = some node ∧ node.Asks scope r d

/-- Whether a scope names another as its parent. -/
def IsParent (g : Graph) (scope parent : ScopeId) : Prop :=
  ∃ s, g.scope? scope = some s ∧ s.parent = some parent

/-- Whether a scope is another or one of its ancestors. -/
def Above (g : Graph) : (scope above : ScopeId) → Prop :=
  Relation.ReflTransGen g.IsParent

theorem Edge.lt
    {g : Graph}
    {n d : NodeId}
    (h : g.Edge n d) :
    n.index < g.nodes.size := by
  obtain ⟨node, hnode, -⟩ := h
  exact Graph.lt_size_of_node? hnode

theorem edge_iff
    {g : Graph}
    {n d : NodeId} :
    g.Edge n d ↔ (g.node? n).any (fun node => decide (d ∈ node.edges)) = true := by
  cases hn : g.node? n with
  | none => simp [Edge, hn]
  | some node => simp [Edge, hn]

instance (g : Graph) : DecidableRel g.Edge :=
  fun _ _ => decidable_of_iff _ edge_iff.symm

theorem Edge.congr
    {g g' : Graph}
    {n d : NodeId}
    (hn : g'.node? n = g.node? n)
    (h : g.Edge n d) :
    g'.Edge n d := by
  obtain ⟨node, hnode, hd⟩ := h
  exact ⟨node, hn.trans hnode, hd⟩

theorem Asks.congr
    {g g' : Graph}
    {n d : NodeId}
    {scope : ScopeId}
    {r : Request}
    (hn : g'.node? n = g.node? n)
    (h : g.Asks n scope r d) :
    g'.Asks n scope r d := by
  obtain ⟨node, hnode, hd⟩ := h
  exact ⟨node, hn.trans hnode, hd⟩

theorem breaksCycles_eq
    {g : Graph}
    {id : NodeId}
    {n : Node}
    (hn : g.node? id = some n) :
    g.breaksCycles id = n.breaksCycles := by
  simp [breaksCycles, hn]

theorem breaksCycles_congr
    {g g' : Graph}
    {id : NodeId}
    (hn : g'.node? id = g.node? id) :
    g'.breaksCycles id = g.breaksCycles id := by
  unfold breaksCycles
  rw [hn]

/-- Nodes that put cycles off go on doing so when others are appended. -/
theorem Grows.breaksCycles
    {g g' : Graph}
    (hg : g.Grows g')
    {id : NodeId}
    (h : g.breaksCycles id = true) :
    g'.breaksCycles id = true := by
  cases hn : g.node? id with
  | none => simp [Graph.breaksCycles, hn] at h
  | some n =>
      rw [breaksCycles_congr ((hg.node? hn).trans hn.symm)]
      exact h

/-- Scopes keep their ancestors when others are added. -/
theorem Above.mono
    {g g' : Graph}
    (hscopes : ∀ {i : Nat} {s : Scope}, g.scopes[i]? = some s → g'.scopes[i]? = some s)
    {scope above : ScopeId}
    (h : g.Above scope above) :
    g'.Above scope above := by
  refine Relation.ReflTransGen.mono ?_ _ _ h
  rintro a b ⟨s, hs, hp⟩
  exact ⟨s, hscopes hs, hp⟩

end Graph
end Wiring
