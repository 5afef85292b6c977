import Wiring.Proofs.Cycle.Search
import Wiring.Proofs.Ownership.Tree

/-!
# Owners of answers

A node is meant to be owned by the scope that asks for it or by one of its ancestors.
`OwnedExcept` says that this is so for all answers that a graph remembers and for all
edges of its nodes, but for the nodes of a given set.

While a part of a search runs, the exceptions are the open nodes that it met again and
the new nodes that came to lie on a cycle by that.

**Results.**
* `Graph.OwnedExcept.begin`, `Graph.OwnedExcept.change`, and others: single changes keep
  the owners.
* `Graph.Met.close`: what was met while a node was open is met by the part that closes
  it.
-/

namespace Wiring
namespace Graph

/-- Whether a node is owned by a scope or by one of its ancestors. -/
def Holds (g : Graph) (scope : ScopeId) (id : NodeId) : Prop :=
  ∃ n, g.node? id = some n ∧ g.Above scope n.owner

/-- Whether edges lead from a node back to itself. -/
def OnCycle (g : Graph) (id : NodeId) : Prop :=
  Relation.TransGen g.Edge id id

/-- Whether all answers and edges but those that lead to given nodes lead to owners
above the scope that asks.  Nodes are also known to name their position. -/
structure OwnedExcept (g : Graph) (met : NodeId → Prop) : Prop where
  tree : g.Tree
  positions {id : NodeId} {n : Node} : g.node? id = some n → n.id = id
  answers {scope : ScopeId} {t : Ty} {id : NodeId} :
    ((scope, t), id) ∈ g.answers → met id ∨ g.Holds scope id
  resolved {id d : NodeId} {n : Node} :
    g.node? id = some n → d ∈ n.resolved → met d ∨ g.Holds n.evaluated d
  interceptors {id d : NodeId} {n : Node} {i : Interceptor} :
    g.node? id = some n → i ∈ n.interceptors → d ∈ i.resolved → met d ∨ g.Holds n.owner d

/-! ## Owners -/

section Holds

variable {g g' : Graph} {scope : ScopeId} {id : NodeId}

theorem Holds.grows
    (hg : g.Grows g')
    (h : g.Holds scope id) :
    g'.Holds scope id := by
  obtain ⟨n, hn, habove⟩ := h
  exact ⟨n, hg.node? hn, habove.mono hg.scopes⟩

theorem Holds.above
    {below : ScopeId}
    (habove : g.Above below scope)
    (h : g.Holds scope id) :
    g.Holds below id := by
  obtain ⟨n, hn, hscope⟩ := h
  exact ⟨n, hn, habove.trans hscope⟩

/-- A change that keeps owners. -/
theorem Holds.change
    (h : g.Holds scope id)
    (changed : NodeId)
    {f : Node → Node}
    (hf : ∀ n, (f n).owner = n.owner) :
    (g.change changed f).Holds scope id := by
  obtain ⟨n, hn, habove⟩ := h
  by_cases heq : changed = id
  · subst heq
    exact ⟨f n, change_node? hn f, by rw [hf]; exact habove⟩
  · exact ⟨n, (change_node?_of_ne heq f).trans hn, habove⟩

end Holds

/-! ## Single changes -/

namespace OwnedExcept

variable {g g' : Graph} {met met' : NodeId → Prop}

theorem empty (met : NodeId → Prop) : Graph.empty.OwnedExcept met where
  tree := .empty
  positions := fun hn => nomatch hn
  answers := fun ha => nomatch ha
  resolved := fun hn => nomatch hn
  interceptors := fun hn => nomatch hn

theorem imp
    (h : g.OwnedExcept met)
    (himp : ∀ d, met d → met' d) :
    g.OwnedExcept met' where
  tree := h.tree
  positions := h.positions
  answers := fun ha => (h.answers ha).imp_left (himp _)
  resolved := fun hn hd => (h.resolved hn hd).imp_left (himp _)
  interceptors := fun hn hi hd => (h.interceptors hn hi hd).imp_left (himp _)

theorem find?
    (h : g.OwnedExcept met)
    {scope : ScopeId}
    {t : Ty}
    {id : NodeId}
    (hfind : g.answers.find? scope t = some id) :
    met id ∨ g.Holds scope id :=
  h.answers (Answers.mem_of_find? hfind)

theorem withMemo
    (h : g.OwnedExcept met)
    (m : Memo) :
    (g.withMemo m).OwnedExcept met where
  tree := h.tree.of_scopes_eq rfl
  positions := h.positions
  answers := h.answers
  resolved := h.resolved
  interceptors := h.interceptors

theorem remember
    (h : g.OwnedExcept met)
    {scope : ScopeId}
    {id : NodeId}
    (hid : met id ∨ g.Holds scope id)
    (t : Ty) :
    (g.remember scope t id).OwnedExcept met where
  tree := h.tree.of_scopes_eq rfl
  positions := h.positions
  answers := fun ha => by
    rcases Answers.eq_or_mem_of_mem_insert ha with heq | ha
    · cases heq
      exact hid
    · exact h.answers ha
  resolved := h.resolved
  interceptors := h.interceptors

/-- A new node without edges. -/
theorem begin
    (h : g.OwnedExcept met)
    {n : Node}
    (hresolved : n.resolved = [])
    (hinterceptors : n.interceptors = [])
    {scope : ScopeId}
    (hscope : met g.nextId ∨ g.Above scope n.owner)
    (key : Option Ty) :
    (g.begin n key scope).OwnedExcept met := by
  have hgrows := (Grows.refl g).begin n key scope
  have hself := g.begin_node?_self n key scope
  have hnew : ∀ {above : ScopeId}, g.Above above n.owner →
      (g.begin n key scope).Holds above g.nextId :=
    fun habove => ⟨_, hself, habove.mono hgrows.scopes⟩
  refine
    { tree := h.tree.of_scopes_eq (begin_scopes g n key scope)
      positions := fun hn' => ?_
      answers := fun ha => ?_
      resolved := fun hn' hd => ?_
      interceptors := fun hn' hi hd => ?_ }
  · rcases begin_node?_eq_some hn' with hold | ⟨hid, rfl⟩
    · exact h.positions hold
    · exact hid.symm
  · rcases mem_answers_begin ha with ha | ⟨hid, howner | howner, -⟩
    · exact (h.answers ha).imp_right (Holds.grows hgrows)
    · dsimp only at hid howner
      rw [hid, howner]
      exact .inr (hnew .refl)
    · dsimp only at hid howner
      rw [hid, howner]
      exact hscope.imp_right hnew
  · rcases begin_node?_eq_some hn' with hold | ⟨-, rfl⟩
    · exact (h.resolved hold hd).imp_right (Holds.grows hgrows)
    · change _ ∈ n.resolved at hd
      rw [hresolved] at hd
      exact nomatch hd
  · rcases begin_node?_eq_some hn' with hold | ⟨-, rfl⟩
    · exact (h.interceptors hold hi hd).imp_right (Holds.grows hgrows)
    · change _ ∈ n.interceptors at hi
      rw [hinterceptors] at hi
      exact nomatch hi

/-- A change of one node that keeps its owner and leads to owners above. -/
theorem change
    (h : g.OwnedExcept met)
    (id : NodeId)
    (f : Node → Node)
    (hid : ∀ n, (f n).id = n.id)
    (hf : ∀ n, (f n).owner = n.owner)
    (hresolved : ∀ n, g.node? id = some n → ∀ d ∈ (f n).resolved,
      met d ∨ g.Holds (f n).evaluated d)
    (hinterceptors : ∀ n, g.node? id = some n → ∀ i ∈ (f n).interceptors,
      ∀ d ∈ i.resolved, met d ∨ g.Holds (f n).owner d) :
    (g.change id f).OwnedExcept met := by
  refine
    { tree := h.tree.of_scopes_eq rfl
      positions := fun {id'} _ hn' => ?_
      answers := fun ha => (h.answers ha).imp_right (fun hh => hh.change id hf)
      resolved := fun hn' hd => ?_
      interceptors := fun hn' hi hd => ?_ }
  · by_cases heq : id = id'
    · subst heq
      obtain ⟨n, hn, rfl⟩ := change_node?_self_eq_some hn'
      exact (hid n).trans (h.positions hn)
    · rw [change_node?_of_ne heq] at hn'
      exact h.positions hn'
  · rcases change_node?_eq_some hn' with hold | ⟨n, hn, rfl⟩
    · exact (h.resolved hold hd).imp_right (fun hh => hh.change id hf)
    · exact (hresolved n hn _ hd).imp_right (fun hh => hh.change id hf)
  · rcases change_node?_eq_some hn' with hold | ⟨n, hn, rfl⟩
    · exact (h.interceptors hold hi hd).imp_right (fun hh => hh.change id hf)
    · exact (hinterceptors n hn _ hi _ hd).imp_right (fun hh => hh.change id hf)

theorem narrowAt
    (h : g.OwnedExcept met)
    (B : Build)
    (id : NodeId)
    (declared : Declaration)
    (assisted : Bool) :
    (g.narrowAt B id declared assisted).OwnedExcept met := by
  rcases narrowAt_cases B g id declared assisted with heq | ⟨-, types, heq⟩
  · rw [heq]
    exact h
  · rw [heq]
    refine h.change id _ (fun _ => rfl) (fun _ => rfl) (fun n hn d hd => ?_)
      (fun n hn i hi d hd => ?_)
    · have hheld : met d ∨ g.Holds n.evaluated d := h.resolved hn hd
      exact hheld
    · have hheld : met d ∨ g.Holds n.owner d := h.interceptors hn hi hd
      exact hheld

theorem pushScope
    {B : Build}
    (h : g.OwnedExcept met)
    {parent : Option ScopeId}
    {spec : ScopeSpec}
    {found : Contributions}
    {inner : ScopeId}
    (hp : g.pushScope B parent spec found = .ok (inner, g')) :
    g'.OwnedExcept met := by
  have hgrows := (Grows.refl g).pushScope hp
  obtain ⟨hanswers, hnodes⟩ := pushScope_answers hp
  have hnode := Graph.node?_congr hnodes
  refine
    { tree := h.tree.pushScope hp
      positions := fun hn => ?_
      answers := fun ha => ?_
      resolved := fun hn hd => ?_
      interceptors := fun hn hi hd => ?_ }
  · rw [hnode] at hn
    exact h.positions hn
  · rw [hanswers] at ha
    exact (h.answers ha).imp_right (Holds.grows hgrows)
  · rw [hnode] at hn
    exact (h.resolved hn hd).imp_right (Holds.grows hgrows)
  · rw [hnode] at hn
    exact (h.interceptors hn hi hd).imp_right (Holds.grows hgrows)

end OwnedExcept

/-! ## What a part of a search met -/

/-- What a part of a search met: open nodes that it came to or that its new nodes refer
to, and new nodes on a cycle. -/
def Met (g g' : Graph) (stack results : List NodeId) (d : NodeId) : Prop :=
  (d ∈ stack ∧ (d ∈ results ∨ ∃ x, g.nodes.size ≤ x.index ∧ g'.Edge x d))
    ∨ (g.nodes.size ≤ d.index ∧ g'.OnCycle d)

section Met

variable {g g₁ g₂ g' : Graph} {stack results results' : List NodeId} {d : NodeId}

theorem Edge.grows
    (hg : g.Grows g')
    {n : NodeId}
    (h : g.Edge n d) :
    g'.Edge n d := by
  obtain ⟨node, hn, hd⟩ := h
  exact ⟨node, hg.node? hn, hd⟩

theorem Edge.change
    {id n : NodeId}
    {f : Node → Node}
    (hf : ∀ node, g.node? id = some node → ∀ d ∈ node.edges, d ∈ (f node).edges)
    (h : g.Edge n d) :
    (g.change id f).Edge n d := by
  obtain ⟨node, hn, hd⟩ := h
  by_cases heq : id = n
  · subst heq
    exact ⟨f node, change_node? hn f, hf node hn d hd⟩
  · exact ⟨node, (change_node?_of_ne heq f).trans hn, hd⟩

/-- A change of a node that only adds edges. -/
theorem Edge.change_node
    {id n : NodeId}
    {node : Node}
    (hn : g.node? id = some node)
    {f : Node → Node}
    (hf : ∀ d ∈ node.edges, d ∈ (f node).edges)
    (h : g.Edge n d) :
    (g.change id f).Edge n d := by
  refine h.change ?_
  intro node' hn'
  rw [hn] at hn'
  cases hn'
  exact hf

theorem Edge.narrowAt
    {n : NodeId}
    (h : g.Edge n d)
    (B : Build)
    (id : NodeId)
    (declared : Declaration)
    (assisted : Bool) :
    (g.narrowAt B id declared assisted).Edge n d := by
  rcases narrowAt_cases B g id declared assisted with heq | ⟨-, types, heq⟩
  · rw [heq]
    exact h
  · rw [heq]
    exact h.change (fun _ _ _ hd => hd)

theorem OnCycle.mono
    (hedges : ∀ {n d : NodeId}, g.Edge n d → g'.Edge n d)
    (h : g.OnCycle d) :
    g'.OnCycle d :=
  Relation.TransGen.mono (fun _ _ he => hedges he) _ _ h

/-- What a part of a part met is met by the whole. -/
theorem Met.mono
    (hsize : g.nodes.size ≤ g₁.nodes.size)
    (hedges : ∀ {n d : NodeId}, g₂.Edge n d → g'.Edge n d)
    (hresults : ∀ r ∈ results, r ∈ results')
    (h : g₁.Met g₂ stack results d) :
    g.Met g' stack results' d := by
  rcases h with ⟨hstack, hr | ⟨x, hx, he⟩⟩ | ⟨hd, hcycle⟩
  · exact .inl ⟨hstack, .inl (hresults d hr)⟩
  · exact .inl ⟨hstack, .inr ⟨x, Nat.le_trans hsize hx, hedges he⟩⟩
  · exact .inr ⟨Nat.le_trans hsize hd, hcycle.mono hedges⟩

/-- What one part or the next one met is met by both together. -/
theorem Met.seq
    {met : NodeId → Prop}
    (h₁ : g.Grows g₁)
    (h₂ : g₁.Grows g')
    (h : (met d ∨ g.Met g₁ stack results d) ∨ g₁.Met g' stack results' d) :
    met d ∨ g.Met g' stack (results ++ results') d := by
  rcases h with (hmet | hmet) | hmet
  · exact .inl hmet
  · exact .inr (hmet.mono (Nat.le_refl _) (Edge.grows h₂)
      (fun _ hr => List.mem_append_left _ hr))
  · exact .inr (hmet.mono h₁.size_nodes (fun he => he)
      (fun _ hr => List.mem_append_right _ hr))

/-- What was met while a node was open is met by the part that closes it: what was met
of the node itself is on a cycle. -/
theorem Met.close
    {id : NodeId}
    (hid : g.nodes.size ≤ id.index)
    (hsize : g.nodes.size ≤ g₁.nodes.size)
    (hedges : ∀ {n d : NodeId}, g₂.Edge n d → g'.Edge n d)
    (hresults : ∀ r ∈ results, g'.Edge id r)
    {B : Build}
    {Loose : NodeId → Prop}
    (hexplored : Explored B Loose (stack ++ [id]) g₁ g₂ results)
    (h : g₁.Met g₂ (stack ++ [id]) results d) :
    g.Met g' stack [id] d := by
  rcases h with ⟨hstack, hmet⟩ | ⟨hd, hcycle⟩
  · rcases List.mem_append.mp hstack with hstack | hself
    · refine .inl ⟨hstack, .inr ?_⟩
      rcases hmet with hr | ⟨x, hx, he⟩
      · exact ⟨id, hid, hresults d hr⟩
      · exact ⟨x, Nat.le_trans hsize hx, hedges he⟩
    · rw [List.mem_singleton.mp hself] at hmet ⊢
      refine .inr ⟨hid, ?_⟩
      rcases hmet with hr | ⟨x, hx, he⟩
      · exact .single (hresults id hr)
      · obtain ⟨r, hr, -, hbehind⟩ := hexplored.cover hx he.lt
        have hwalk : Relation.ReflTransGen g'.Edge r x :=
          Relation.ReflTransGen.mono (fun _ _ hstep => hedges hstep.2) _ _ hbehind
        exact .head' (hresults r hr) (hwalk.tail (hedges he))
  · exact .inr ⟨Nat.le_trans hsize hd, hcycle.mono hedges⟩

/-- Owners of what two parts came to, one after the other. -/
theorem held_append
    {met : NodeId → Prop}
    {scope : ScopeId}
    (h₁ : g.Grows g₁)
    (h₂ : g₁.Grows g')
    (hfirst : ∀ d ∈ results, (met d ∨ g.Met g₁ stack results d) ∨ g₁.Holds scope d)
    (hrest : ∀ d ∈ results',
      ((met d ∨ g.Met g₁ stack results d) ∨ g₁.Met g' stack results' d)
        ∨ g'.Holds scope d) :
    ∀ d ∈ results ++ results',
      (met d ∨ g.Met g' stack (results ++ results') d) ∨ g'.Holds scope d := by
  intro d hd
  rcases List.mem_append.mp hd with hd | hd
  · rcases hfirst d hd with hmet | hheld
    · exact .inl (Met.seq h₁ h₂ (.inl hmet))
    · exact .inr (hheld.grows h₂)
  · exact (hrest d hd).imp_left (Met.seq h₁ h₂)

/-- A node whose edges are set to what was found while it was open: what was met
meanwhile is met by the part that closes it. -/
theorem OwnedExcept.close
    {met : NodeId → Prop}
    {id : NodeId}
    (h : g'.OwnedExcept (fun d => met d ∨ g₁.Met g' (stack ++ [id]) results d))
    {B : Build}
    {Loose : NodeId → Prop}
    (hexplored : Explored B Loose (stack ++ [id]) g₁ g' results)
    (hid : g.nodes.size ≤ id.index)
    (hsize : g.nodes.size ≤ g₁.nodes.size)
    {n : Node}
    (hn : g'.node? id = some n)
    {f : Node → Node}
    (hname : ∀ n, (f n).id = n.id)
    (howner : ∀ n, (f n).owner = n.owner)
    (hkept : ∀ d ∈ n.edges, d ∈ (f n).edges)
    (hadded : ∀ d ∈ results, d ∈ (f n).edges)
    (hresolved : ∀ d ∈ (f n).resolved,
      (met d ∨ g₁.Met g' (stack ++ [id]) results d) ∨ g'.Holds (f n).evaluated d)
    (hinterceptors : ∀ i ∈ (f n).interceptors, ∀ d ∈ i.resolved,
      (met d ∨ g₁.Met g' (stack ++ [id]) results d) ∨ g'.Holds (f n).owner d) :
    (g'.change id f).OwnedExcept (fun d => met d ∨ g.Met (g'.change id f) stack [id] d) := by
  have hedges : ∀ r ∈ results, (g'.change id f).Edge id r :=
    fun r hr => ⟨f n, change_node? hn f, hadded r hr⟩
  refine (h.change id f hname howner ?_ ?_).imp ?_
  · intro n' hn'
    rw [hn] at hn'
    cases hn'
    exact hresolved
  · intro n' hn'
    rw [hn] at hn'
    cases hn'
    exact hinterceptors
  · intro d hmet
    exact hmet.imp_right
      (Met.close hid hsize (fun he => he.change_node hn hkept) hedges hexplored)

end Met

end Graph
end Wiring
