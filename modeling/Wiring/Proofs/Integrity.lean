import Wiring.Proofs.Completion
import Wiring.Proofs.Integrity.Nodes

/-!
# Plans that fit together

Whoever works with a plan follows positions: from a node to its dependencies, to its owner
and to the scopes that it opens, and from a top-level request to the node that answers it.
As long as calls name scopes that are there, none of these positions leads nowhere, whatever
calls fail in between.

**Results.**
* `Graph.Integral.resolve`: a request in a scope that is there keeps positions valid, if it
  fails as well.
* `Graph.Anchored.wellFormed`: every graph that calls reach is well formed.
-/

namespace Wiring

/-- Whether everything that a node at a position names is there and is what the node
says. -/
structure Node.IsWellFormed (n : Node) (g : Graph) (id : NodeId) : Prop where
  position : n.id = id
  owner : n.owner.index < g.scopes.size
  answers : n.resolved.length = n.dependencies.length
  resolved : ∀ d ∈ n.resolved, d.index < g.nodes.size
  interceptors : ∀ i ∈ n.interceptors, i.resolved.length = i.dependencies.length
    ∧ ∀ d ∈ i.resolved, d.index < g.nodes.size
  map {keys : List MapKey} : n.kind = .map keys → keys.length = n.resolved.length
  set {elements : List QName} : n.kind = .set elements → elements.length = n.resolved.length
  provider {inner : ScopeId} {parameters : List Ty} {context : CallContext} :
    n.kind = .provider inner parameters context → g.Encloses n.owner inner parameters
  childComponent {inner : ScopeId} {parameters : List Ty} :
    n.kind = .childComponent inner parameters → g.Encloses n.owner inner parameters
  input {index : Nat} : n.kind = .input index → g.HasInput n.owner index n.type

namespace Graph

/-- Whether all nodes are well formed, every scope is below an earlier one, and every
top-level request names a scope and a node. -/
structure WellFormed (g : Graph) : Prop where
  nodes : g.Every (fun id n => n.IsWellFormed g id)
  scopes {scope parent : ScopeId} {s : Scope} :
    g.scope? scope = some s → s.parent = some parent →
    parent.index < scope.index
      ∧ ∃ p, g.scope? parent = some p ∧ s.depth = p.depth + 1
  roots : ∀ root ∈ g.roots,
    root.scope.index < g.scopes.size ∧ root.node.index < g.nodes.size

/-- The graphs that calls reach from the empty one, if the parents and scopes that the calls
name are there.  A call that cannot add a scope leaves the graph as it is. -/
inductive Anchored (B : Build) : Graph → Prop
  | empty : Anchored B .empty
  | scope {g g' : Graph} {parent : Option ScopeId} {spec : ScopeSpec}
      {declarations : List Declaration} {id : ScopeId} :
      Anchored B g →
      (∀ p, parent = some p → p.index < g.scopes.size) →
      g.addScope B parent spec declarations = .ok (id, g') →
      Anchored B g'
  | component {g g' : Graph} {parent : Option ScopeId} {type : Ty} {id : ScopeId} :
      Anchored B g →
      (∀ p, parent = some p → p.index < g.scopes.size) →
      g.addComponent B parent type = .ok (id, g') →
      Anchored B g'
  | resolve {g : Graph} {scope : ScopeId} (r : Request) :
      Anchored B g →
      scope.index < g.scopes.size →
      Anchored B (g.resolve B scope r).2
  | all {g : Graph} {scope : ScopeId} (rs : List Request) :
      Anchored B g →
      scope.index < g.scopes.size →
      Anchored B (g.resolveAll B scope rs).2
  | entryPoints {g : Graph} {scope : ScopeId} :
      Anchored B g →
      scope.index < g.scopes.size →
      Anchored B (g.resolveEntryPoints B scope).2

namespace Anchored

variable {B : Build} {g : Graph}

theorem batched (h : Anchored B g) : Batched B g := by
  induction h with
  | empty => exact .empty
  | scope _ _ hadd ih => exact ih.scope hadd
  | component _ _ hadd ih => exact ih.component hadd
  | resolve r _ _ ih => exact ih.resolve _ r
  | all rs _ _ ih => exact ih.all _ rs
  | entryPoints _ _ ih => exact ih.entryPoints _

theorem withScope
    (h : Anchored B g)
    {parent : Option ScopeId}
    (hparent : ∀ p, parent = some p → p.index < g.scopes.size)
    (spec : ScopeSpec)
    (declarations : List Declaration) :
    Anchored B (g.withScope B parent spec declarations) := by
  unfold Graph.withScope
  split
  · rename_i hadd
    exact h.scope hparent hadd
  · exact h

end Anchored

/-! ## What calls keep -/

/-- A firm graph whose nodes know their position and whose roots are there. -/
structure Integral (B : Build) (g : Graph) : Prop where
  firm : g.Firm B
  positions : g.Every (fun id n => n.id = id)
  roots : ∀ root ∈ g.roots,
    root.scope.index < g.scopes.size ∧ root.node.index < g.nodes.size

namespace Integral

variable {B : Build} {g g' : Graph}

theorem empty (B : Build) : Graph.empty.Integral B where
  firm :=
    { faithful := .empty
      charted := ⟨(fun hs => nomatch hs), fun hs => nomatch hs⟩
      bounded := fun _ ha => nomatch ha
      nodes := fun _ _ hn => nomatch hn }
  positions := fun _ _ hn => nomatch hn
  roots := fun _ hroot => nomatch hroot

theorem pushScope
    (h : g.Integral B)
    {parent : Option ScopeId}
    (hparent : ∀ p, parent = some p → p.index < g.scopes.size)
    {spec : ScopeSpec}
    {found : Contributions}
    {inner : ScopeId}
    (hp : g.pushScope B parent spec found = .ok (inner, g')) :
    g'.Integral B := by
  have hgrows := (Grows.refl g).pushScope hp
  have hnodes := (pushScope_answers hp).2
  have hfaithful := h.firm.faithful
  refine ⟨⟨hfaithful.pushScope hparent hp, ?_, h.firm.bounded.pushScope hp,
    every_carries_of_eq h.firm.nodes hnodes hgrows⟩, h.positions.of_nodes_eq hnodes, ?_⟩
  · exact h.firm.charted.pushScope hfaithful.tree.numbered hfaithful.rooted hparent hp
  · intro root hroot
    rw [hgrows.roots] at hroot
    obtain ⟨hscope, hnode⟩ := h.roots root hroot
    exact ⟨Nat.lt_of_lt_of_le hscope hgrows.size_scopes,
      Nat.lt_of_lt_of_le hnode hgrows.size_nodes⟩

/-- An answered request adds a root that is there. -/
theorem answered
    (h : g.Integral B)
    {scope : ScopeId}
    (hscope : scope.index < g.scopes.size)
    {r : Request}
    {id : NodeId}
    {g₁ : Graph}
    (hd : Derives B [] g (.request scope r id) g₁) :
    Graph.Integral B { g₁ with roots := g₁.roots ++ [⟨scope, r, id⟩] } := by
  have hstack : ∀ i ∈ ([] : List NodeId), i.index < g.nodes.size := fun _ hi => nomatch hi
  have hfirm := hd.firm hstack hscope h.firm
  have hid := (hd.bounded hstack h.firm.bounded).2 id (List.mem_singleton_self _)
  have hpositions := hd.every (Q := fun id n => n.id = id) (fun _ _ _ => rfl)
    (fun _ hn => hn) (fun _ hn => hn) (fun _ hn => hn) trivial h.positions
  refine ⟨⟨hfirm.faithful.congr rfl rfl, hfirm.charted.of_scopes_eq rfl, hfirm.bounded, ?_⟩,
    hpositions, fun root hroot => ?_⟩
  · exact fun _ _ hn => (hfirm.nodes hn).mono (fun hs => hs) (Nat.le_refl _) (Nat.le_refl _)
  · rcases List.mem_append.mp hroot with hroot | hroot
    · rw [hd.grows.roots] at hroot
      obtain ⟨hscope, hnode⟩ := h.roots root hroot
      exact ⟨Nat.lt_of_lt_of_le hscope hd.grows.size_scopes,
        Nat.lt_of_lt_of_le hnode hd.grows.size_nodes⟩
    · rw [List.mem_singleton.mp hroot]
      exact ⟨Nat.lt_of_lt_of_le hscope hd.grows.size_scopes, hid⟩

/-- A refused request leaves scopes and nodes as they were. -/
theorem refused
    (h : g.Integral B)
    {g₁ : Graph}
    (hf : Fails B [] g g₁) :
    (g₁.rollback g.nodes.size g.scopes.size).Integral B := by
  have hscopes := hf.grows.rollback_scopes
  have hnodes := hf.grows.rollback_nodes
  refine ⟨⟨h.firm.faithful.rollback (hf.faithful h.firm.faithful) hf.grows,
    h.firm.charted.of_scopes_eq hscopes, hf.grows.rollback_bounded, ?_⟩,
    h.positions.of_nodes_eq hnodes, fun root hroot => ?_⟩
  · refine Every.of_nodes_eq (fun _ n hn => ?_) hnodes
    refine (h.firm.nodes hn).mono (fun hs => ?_) ?_ ?_
    · rw [hscopes]
      exact hs
    · rw [hscopes]
    · rw [hnodes]
  · rw [hscopes, hnodes]
    change root ∈ g₁.roots at hroot
    rw [hf.grows.roots] at hroot
    exact h.roots root hroot

/-- A request in a scope that is there keeps positions valid, and the scope. -/
theorem resolve
    (h : g.Integral B)
    {scope : ScopeId}
    (hscope : scope.index < g.scopes.size)
    (r : Request) :
    (g.resolve B scope r).2.Integral B ∧ scope.index < (g.resolve B scope r).2.scopes.size := by
  have hnumbered := h.firm.faithful.tree.numbered
  cases hrun : g.resolve B scope r with
  | mk outcome g' =>
      cases outcome with
      | ok id =>
          obtain ⟨g₁, hd, rfl⟩ := resolve_ok hnumbered hrun
          exact ⟨h.answered hscope hd, Nat.lt_of_lt_of_le hscope hd.grows.size_scopes⟩
      | error e =>
          obtain ⟨g₁, hf, rfl⟩ := resolve_error hnumbered hrun
          refine ⟨h.refused hf, ?_⟩
          rw [hf.grows.rollback_scopes]
          exact hscope

/-- A merged node refers to a node that is there. -/
theorem merged (h : g.Integral B) : g.merged.Integral B := by
  have hsize : g.merged.nodes.size = g.nodes.size := StarMerge.size_mergeStars g.nodes
  have hcarries : ∀ {n : Node}, g.Carries n → g.merged.Carries n := fun hn =>
    hn.mono (fun hs => hs) (Nat.le_refl _) (Nat.le_of_eq hsize.symm)
  refine ⟨⟨h.firm.faithful.congr rfl rfl, h.firm.charted.of_scopes_eq rfl, fun a ha => ?_,
    fun id n' hn' => ?_⟩, fun id n' hn' => ?_, fun root hroot => ?_⟩
  · rw [hsize]
    exact h.firm.bounded a ha
  · obtain ⟨n, hn, houtcome⟩ := merged_node?_eq_some hn'
    have hold := h.firm.nodes hn
    cases houtcome with
    | kept => exact hcarries hold
    | canonical eager => exact hcarries ⟨hold.owner, hold.edges, hold.kind⟩
    | @delegate c origin hc _ =>
        refine hcarries ⟨hold.owner, fun d hd => ?_, trivial⟩
        have hc' := node?_of_mem (fun hn => h.positions hn) hc
        have hd' : d = c.id := by
          rcases Node.mem_edges.mp hd with hd | ⟨i, hin, -⟩
          · exact List.mem_singleton.mp hd
          · cases hin
        rw [hd']
        exact Graph.lt_size_of_node? hc'
  · obtain ⟨n, hn, houtcome⟩ := merged_node?_eq_some hn'
    exact houtcome.id.trans (h.positions hn)
  · rw [hsize]
    exact h.roots root hroot

end Integral

theorem Anchored.integral
    {B : Build}
    {g : Graph}
    (h : Anchored B g) :
    g.Integral B := by
  have hresolve : ∀ {g : Graph} {scope : ScopeId} (r : Request),
      g.Integral B ∧ scope.index < g.scopes.size →
      (g.resolve B scope r).2.Integral B
        ∧ scope.index < (g.resolve B scope r).2.scopes.size :=
    fun r hg => hg.1.resolve hg.2 r
  have hmerged : ∀ {g : Graph} {scope : ScopeId},
      g.Integral B ∧ scope.index < g.scopes.size →
      g.merged.Integral B ∧ scope.index < g.merged.scopes.size :=
    fun hg => ⟨hg.1.merged, hg.2⟩
  induction h with
  | empty => exact .empty B
  | scope _ hparent hadd ih =>
      obtain ⟨found, -, hp⟩ := addScope_eq_ok hadd
      exact ih.pushScope hparent hp
  | component _ hparent hadd ih =>
      obtain ⟨spec, found, hp⟩ := addComponent_eq_ok hadd
      exact ih.pushScope hparent hp
  | resolve r _ hscope ih => exact (ih.resolve hscope r).1
  | @all _ scope rs _ hscope ih =>
      have hkept := resolveAll_keeps
        (P := fun g => g.Integral B ∧ scope.index < g.scopes.size) hresolve hmerged rs
        ⟨ih, hscope⟩
      exact hkept.1
  | @entryPoints _ scope _ hscope ih =>
      have hkept := resolveEntryPoints_keeps
        (P := fun g => g.Integral B ∧ scope.index < g.scopes.size) hresolve hmerged
        ⟨ih, hscope⟩
      exact hkept.1

/-- Every graph that calls reach is well formed, if the calls name scopes that are there. -/
theorem Anchored.wellFormed
    {B : Build}
    {g : Graph}
    (h : Anchored B g) :
    g.WellFormed := by
  have hintegral := h.integral
  have hcomplete := h.batched.complete
  have hfaithful := hintegral.firm.faithful
  refine ⟨fun id n hn => ?_, fun {scope parent s} hs hparent => ?_, hintegral.roots⟩
  · obtain ⟨howner, hedges, hkind⟩ := hintegral.firm.nodes hn
    obtain ⟨hanswers, hattached⟩ := hcomplete hn
    unfold Node.KindFits at hkind
    exact
      { position := hintegral.positions hn
        owner := howner
        answers := hanswers
        resolved := fun d hd => hedges d (Node.mem_edges.mpr (.inl hd))
        interceptors := fun i hi => ⟨hattached i hi,
          fun d hd => hedges d (Node.mem_edges.mpr (.inr ⟨i, hi, hd⟩))⟩
        map := fun hk => by
          rw [hk] at hkind
          exact hkind.trans hanswers.symm
        set := fun hk => by
          rw [hk] at hkind
          exact hkind.trans hanswers.symm
        provider := fun hk => by
          rw [hk] at hkind
          exact hkind
        childComponent := fun hk => by
          rw [hk] at hkind
          exact hkind
        input := fun hk => by
          rw [hk] at hkind
          exact hkind }
  · have hlt := hfaithful.rooted _ _ _ hs hparent
    have hsize : parent.index < g.scopes.size :=
      Nat.lt_trans hlt (Graph.lt_size_of_scope? hs)
    have hp : g.scope? parent = some g.scopes[parent.index] := by
      simp [Graph.scope?, hsize]
    exact ⟨hlt, _, hp, hintegral.firm.charted.depth hs hparent hp⟩

/-! ## A function that returns its argument -/

/-- Two classes, `A` and `B`. -/
def echoBuild : Build where
  registry :=
    { Registry.initial with registered := #[{ name := ⟨"A"⟩ }, { name := ⟨"B"⟩ }] }

/-- A scope that contributes to a set of `A`. -/
def echoScope : Graph :=
  Graph.empty.withScope echoBuild none { name := "App" }
    [{ name := ⟨"app.a"⟩, type := .of ⟨16⟩, role := .setElement }]

/-- The scope is asked for a function from `A` to `A`, for a `B`, which there is none of, and
for the set. -/
def echoGraph : Graph :=
  let asked := (echoScope.resolve echoBuild ⟨0⟩
    { type := .function [.of ⟨16⟩] (.of ⟨16⟩), origin := ⟨"app"⟩ }).2
  let refused := (asked.resolve echoBuild ⟨0⟩ { type := .of ⟨17⟩, origin := ⟨"app"⟩ }).2
  (refused.resolveAll echoBuild ⟨0⟩ [{ type := .setOf (.of ⟨16⟩), origin := ⟨"app"⟩ }]).2

theorem echoGraph_anchored : Anchored echoBuild echoGraph := by
  have hscope : Anchored echoBuild echoScope := by
    refine Anchored.empty.withScope ?_ _ _
    exact fun p hp => nomatch hp
  refine .all _ (.resolve _ (.resolve _ hscope ?_) ?_) ?_
  · decide +kernel
  · decide +kernel
  · decide +kernel

/-- The provider opens a scope with the input that it returns, and the set has its
element. -/
theorem echoGraph_wellFormed :
    Anchored echoBuild echoGraph
      ∧ echoGraph.nodes.toList.map (fun n => (n.kind.name, n.owner, n.resolved))
        = [ ("provider", ⟨0⟩, [⟨1⟩]), ("input", ⟨1⟩, []), ("set", ⟨0⟩, [⟨3⟩]),
            ("callable", ⟨0⟩, []) ]
      ∧ echoGraph.WellFormed := by
  refine ⟨echoGraph_anchored, ?_, Anchored.wellFormed echoGraph_anchored⟩
  decide +kernel

end Graph
end Wiring
