import Wiring.Proofs.Calling.Search
import Wiring.Proofs.Reachable

/-!
# Call contexts in plans

A declaration that suspends or composes can only be called from a scope of the same
context.  Requests are made in a scope, so what answers them has to be callable there.

This is checked when a scope offers a declaration, and not when an answer is found again.
The owner of a node remembers it as well as the scope that asked, and a scope passes
requests on to its parent, which offers what it can call itself.  So a scope may be
answered with what only another one can call.

**Results.**
* `Graph.Reachable.called`: every invoked declaration can be called from its owner or
  from some scope below, unless it is in a collection.
* `Graph.Reachable.callSafe_iff`: all answers can be called from where they were asked
  for exactly if those can that a scope of another context below their owner can call, or
  that are in a collection.
-/

namespace Wiring
namespace Graph

/-- Whether a request that was made in a scope is answered by a node: a top-level
request, or a dependency.  The entries of a collection are not requested. -/
inductive Answered (g : Graph) : ScopeId → NodeId → Prop
  | dependency {id d : NodeId} {n : Node} {r : Request} :
      g.node? id = some n →
      n.kind.isCollection = false →
      (r, d) ∈ n.dependencies.zip n.resolved →
      Answered g n.evaluated d
  | root {root : Root} :
      root ∈ g.roots →
      Answered g root.scope root.node

/-- Whether those of given answers that invoke a declaration can be called from the scope
that asked for them. -/
def CallSafe (g : Graph) (among : Scope → NodeId → Prop) : Prop :=
  ∀ ⦃scope : ScopeId⦄ ⦃d : NodeId⦄ ⦃s : Scope⦄ ⦃a : Node⦄,
    g.Answered scope d → g.scope? scope = some s → g.node? d = some a →
    a.kind.isInvocation = true → among s d →
    s.context.canCall a.callKind = true

/-- Whether a node is in a collection, or can be called from a scope of another context
than the given one, at its owner or below. -/
def CalledElsewhere (g : Graph) (s : Scope) (d : NodeId) : Prop :=
  g.IsElement d
    ∨ ∃ a scope other, g.node? d = some a ∧ g.scope? scope = some other
      ∧ g.Above scope a.owner ∧ other.context ≠ s.context
      ∧ other.context.canCall a.callKind = true

/-- Every declaration that is invoked can be called from its owner or from some scope
below, unless it is in a collection. -/
theorem Reachable.called
    {B : Build}
    {g : Graph}
    (h : Reachable B g) :
    g.CalledExcept (fun _ => False) := by
  refine h.invariant (P := fun g => g.CalledExcept (fun _ => False)) (.empty _) ?_ ?_ ?_
  · exact fun hcalled hp => hcalled.pushScope hp
  · intro g g₁ scope r id hcalled _ hd
    have hcalled₁ := (hd.called hcalled trivial).settled (fun _ hd => hd)
    exact hcalled₁.congr rfl rfl
  · intro g g₁ hcalled _ hf
    exact hcalled.congr hf.grows.rollback_scopes hf.grows.rollback_nodes

/-- In a graph that calls reach, all answers can be called from where they were asked for
exactly if those can that are called from elsewhere. -/
theorem Reachable.callSafe_iff
    {B : Build}
    {g : Graph}
    (h : Reachable B g) :
    g.CallSafe (fun _ _ => True) ↔ g.CallSafe g.CalledElsewhere := by
  constructor
  · intro hsafe scope d s a hanswered hs ha hkind _
    exact hsafe hanswered hs ha hkind trivial
  · intro hsafe scope d s a hanswered hs ha hkind _
    rcases h.called.called ha hkind with hfalse | helement | ⟨below, other, hother, habove, hcall⟩
    · exact hfalse.elim
    · exact hsafe hanswered hs ha hkind (.inl helement)
    · by_cases hcontext : other.context = s.context
      · rwa [hcontext] at hcall
      · refine hsafe hanswered hs ha hkind (.inr ?_)
        exact ⟨a, below, other, ha, hother, habove, hcontext, hcall⟩

/-! ## An answer that cannot be called -/

/-- Two classes. -/
def loadedView : Build where
  registry :=
    { Registry.initial with registered := #[{ name := ⟨"Foo"⟩ }, { name := ⟨"View"⟩ }] }

/-- The first class is loaded by a declaration that suspends, the second takes it. -/
def loadDeclarations : List Declaration :=
  [ { name := ⟨"app.load"⟩, type := .of ⟨16⟩, callKind := .suspend },
    { name := ⟨"app.view"⟩
      type := .of ⟨17⟩
      parameters := [{ name := "foo", type := .of ⟨16⟩ }] } ]

/-- The graph after a scope that cannot suspend was asked for a function that loads the
first class, and then for the second class. -/
def loadGraph : Graph :=
  let app := Graph.empty.withScope loadedView none { name := "App" } loadDeclarations
  let loaded := (app.resolve loadedView ⟨0⟩
    { type := .functionOf .suspendFunction [] (.of ⟨16⟩), origin := ⟨"app"⟩ }).2
  (loaded.resolve loadedView ⟨0⟩ { type := .of ⟨17⟩, origin := ⟨"app"⟩ }).2

theorem loadGraph_reachable : Reachable loadedView loadGraph :=
  .resolve _ _ (.resolve _ _ (Reachable.empty.withScope _ _ _))

theorem loadGraph_callSafe_iff :
    loadGraph.CallSafe (fun _ _ => True) ↔ loadGraph.CallSafe loadGraph.CalledElsewhere :=
  Reachable.callSafe_iff loadGraph_reachable

/-- The second class is built in the scope, where the first one cannot be loaded. -/
theorem loadGraph_not_callSafe :
    Reachable loadedView loadGraph ∧ ¬ loadGraph.CallSafe (fun _ _ => True) := by
  refine ⟨loadGraph_reachable, fun hsafe => ?_⟩
  have hview : (loadGraph.node? ⟨2⟩).any (fun n => decide
      (n.kind.isCollection = false ∧ n.evaluated = ⟨0⟩
        ∧ ⟨1⟩ ∈ (n.dependencies.zip n.resolved).map Prod.snd)) = true := by
    decide +kernel
  have hload : (loadGraph.node? ⟨1⟩).any (fun n => decide
      (n.kind.isInvocation = true ∧ n.callKind = .suspend)) = true := by
    decide +kernel
  have hscope : (loadGraph.scope? ⟨0⟩).any (fun s => decide (s.context = .plain)) = true := by
    decide +kernel
  obtain ⟨n, hn, hfacts⟩ := (Option.any_eq_true _ _).mp hview
  obtain ⟨hkind, hevaluated, hmem⟩ := of_decide_eq_true hfacts
  obtain ⟨⟨r, d⟩, hr, rfl⟩ := List.mem_map.mp hmem
  obtain ⟨a, ha, hfacts⟩ := (Option.any_eq_true _ _).mp hload
  obtain ⟨hinvokes, hsuspends⟩ := of_decide_eq_true hfacts
  obtain ⟨s, hs, hplain⟩ := (Option.any_eq_true _ _).mp hscope
  have hcall := hsafe (.dependency hn hkind hr) (hevaluated ▸ hs) ha hinvokes trivial
  rw [of_decide_eq_true hplain, hsuspends] at hcall
  exact absurd hcall (by decide)

end Graph
end Wiring
