import Wiring.Proofs.Batched
import Wiring.Proofs.Retention

/-!
# Failing requests are undone

A request that fails may have appended scopes and nodes and remembered answers, at any
depth.  Afterwards the scopes and nodes that it appended are cut off, with the answers
that name them.  This gives back what was there before: a search changes no older scope
or node, and replaces no older answer.

Cutting back also drops answers that were remembered for scopes that are not there, if
there are any from before.

**Results.**
* `Graph.Batched.undone`: after a failing request, scopes, nodes and roots are as before,
  and so are the answers of all scopes that are there.
-/

namespace Wiring
namespace Graph

/-- Whether a graph is what it was before, with the answers that were remembered for
given scopes, and no answer for or by what is not there. -/
structure Undone (among : ScopeId → Prop) (g g' : Graph) : Prop where
  nodes : g'.nodes = g.nodes
  scopes : g'.scopes = g.scopes
  roots : g'.roots = g.roots
  answers {scope : ScopeId} {t : Ty} {id : NodeId} :
    among scope → g.answers.find? scope t = some id → g'.answers.find? scope t = some id
  known {scope : ScopeId} {t : Ty} {id : NodeId} :
    g'.answers.find? scope t = some id →
    (g'.scope? scope).isSome = true ∧ (g'.node? id).isSome = true

/-- A failing request cuts back a graph that grew, and that kept its answers. -/
theorem resolve_error_retains
    {B : Build}
    {g g' : Graph}
    (hg : g.Numbered)
    {scope : ScopeId}
    {r : Request}
    {e : ResolutionError}
    (h : g.resolve B scope r = (.error e, g')) :
    ∃ g₁, g.Grows g₁ ∧ g₁.Retains g.answers
      ∧ g' = g₁.rollback g.nodes.size g.scopes.size := by
  have hsound := Resolve.request_sound B B.options.maxDepth scope r
    ⟨g, .start B.options⟩ hg (fun _ => trivial)
  have hretains := Resolve.request_retains B g.answers B.options.maxDepth scope r
    ⟨g, .start B.options⟩ (.refl hg)
  unfold Graph.resolve at h
  split at h
  · cases h
  · rename_i s hrun
    rw [hrun] at hsound
    cases h
    exact ⟨s.graph, hsound.grows, hretains.error hrun, rfl⟩

/-- An answer that is left after cutting back names a scope and a node that are left. -/
theorem Grows.rollback_known
    {g g₁ : Graph}
    (h : g.Grows g₁)
    {scope : ScopeId}
    {t : Ty}
    {id : NodeId}
    (hfind : (g₁.rollback g.nodes.size g.scopes.size).answers.find? scope t = some id) :
    ((g₁.rollback g.nodes.size g.scopes.size).scope? scope).isSome = true
      ∧ ((g₁.rollback g.nodes.size g.scopes.size).node? id).isSome = true := by
  obtain ⟨-, hid, hscope⟩ := Answers.mem_restrict.mp (Answers.mem_of_find? hfind)
  dsimp only at hid hscope
  unfold Graph.scope? Graph.node?
  rw [h.rollback_scopes, h.rollback_nodes]
  constructor
  · simpa using hscope
  · simpa using hid

/-- In every graph that calls reach, a failing request is undone, with the answers of all
scopes that are there. -/
theorem Batched.undone
    {B : Build}
    {g g' : Graph}
    (h : Batched B g)
    {scope : ScopeId}
    {r : Request}
    {e : ResolutionError}
    (hrefused : g.resolve B scope r = (.error e, g')) :
    Undone (fun scope => (g.scope? scope).isSome = true) g g' := by
  obtain ⟨g₁, hgrows, hretains, rfl⟩ := resolve_error_retains h.numbered hrefused
  refine
    { nodes := hgrows.rollback_nodes
      scopes := hgrows.rollback_scopes
      roots := hgrows.roots
      answers := fun {scope t id} hscope hfind => ?_
      known := hgrows.rollback_known }
  have hid : id.index < g.nodes.size := h.bounded.find? hfind
  have hindex : scope.index < g.scopes.size := by
    simpa [Graph.scope?] using hscope
  exact Answers.find?_restrict (hretains.kept hfind) hid hindex

/-! ## A search that is cut back -/

/-- Three classes, `Cup`, `Water` and `Tea`. -/
def teaBuild : Build where
  registry :=
    { Registry.initial with
      registered := #[{ name := ⟨"Cup"⟩ }, { name := ⟨"Water"⟩ }, { name := ⟨"Tea"⟩ }] }

/-- Tea takes a cup when it is poured, and water, which nothing provides. -/
def teaDeclarations : List Declaration :=
  [ { name := ⟨"app.cup"⟩, type := .of ⟨16⟩ },
    { name := ⟨"app.tea"⟩
      type := .of ⟨18⟩
      parameters :=
        [ { name := "pour", type := .function [] (.of ⟨16⟩) },
          { name := "water", type := .of ⟨17⟩ } ] } ]

/-- The graph after a cup was asked for. -/
def teaGraph : Graph :=
  ((Graph.empty.withScope teaBuild none { name := "App" } teaDeclarations).resolve teaBuild
    ⟨0⟩ { type := .of ⟨16⟩, origin := ⟨"app"⟩ }).2

/-- A request for tea. -/
def teaRequest : Request := { type := .of ⟨18⟩, origin := ⟨"app"⟩ }

/-- How many scopes and nodes a graph has, and how many answers it remembers. -/
def extent (g : Graph) : Nat × Nat × Nat :=
  (g.scopes.size, g.nodes.size, g.answers.length)

/-- The graph in which a search fails, before it is cut back. -/
def failedSearch? (B : Build) (g : Graph) (scope : ScopeId) (r : Request) : Option Graph :=
  match Resolve.request B B.options.maxDepth scope r ⟨g, .start B.options⟩ with
  | .ok _ _ => none
  | .error _ s => some s.graph

/-- The answer for the cup is there before and after.  In between there are the scope and the
node of the function that pours, and the node of the tea, and they are remembered. -/
theorem teaGraph_undone :
    teaGraph.extent = (1, 1, 1)
      ∧ (failedSearch? teaBuild teaGraph ⟨0⟩ teaRequest).map extent = some (2, 3, 4)
      ∧ ∃ e, teaGraph.resolve teaBuild ⟨0⟩ teaRequest
          = (.error e, (teaGraph.resolve teaBuild ⟨0⟩ teaRequest).2)
        ∧ Undone (fun scope => (teaGraph.scope? scope).isSome = true) teaGraph
          (teaGraph.resolve teaBuild ⟨0⟩ teaRequest).2
        ∧ teaGraph.answers.find? ⟨0⟩ (.of ⟨16⟩) = some ⟨0⟩
        ∧ (teaGraph.resolve teaBuild ⟨0⟩ teaRequest).2.answers.find? ⟨0⟩ (.of ⟨16⟩)
          = some ⟨0⟩ := by
  have hbatched : Batched teaBuild teaGraph :=
    .resolve _ _ (Batched.empty.withScope _ _ _)
  have hfails : (teaGraph.resolve teaBuild ⟨0⟩ teaRequest).1.isOk = false := by
    decide +kernel
  refine ⟨by decide +kernel, by decide +kernel, ?_⟩
  cases hrun : teaGraph.resolve teaBuild ⟨0⟩ teaRequest with
  | mk outcome g' =>
      rw [hrun] at hfails
      cases outcome with
      | ok id => cases hfails
      | error e =>
          have hundone := Batched.undone hbatched hrun
          have hcup : teaGraph.answers.find? ⟨0⟩ (.of ⟨16⟩) = some ⟨0⟩ := by decide +kernel
          exact ⟨e, rfl, hundone, hcup, hundone.answers (by decide +kernel) hcup⟩

/-! ## An answer that is dropped -/

/-- One class. -/
def strayClass : Build where
  registry := { Registry.initial with registered := #[{ name := ⟨"Foo"⟩ }] }

/-- A request for the class. -/
def strayRequest : Request := { type := .of ⟨16⟩, origin := ⟨"app"⟩ }

/-- The graph with one scope, after a scope that is not there was asked for the class or
null. -/
def strayGraph : Graph :=
  ((Graph.empty.withScope strayClass none { name := "App" } []).resolve strayClass ⟨1⟩
    { type := { Ty.of ⟨16⟩ with nullable := true }, origin := ⟨"app"⟩ }).2

theorem strayGraph_batched : Batched strayClass strayGraph :=
  .resolve _ _ (Batched.empty.withScope _ _ _)

/-- The answer of the scope that is not there is dropped. -/
theorem strayGraph_not_undone :
    Batched strayClass strayGraph
      ∧ (strayGraph.scope? ⟨0⟩).isSome = true
      ∧ (strayGraph.resolve strayClass ⟨0⟩ strayRequest).1.isOk = false
      ∧ ¬ Undone (fun _ => True) strayGraph
        (strayGraph.resolve strayClass ⟨0⟩ strayRequest).2 := by
  refine ⟨strayGraph_batched, by decide +kernel, by decide +kernel, fun hundone => ?_⟩
  have hbefore : strayGraph.answers.find? ⟨1⟩ { Ty.of ⟨16⟩ with nullable := true }
      = some ⟨0⟩ := by
    decide +kernel
  have hafter : (strayGraph.resolve strayClass ⟨0⟩ strayRequest).2.answers.find? ⟨1⟩
      { Ty.of ⟨16⟩ with nullable := true } = none := by
    decide +kernel
  exact nomatch (hundone.answers trivial hbefore).symm.trans hafter

end Graph
end Wiring
