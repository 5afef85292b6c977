import Wiring.Proofs.Cycle
import Wiring.Proofs.Merging.Election

/-!
# Cycles of merged nodes

Merging redirects a node to the elected one of its group, and with it all nodes that
refer to it.  The elected node was resolved at another type, so it may depend, through
nodes that are not redirected, on the very node that is redirected to it.  Merging then
closes a cycle.

Say that a redirected node takes a detour to another one, or to itself, if the node that
it is redirected to depends on that one without any node in between that puts cycles off.

**Results.**
* `Graph.cyclesBroken_iff_forall`: every cycle is put off exactly if no node is below
  itself on edges from nodes that do not put cycles off.
* `Graph.Batched.merged_cyclesBroken_iff`: merging keeps that every cycle is put off
  exactly if detours never lead back to where they start.
-/

namespace Wiring
namespace Graph

open Relation

/-- An edge from a node that does not put cycles off. -/
def Unbroken (g : Graph) (x y : NodeId) : Prop :=
  g.breaksCycles x = false ∧ g.Edge x y

/-- An edge from a node that does not put cycles off and is not redirected. -/
def Plain (g : Graph) (x y : NodeId) : Prop :=
  g.Unbroken x y ∧ ¬ g.Redirected x

/-- Whether a redirected node would depend on another one once it is redirected, through
nodes that are not redirected, and nothing puts that off. -/
def Detour (g : Graph) (m m' : NodeId) : Prop :=
  g.breaksCycles m = false ∧ g.Redirected m'
    ∧ ∃ c, g.Redirects m c ∧ ReflTransGen g.Plain c m'

section Unbroken

variable {g : Graph} {x y : NodeId}

/-- A walk that nothing puts off is a list of nodes that do not put cycles off. -/
theorem exists_list_of_unbroken
    (h : TransGen g.Unbroken x y) :
    ∃ ns, (x :: ns ++ [y]).IsChain g.Edge ∧ ∀ p ∈ x :: ns, g.breaksCycles p = false := by
  induction h using TransGen.head_induction_on with
  | single hstep => exact ⟨[], by simpa using hstep.2, by simpa using hstep.1⟩
  | head hstep _ ih =>
      obtain ⟨ns, hchain, hnone⟩ := ih
      refine ⟨_ :: ns, .cons_cons hstep.2 hchain, fun p hp => ?_⟩
      rcases List.mem_cons.mp hp with rfl | hp
      · exact hstep.1
      · exact hnone p hp

/-- Every cycle is put off exactly if no node is below itself on edges from nodes that do
not put cycles off. -/
theorem cyclesBroken_iff_forall
    (g : Graph) :
    g.CyclesBroken ↔ ∀ x, ¬ TransGen g.Unbroken x x := by
  constructor
  · intro hbroken x hx
    obtain ⟨ns, hchain, hnone⟩ := exists_list_of_unbroken hx
    obtain ⟨p, hp, hbreaks⟩ := hbroken (x :: ns) hchain
    exact absurd (hnone p hp) (by simp [hbreaks])
  · intro hnone c hc
    by_contra hunbroken
    have hedge : ∀ {x y : NodeId}, g.Along c x y → g.Unbroken x y := by
      rintro x y ⟨hx, -, he⟩
      refine ⟨?_, he⟩
      by_contra hx'
      exact hunbroken ⟨x, hx, by simpa using hx'⟩
    cases c with
    | nil => exact hc
    | cons m ns =>
        obtain ⟨w, hwalk, hback⟩ := hc.walk List.mem_cons_self
        have hwalk' : ReflTransGen g.Unbroken m w :=
          ReflTransGen.mono (fun _ _ => hedge) _ _ hwalk
        exact hnone m (TransGen.tail' hwalk' (hedge hback))

end Unbroken

/-! ## Edges of the merged graph -/

section Edges

variable {g : Graph} {x y : NodeId}

/-- A node puts cycles off after merging exactly if it did before. -/
theorem Labelled.merged_breaksCycles
    (h : g.Labelled)
    (x : NodeId) :
    g.merged.breaksCycles x = g.breaksCycles x := by
  cases hn : g.node? x with
  | none =>
      simp [breaksCycles, hn, merged_node?_eq_none hn]
  | some n =>
      obtain ⟨n', hn', hfate⟩ := h.exists_fate hn
      rw [breaksCycles_eq hn, breaksCycles_eq hn']
      cases hfate with
      | kept => rfl
      | @redirected c origin hkind =>
          -- neither an invoked declaration nor a delegate is a provider
          have hprovider : n.kind.isProvider = false := by
            cases hk : n.kind with
            | provider => simp [hk, NodeKind.isInvocation] at hkind
            | _ => rfl
          have hdelegate : (NodeKind.delegate c.id).isProvider = false := rfl
          simp [Node.breaksCycles, StarMerge.delegateTo, hprovider, hdelegate]

/-- A redirected node refers to what it is redirected to, and all others to what they
referred to before. -/
theorem Labelled.merged_edge_iff
    (h : g.Labelled) :
    g.merged.Edge x y ↔ g.Redirects x y ∨ (¬ g.Redirected x ∧ g.Edge x y) := by
  cases hn : g.node? x with
  | none =>
      simp [Edge, Redirects, hn, merged_node?_eq_none hn]
  | some n =>
      obtain ⟨n', hn', hfate⟩ := h.exists_fate hn
      have hedge : g.Edge x y ↔ y ∈ n.edges := by
        simp [Edge, hn]
      have hedge' : g.merged.Edge x y ↔ y ∈ n'.edges := by
        simp [Edge, hn']
      rw [hedge, hedge']
      cases hfate with
      | kept eager hkept =>
          have hnot : ¬ g.Redirects x y := fun hy => hkept ⟨y, hy⟩
          simp [hnot, hkept, Node.edges]
      | @redirected c origin hkind hc hunique =>
          have hredirected : g.Redirected x := ⟨c.id, hc⟩
          have hiff : g.Redirects x y ↔ y = c.id :=
            ⟨hunique y, fun heq => heq ▸ hc⟩
          simp [hredirected, hiff, StarMerge.delegateTo, Node.edges]

end Edges

/-! ## Detours -/

section Detours

variable {g : Graph} {x y m : NodeId}

/-- The step that an unbroken edge of the merged graph is. -/
theorem Labelled.merged_unbroken_iff
    (h : g.Labelled) :
    g.merged.Unbroken x y ↔
      (g.breaksCycles x = false ∧ g.Redirects x y) ∨ g.Plain x y := by
  unfold Unbroken Plain Unbroken
  rw [h.merged_breaksCycles, h.merged_edge_iff]
  tauto

theorem Plain.merged
    (hg : g.Labelled)
    (h : g.Plain x y) :
    g.merged.Unbroken x y :=
  hg.merged_unbroken_iff.mpr (.inr h)

/-- A detour is a walk of the merged graph. -/
theorem Detour.walk
    (hg : g.Labelled)
    (h : g.Detour x y) :
    TransGen g.merged.Unbroken x y := by
  obtain ⟨hbreaks, -, c, hc, hwalk⟩ := h
  have hfirst : g.merged.Unbroken x c := hg.merged_unbroken_iff.mpr (.inl ⟨hbreaks, hc⟩)
  exact .head' hfirst (ReflTransGen.mono (fun _ _ => Plain.merged hg) _ _ hwalk)

/-- A walk of the merged graph to a redirected node goes plainly up to the first
redirected node and by detours from there. -/
theorem exists_detours
    (hg : g.Labelled)
    (hm : g.Redirected m)
    (h : ReflTransGen g.merged.Unbroken x m) :
    ∃ m₁, ReflTransGen g.Plain x m₁ ∧ g.Redirected m₁ ∧ ReflTransGen g.Detour m₁ m := by
  induction h using ReflTransGen.head_induction_on with
  | refl => exact ⟨m, .refl, hm, .refl⟩
  | @head x y hstep _ ih =>
      obtain ⟨m₁, hplain, hm₁, hdetours⟩ := ih
      rcases hg.merged_unbroken_iff.mp hstep with ⟨hbreaks, hxy⟩ | hxy
      · have hdetour : g.Detour x m₁ := ⟨hbreaks, hm₁, y, hxy, hplain⟩
        exact ⟨x, .refl, ⟨y, hxy⟩, .head hdetour hdetours⟩
      · exact ⟨m₁, .head hxy hplain, hm₁, hdetours⟩

/-- A redirected node that is below itself after merging is below itself on detours. -/
theorem detours_of_cycle
    (hg : g.Labelled)
    (hm : g.Redirected m)
    (h : TransGen g.merged.Unbroken m m) :
    TransGen g.Detour m m := by
  obtain ⟨y, hstep, hwalk⟩ := TransGen.head'_iff.mp h
  obtain ⟨m₁, hplain, hm₁, hdetours⟩ := exists_detours hg hm hwalk
  rcases hg.merged_unbroken_iff.mp hstep with ⟨hbreaks, hmy⟩ | hmy
  · have hdetour : g.Detour m m₁ := ⟨hbreaks, hm₁, y, hmy, hplain⟩
    exact .head' hdetour hdetours
  · exact absurd hm hmy.2

/-- A walk of the merged graph from a node that leads back to it meets a redirected node
or was there before. -/
theorem redirected_or_plain
    (hg : g.Labelled)
    (h : TransGen g.merged.Unbroken x y)
    (hback : ReflTransGen g.merged.Unbroken y x) :
    (∃ m, g.Redirected m ∧ TransGen g.merged.Unbroken m m) ∨ TransGen g.Plain x y := by
  induction h with
  | single hstep =>
      rcases hg.merged_unbroken_iff.mp hstep with ⟨-, hxy⟩ | hxy
      · exact .inl ⟨x, ⟨_, hxy⟩, .head' hstep hback⟩
      · exact .inr (.single hxy)
  | @tail b c hwalk hstep ih =>
      rcases hg.merged_unbroken_iff.mp hstep with ⟨-, hbc⟩ | hbc
      · exact .inl ⟨b, ⟨c, hbc⟩, (TransGen.head' hstep hback).trans_left hwalk.to_reflTransGen⟩
      · exact (ih (.head hstep hback)).imp_right (fun hplain => hplain.tail hbc)

/-- In a graph that calls reach, merging keeps that every cycle is put off exactly if
detours never lead back to where they start. -/
theorem Batched.merged_cyclesBroken_iff
    {B : Build}
    (h : Batched B g)
    (hbroken : g.CyclesBroken) :
    g.merged.CyclesBroken ↔ ∀ m, ¬ TransGen g.Detour m m := by
  have hg := h.labelled
  constructor
  · intro hmerged m hm
    have hcycle : TransGen g.merged.Unbroken m m :=
      hm.lift' id (fun _ _ hdetour => hdetour.walk hg)
    exact (cyclesBroken_iff_forall _).mp hmerged m hcycle
  · intro hdetours
    refine (cyclesBroken_iff_forall _).mpr (fun x hx => ?_)
    rcases redirected_or_plain hg hx .refl with ⟨m, hm, hcycle⟩ | hplain
    · exact hdetours m (detours_of_cycle hg hm hcycle)
    · have hcycle : TransGen g.Unbroken x x := TransGen.mono (fun _ _ hxy => hxy.1) _ _ hplain
      exact (cyclesBroken_iff_forall g).mp hbroken x hcycle

end Detours

/-! ## A cycle that merging closes -/

/-- Nodes that only refer to later ones are in no cycle. -/
theorem cyclesBroken_of_increasing
    {g : Graph}
    (h : ∀ {x y : NodeId}, g.Edge x y → x.index < y.index) :
    g.CyclesBroken := by
  have hlt : ∀ {x y : NodeId}, TransGen g.Unbroken x y → x.index < y.index := by
    intro x y hxy
    induction hxy with
    | single hstep => exact h hstep.2
    | tail _ hstep ih => exact ih.trans (h hstep.2)
  exact (cyclesBroken_iff_forall g).mpr (fun x hx => Nat.lt_irrefl _ (hlt hx))

/-- A class, a type parameter and two classes of one parameter. -/
def repositories : Build where
  registry :=
    { Registry.initial with
      registered :=
        #[ { name := ⟨"User"⟩ },
          { name := ⟨"T"⟩, flags := [.typeParameter] },
          { name := ⟨"Box"⟩, typeParameters := [⟨17⟩] },
          { name := ⟨"Repo"⟩, typeParameters := [⟨17⟩] } ] }

/-- A box of anything, a box of a user that takes any repository, and a repository of any
type that takes a box of it. -/
def repositoryDeclarations : List Declaration :=
  [ { name := ⟨"app.anyBox"⟩
      type := .generic ⟨18⟩ [.starProjection] },
    { name := ⟨"app.userBox"⟩
      type := .generic ⟨18⟩ [.of ⟨16⟩]
      parameters := [{ name := "repo", type := .generic ⟨19⟩ [.starProjection] }] },
    { name := ⟨"app.repo"⟩
      type := .generic ⟨19⟩ [.of ⟨17⟩]
      typeParameters := [⟨17⟩]
      parameters := [{ name := "box", type := .generic ⟨18⟩ [.of ⟨17⟩] }] } ]

/-- The graph after a repository of users was asked for. -/
def repositoryGraph : Graph :=
  ((Graph.empty.withScope repositories none { name := "App" } repositoryDeclarations).resolve
    repositories ⟨0⟩ { type := .generic ⟨19⟩ [.of ⟨16⟩], origin := ⟨"app"⟩ }).2

theorem repositoryGraph_batched : Batched repositories repositoryGraph :=
  .resolve _ _ (Batched.empty.withScope _ _ _)

theorem repositoryGraph_cyclesBroken : repositoryGraph.CyclesBroken := by
  have hnodes : ∀ i < repositoryGraph.nodes.size,
      (repositoryGraph.node? ⟨i⟩).all (fun n => n.edges.all (fun d => i < d.index)) = true := by
    decide +kernel
  refine cyclesBroken_of_increasing (fun {x y} hxy => ?_)
  obtain ⟨n, hn, hy⟩ := hxy
  have hx := hnodes x.index (Edge.lt ⟨n, hn, hy⟩)
  rw [hn] at hx
  simpa using List.all_eq_true.mp hx y hy

/-- Merging is exactly as safe here as its detours are. -/
theorem repositoryGraph_merged_cyclesBroken_iff :
    repositoryGraph.CyclesBroken
      ∧ (repositoryGraph.merged.CyclesBroken
        ↔ ∀ m, ¬ TransGen repositoryGraph.Detour m m) :=
  ⟨repositoryGraph_cyclesBroken,
    Batched.merged_cyclesBroken_iff repositoryGraph_batched repositoryGraph_cyclesBroken⟩

/-- The repository of anything, which the box of a user takes, becomes the repository of
users, which takes that box. -/
theorem repositoryGraph_merged_not_cyclesBroken :
    Batched repositories repositoryGraph ∧ repositoryGraph.CyclesBroken
      ∧ ¬ repositoryGraph.merged.CyclesBroken := by
  refine ⟨repositoryGraph_batched, repositoryGraph_cyclesBroken, fun hbroken => ?_⟩
  have hcycle : repositoryGraph.merged.IsCycle [⟨0⟩, ⟨1⟩, ⟨2⟩] := by decide +kernel
  have hnone : ¬ ∃ p ∈ [⟨0⟩, ⟨1⟩, ⟨2⟩], repositoryGraph.merged.breaksCycles p = true := by
    decide +kernel
  exact hnone (hbroken _ hcycle)

end Graph
end Wiring
