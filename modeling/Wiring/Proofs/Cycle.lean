import Mathlib.Data.List.Chain
import Mathlib.Data.List.MinMax
import Wiring.Proofs.Cycle.Search
import Wiring.Proofs.Reachable

/-!
# Cycles of nodes

A node is appended before its dependencies are resolved, so a dependency can lead back
to it.  Such a cycle is meant to be put off by a function: some node of it has to be a
provider, or have a function as its value.

An answer is only checked while it is on the stack.  The first node of a cycle that was
appended is checked against whatever lies between it and the node that leads back to it,
and this can be put off by a node that is not in the cycle: if another node of the cycle
found, already finished, what was built behind that node.  Such an edge is a shortcut.

**Results.**
* `Graph.Reachable.cyclesBroken_iff`: every cycle is put off by one of its nodes exactly
  if those are that use a shortcut, or that take over an answer for an inherited input.
-/

namespace Wiring
namespace Graph

/-- Whether each node of a list refers to the next one, and the last to the first. -/
def IsCycle (g : Graph) : List NodeId → Prop
  | [] => False
  | n :: ns => (n :: ns ++ [n]).IsChain g.Edge

instance (g : Graph) : DecidablePred g.IsCycle
  | [] => isFalse id
  | n :: ns => inferInstanceAs (Decidable ((n :: ns ++ [n]).IsChain g.Edge))

/-- Whether some node of every cycle puts it off. -/
def CyclesBroken (g : Graph) : Prop :=
  ∀ c, g.IsCycle c → ∃ p ∈ c, g.breaksCycles p = true

/-- Whether an edge leads to a node that was appended while another one, which puts
cycles off, was open, from a node that was not. -/
def Shortcut (g : Graph) (x y : NodeId) : Prop :=
  ∃ p, g.breaksCycles p = true ∧ p ≠ y ∧ g.Behind p y ∧ ¬ g.Behind p x

/-- Whether a cycle uses an edge that has not been checked. -/
def Unchecked (B : Build) (g : Graph) (c : List NodeId) : Prop :=
  ∃ x ∈ c, ∃ y ∈ c, g.Edge x y ∧ (g.Shortcut x y ∨ g.Bypass B x y)

/-! ## Walks along a cycle -/

/-- Edges between nodes of a cycle. -/
def Along (g : Graph) (c : List NodeId) (x y : NodeId) : Prop :=
  x ∈ c ∧ y ∈ c ∧ g.Edge x y

variable {g : Graph} {c : List NodeId}

/-- A cycle can be entered at any of its nodes. -/
theorem IsCycle.rotate
    (h : g.IsCycle c)
    {m : NodeId}
    (hm : m ∈ c) :
    ∃ ns, g.IsCycle (m :: ns) ∧ ∀ x ∈ m :: ns, x ∈ c := by
  cases c with
  | nil => exact nomatch hm
  | cons n ns =>
      obtain ⟨before, after, heq⟩ := List.append_of_mem hm
      cases before with
      | nil =>
          cases heq
          exact ⟨ns, h, fun x hx => hx⟩
      | cons n' before =>
          obtain ⟨rfl, rfl⟩ : n = n' ∧ ns = before ++ m :: after := by simpa using heq
          change (n :: (before ++ m :: after) ++ [n]).IsChain g.Edge at h
          have hsplit : (n :: before ++ m :: (after ++ [n])).IsChain g.Edge := by
            simpa using h
          obtain ⟨hbefore, hafter⟩ := List.isChain_split.mp hsplit
          refine ⟨after ++ n :: before, ?_, fun x hx => ?_⟩
          · change (m :: (after ++ n :: before) ++ [m]).IsChain g.Edge
            have hjoin : ((m :: after) ++ n :: (before ++ [m])).IsChain g.Edge :=
              List.isChain_split.mpr ⟨by simpa using hafter, by simpa using hbefore⟩
            simpa using hjoin
          · simp only [List.mem_cons, List.mem_append] at hx ⊢
            tauto

/-- A cycle leads from each of its nodes to one that refers back to it. -/
theorem IsCycle.walk
    (h : g.IsCycle c)
    {m : NodeId}
    (hm : m ∈ c) :
    ∃ w, Relation.ReflTransGen (g.Along c) m w ∧ g.Along c w m := by
  obtain ⟨ns, hcycle, hsub⟩ := h.rotate hm
  have halong : (m :: ns ++ [m]).IsChain (g.Along c) := by
    have hmem : ∀ x ∈ m :: ns ++ [m], x ∈ c := fun x hx => hsub x (by
      rcases List.mem_append.mp hx with hx | hx
      · exact hx
      · rw [List.mem_singleton.mp hx]
        exact List.mem_cons_self)
    exact List.IsChain.imp_of_mem_imp
      (fun x y hx hy he => ⟨hmem x hx, hmem y hy, he⟩) hcycle
  have hwalk : (m :: ns).IsChain (g.Along c) := halong.left_of_append
  refine ⟨(m :: ns).getLast (List.cons_ne_nil _ _), ?_, ?_⟩
  · exact List.relationReflTransGen_of_exists_isChain_cons ns hwalk rfl
  · exact (List.isChain_append.mp halong).2.2 _ (by simp [List.getLast?_eq_some_getLast]) m
      rfl

/-- A walk into a set of nodes from outside has a step into it. -/
theorem exists_step_into
    {r : NodeId → NodeId → Prop}
    {P : NodeId → Prop}
    {a b : NodeId}
    (h : Relation.ReflTransGen r a b)
    (ha : ¬ P a)
    (hb : P b) :
    ∃ x y, r x y ∧ ¬ P x ∧ P y := by
  induction h with
  | refl => exact absurd hb ha
  | @tail x y _ hstep ih =>
      by_cases hx : P x
      · exact ih hx
      · exact ⟨x, y, hstep, hx, hb⟩

/-! ## Cycles of what was explored -/

/-- A cycle that no node of it puts off has an edge that was not checked. -/
theorem IsCycle.unchecked
    {B : Build}
    {Loose : NodeId → Prop}
    {found : List NodeId}
    (hg : Explored B Loose [] .empty g found)
    (h : g.IsCycle c)
    (hunbroken : ∀ p ∈ c, ¬ g.breaksCycles p = true) :
    g.Unchecked B c := by
  have hnew : ∀ n : NodeId, Graph.empty.nodes.size ≤ n.index := fun n => Nat.zero_le _
  -- the node that was appended first
  obtain ⟨m, hm, hfirst⟩ : ∃ m ∈ c, ∀ n ∈ c, m.index ≤ n.index := by
    cases hmin : c.argmin NodeId.index with
    | none =>
        rw [List.argmin_eq_none.mp hmin] at h
        exact h.elim
    | some m =>
        exact ⟨m, List.argmin_mem hmin, fun n hn => List.le_of_mem_argmin hn hmin⟩
  obtain ⟨w, hwalk, hw, -, hback⟩ := h.walk hm
  -- every node of the cycle was appended while it was open
  have hbehind : ∀ {z}, Relation.ReflTransGen (g.Along c) m z → g.Behind m z := by
    intro z hz
    induction hz with
    | refl => exact .refl
    | @tail x y _ hstep ih =>
        by_cases hlt : x.index < y.index
        · exact ih.tail ⟨hlt, hstep.2.2⟩
        · exact hg.interval (hnew m) ih (hfirst y hstep.2.1) (Nat.le_of_not_lt hlt)
  rcases hg.inner (hnew m) hback (hbehind hwalk) with hbypass | ⟨p, hp, hmp, hpw⟩
  · exact ⟨w, hw, m, hm, hback, .inr hbypass⟩
  · have hout : ¬ g.Behind p m := by
      intro hpm
      have heq : p = m := NodeId.eq_of_index (Nat.le_antisymm hpm.le hmp.le)
      exact hunbroken m hm (heq ▸ hp)
    obtain ⟨x, y, ⟨hx, hy, he⟩, hpx, hpy⟩ := exists_step_into hwalk hout hpw
    refine ⟨x, hx, y, hy, he, .inl ⟨p, hp, ?_, hpy, hpx⟩⟩
    rintro rfl
    exact hunbroken p hy hp

/-! ## Reachable graphs -/

theorem Reachable.explored
    {B : Build}
    (h : Reachable B g) :
    ∃ found, Explored B (fun _ => True) [] .empty g found := by
  have hopen : ∀ (g : Graph), ∀ i ∈ ([] : List NodeId), i.index < g.nodes.size :=
    fun _ _ hi => nomatch hi
  have hsame : ∀ {g g' : Graph}, g'.nodes = g.nodes →
      (∀ {i : Nat} {s : Scope}, g.scopes[i]? = some s → g'.scopes[i]? = some s) →
      (∃ found, Explored B (fun _ => True) [] .empty g found) →
      ∃ found, Explored B (fun _ => True) [] .empty g' found := by
    rintro g g' hnodes hscopes ⟨found, hfound⟩
    exact ⟨found, hfound.before_same hnodes hscopes (hopen _)⟩
  have hinv := h.invariant
    (P := fun g => g.Bounded ∧ ∃ found, Explored B (fun _ => True) [] .empty g found)
    ⟨fun _ ha => (nomatch ha), [], .refl⟩ ?_ ?_ ?_
  · exact hinv.2
  · rintro g g' parent spec found inner ⟨hb, hg⟩ hp
    refine ⟨hb.pushScope hp, hsame (pushScope_answers hp).2 ?_ hg⟩
    exact ((Grows.refl g).pushScope hp).scopes
  · rintro g g₁ scope r id ⟨hb, found, hfound⟩ - hd
    have hexplored : Explored B _ [] g g₁ [id] := hd.explored (hopen g) hb
    refine ⟨(hd.bounded (hopen g) hb).1, hsame (g := g₁) rfl (fun hs => hs) ?_⟩
    exact ⟨found ++ [id], (hfound.seq hexplored (hopen _)).imp (fun _ _ _ => trivial)⟩
  · rintro g g₁ ⟨-, hg⟩ - hf
    refine ⟨hf.grows.rollback_bounded, hsame hf.grows.rollback_nodes ?_ hg⟩
    intro i s hs
    rw [hf.grows.rollback_scopes]
    exact hs

/-- In a graph that calls reach, every cycle is put off by one of its nodes exactly if
those that use an unchecked edge are. -/
theorem Reachable.cyclesBroken_iff
    {B : Build}
    (h : Reachable B g) :
    g.CyclesBroken ↔
      ∀ c, g.IsCycle c → g.Unchecked B c → ∃ p ∈ c, g.breaksCycles p = true := by
  obtain ⟨found, hfound⟩ := h.explored
  constructor
  · exact fun hbroken c hc _ => hbroken c hc
  · intro hunchecked c hc
    by_contra hnone
    have hunbroken : ∀ p ∈ c, ¬ g.breaksCycles p = true :=
      fun p hp hb => hnone ⟨p, hp, hb⟩
    exact hnone (hunchecked c hc (hc.unchecked hfound hunbroken))

/-! ## A cycle that is not put off -/

/-- Two classes. -/
def twoClasses : Build where
  registry :=
    { Registry.initial with registered := #[{ name := ⟨"A"⟩ }, { name := ⟨"B"⟩ }] }

/-- The first class takes a function to the second one and then the second one itself,
which takes the first. -/
def crossed : List Declaration :=
  let a : Ty := .of ⟨16⟩
  let b : Ty := .of ⟨17⟩
  [ { name := ⟨"app.a"⟩
      type := a
      parameters := [{ name := "lazyB", type := .function [] b }, { name := "b", type := b }] },
    { name := ⟨"app.b"⟩
      type := b
      parameters := [{ name := "a", type := a }] } ]

/-- The graph after the first class was asked for. -/
def crossedGraph : Graph :=
  ((Graph.empty.withScope twoClasses none { name := "App" } crossed).resolve twoClasses ⟨0⟩
    { type := .of ⟨16⟩, origin := ⟨"app"⟩ }).2

theorem crossedGraph_reachable : Reachable twoClasses crossedGraph :=
  .resolve _ _ (Reachable.empty.withScope _ _ _)

/-- The cycle is exactly as good as its unchecked edges. -/
theorem crossedGraph_cyclesBroken_iff :
    crossedGraph.CyclesBroken ↔
      ∀ c, crossedGraph.IsCycle c → crossedGraph.Unchecked twoClasses c →
        ∃ p ∈ c, crossedGraph.breaksCycles p = true :=
  Reachable.cyclesBroken_iff crossedGraph_reachable

/-- The classes are built from each other without a function in between. -/
theorem crossedGraph_not_cyclesBroken :
    Reachable twoClasses crossedGraph ∧ ¬ crossedGraph.CyclesBroken := by
  refine ⟨crossedGraph_reachable, fun hbroken => ?_⟩
  have hcycle : crossedGraph.IsCycle [⟨0⟩, ⟨2⟩] := by decide +kernel
  have hnone : ¬ ∃ p ∈ [⟨0⟩, ⟨2⟩], crossedGraph.breaksCycles p = true := by decide +kernel
  exact hnone (hbroken _ hcycle)

end Graph
end Wiring
