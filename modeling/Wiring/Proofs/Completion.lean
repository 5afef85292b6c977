import Wiring.Proofs.Batched

/-!
# Completed nodes

A node is appended without answers to its dependencies, and gets all of them at once
when the last one is resolved; an interceptor is attached with its answers.  The nodes
that are open in a search are the only ones that wait for their answers, and a failing
search is cut back to the nodes from before.  So between calls no node waits.

**Results.**
* `Derives.complete`: a finished part of a search completes every node that it appends.
* `Graph.Batched.complete`: between calls, every node and every interceptor has one answer
  for each dependency.
-/

namespace Wiring

/-- Whether a node and its interceptors have one answer for each dependency. -/
structure Node.IsComplete (n : Node) : Prop where
  dependencies : n.resolved.length = n.dependencies.length
  interceptors : ∀ ic ∈ n.interceptors, ic.resolved.length = ic.dependencies.length

/-- Whether the answers of a finished part of a search are as many as was asked for. -/
def Judgement.IsComplete : Judgement → Prop
  | .demands _ asked ids => ids.length = asked.length
  | .interceptors _ _ _ _ attached =>
      ∀ ic ∈ attached, ic.resolved.length = ic.dependencies.length
  | _ => True

/-- A new node with answers to what it plans to ask for. -/
theorem Node.Plans.complete
    {n : Node}
    {evaluated : ScopeId}
    {demands : List Demand}
    (h : n.Plans evaluated demands)
    {ids : List NodeId}
    (hids : ids.length = demands.length)
    (id : NodeId) :
    Node.IsComplete { n with id := id, resolved := ids } := by
  constructor
  · simp [h.dependencies, hids]
  · simp [h.interceptors]

/-- A finished part of a search completes every node that it appends; those that were
open before may still be. -/
theorem Derives.complete
    {B : Build}
    {stack : List NodeId}
    {J : Judgement}
    {g g' : Graph}
    (h : Derives B stack g J g')
    {waits : NodeId → Prop}
    (hg : g.Every (fun id n => waits id ∨ n.IsComplete)) :
    g'.Every (fun id n => waits id ∨ n.IsComplete) ∧ J.IsComplete := by
  induction h generalizing waits with
  | found _ ih => exact ⟨(ih hg).1, trivial⟩
  | null habsent _ _ ih =>
      obtain ⟨m, -, rfl⟩ := habsent.withMemo
      exact ⟨(ih hg).1, trivial⟩
  | missing habsent _ _ _ ih =>
      obtain ⟨m, -, rfl⟩ := habsent.withMemo
      exact ⟨(ih hg).1, trivial⟩
  | recalled => exact ⟨hg, trivial⟩
  | chosen _ _ _ hoffers _ _ ih =>
      obtain ⟨m, -, rfl⟩ := hoffers.withMemo
      exact ⟨(ih hg).1, trivial⟩
  | inherited _ _ hoffers _ _ ih =>
      obtain ⟨m, -, rfl⟩ := hoffers.withMemo
      exact ⟨(ih hg).1, trivial⟩
  | declaration _ _ ih => exact ⟨(ih hg).1, trivial⟩
  | keptInput => exact ⟨hg, trivial⟩
  | aliasAgain => exact ⟨hg, trivial⟩
  | built _ hblueprint _ ih =>
      exact ⟨(ih (hg.of_nodes_eq hblueprint.nodes_eq)).1, trivial⟩
  | again => exact ⟨hg, trivial⟩
  | relocated => exact ⟨hg, trivial⟩
  | @fresh stack scope owner declaredIn key e declared assisted n entries attached m id g
      g₁ g' _ _ _ _ _ _ _ ihnode ih =>
      have hnarrowed := (ihnode hg).1.narrowAt
        (fun _ hn => hn.imp_right (fun hn => ⟨hn.dependencies, hn.interceptors⟩))
        B id declared assisted
      obtain ⟨hkept, hattached⟩ := ih hnarrowed
      refine ⟨hkept.change id (fun n hn => ?_), trivial⟩
      exact hn.imp_right (fun hn => ⟨hn.dependencies, hattached⟩)
  | @node stack n key scope evaluated demands ids g g' hplans hd ih =>
      -- meanwhile the new node waits as well
      have hbegin : (g.begin n key scope).Every
          (fun id n => (waits id ∨ id = g.nextId) ∨ n.IsComplete) := by
        intro id n' hn'
        rcases Graph.begin_node?_eq_some hn' with hold | ⟨hid, -⟩
        · exact (hg hold).imp_left .inl
        · exact .inl (.inr hid)
      obtain ⟨hkept, hids⟩ := ih hbegin
      refine ⟨fun id n' hn' => ?_, trivial⟩
      by_cases heq : g.nextId = id
      · subst heq
        have hnew := hd.grows.node? (g.begin_node?_self n key scope)
        rw [Graph.change_node? hnew] at hn'
        cases hn'
        exact .inr (hplans.complete hids _)
      · rw [Graph.change_node?_of_ne heq] at hn'
        rcases hkept hn' with (hwaits | hid) | hn'
        · exact .inl hwaits
        · exact absurd hid.symm heq
        · exact .inr hn'
  | noDemands => exact ⟨hg, rfl⟩
  | requestDemand _ _ ih ihs =>
      obtain ⟨hkept, hids⟩ := ihs (ih hg).1
      exact ⟨hkept, congrArg (· + 1) hids⟩
  | entryDemand _ _ ih ihs =>
      obtain ⟨hkept, hids⟩ := ihs (ih hg).1
      exact ⟨hkept, congrArg (· + 1) hids⟩
  | noInterceptors => exact ⟨hg, fun _ hic => nomatch hic⟩
  | interceptor _ _ ih ihs =>
      obtain ⟨hkept, hids⟩ := ih hg
      obtain ⟨hkept', hattached⟩ := ihs hkept
      refine ⟨hkept', fun ic hic => ?_⟩
      rcases List.mem_cons.mp hic with rfl | hic
      · simpa [Judgement.IsComplete, Interceptor.ofEntry] using hids
      · exact hattached ic hic

namespace StarMerge

/-- A delegate asks for its target. -/
theorem Outcome.complete
    {nodes : List Node}
    {n n' : Node}
    (h : Outcome nodes n n')
    (hn : n.IsComplete) :
    n'.IsComplete := by
  cases h with
  | kept => exact hn
  | canonical => exact ⟨hn.dependencies, hn.interceptors⟩
  | delegate => exact ⟨rfl, fun _ hic => nomatch hic⟩

end StarMerge

namespace Graph

/-- Between calls, no node waits for answers. -/
theorem Batched.complete
    {B : Build}
    {g : Graph}
    (h : Batched B g) :
    g.Every (fun _ n => n.IsComplete) := by
  refine Invariant.holds (B := B) (P := fun g => g.Every (fun _ n => n.IsComplete))
    { empty := fun id n hn => nomatch hn
      pushed := fun hg _ hp => hg.of_nodes_eq (pushScope_answers hp).2
      answered := fun {g} _ _ _ _ hg _ hd id n hn => ?_
      refused := fun hg _ hf => hg.of_nodes_eq hf.grows.rollback_nodes
      merged := fun hg id n' hn' => ?_ } h
  · have hopen : g.Every (fun _ n => False ∨ n.IsComplete) := fun _ _ hold => .inr (hg hold)
    exact ((hd.complete hopen).1 hn).resolve_left not_false
  · obtain ⟨n, hn, houtcome⟩ := merged_node?_eq_some hn'
    exact houtcome.complete (hg hn)

end Graph
end Wiring
