import Wiring.Proofs.Batched
import Wiring.Proofs.Typing.Answer

/-!
# Types of delegates

A node becomes a delegate if its type generalizes that of the elected node of its group.
That compares two types position by position, up to the star projections of the more
general one.  It does not look at the star marks of the other one.  So the top type as an
argument counts as equal to a star projection, although nothing is known to be assignable
from there.

**Results.**
* `Registry.assignableWithin_of_generalizes`: a type is assignable to one that generalizes
  it exactly if the latter overlooks no star projection.
* `Graph.Batched.delegatesFit_iff`: after merging, the targets of delegates have types that
  fit exactly if no delegate overlooks a star projection of its target.
-/

namespace Wiring

/-! ## Generalization and assignability -/

namespace Ty

mutual

/-- Whether a star projection of the second type is in the place of something else of the
first one. -/
def overlooks : Ty → Ty → Bool
  | ⟨_, arguments, _, _, s⟩, ⟨_, arguments', _, _, s'⟩ =>
      !s && (s' || overlooksAny arguments arguments')

/-- Whether `overlooks` holds at some position of two lists. -/
def overlooksAny : List Ty → List Ty → Bool
  | g :: gs, t :: ts => overlooks g t || overlooksAny gs ts
  | _, _ => false

end

end Ty

namespace Registry

theorem allPairs_cons
    (test : Ty → Ty → Bool)
    (s t : Ty)
    (ss ts : List Ty) :
    allPairs test (s :: ss) (t :: ts) = (test s t && allPairs test ss ts) := by
  simp only [allPairs, List.length_cons, List.zip_cons_cons, List.all_cons]
  cases test s t <;> simp

/-- What is said of types one by one is said of two lists, position by position. -/
theorem allPairs_of_generalizesAll
    {test : Ty → Ty → Bool}
    {levels : Nat}
    (htest : ∀ {g t : Ty}, g.generalizes t = true → g.nesting ≤ levels →
      test t g = !g.overlooks t)
    {gs ts : List Ty}
    (h : Ty.generalizesAll gs ts = true)
    (hnesting : Ty.nestingAll gs ≤ levels) :
    allPairs test ts gs = !Ty.overlooksAny gs ts := by
  induction gs generalizing ts with
  | nil =>
      cases ts with
      | nil => rfl
      | cons t ts => cases h
  | cons g gs ih =>
      cases ts with
      | nil => cases h
      | cons t ts =>
          simp only [Ty.generalizesAll, Bool.and_eq_true] at h
          simp only [Ty.nestingAll, Nat.max_le] at hnesting
          rw [allPairs_cons, htest h.1 hnesting.1, ih h.2 hnesting.2, Ty.overlooksAny,
            Bool.not_or]

/-- A type is assignable to one that generalizes it exactly if that one overlooks none of
its star projections. -/
theorem assignableWithin_of_generalizes
    (R : Registry)
    {levels : Nat}
    {general specific : Ty}
    (h : general.generalizes specific = true)
    (hnesting : general.nesting ≤ levels) :
    R.assignableWithin levels specific general = !general.overlooks specific := by
  induction levels generalizing general specific with
  | zero =>
      have hpos := general.nesting_pos
      omega
  | succ levels ih =>
      obtain ⟨c, arguments, q, n, s⟩ := general
      obtain ⟨c', arguments', q', n', s'⟩ := specific
      cases s with
      | true => simp [assignableWithin, Ty.overlooks]
      | false =>
          simp only [Ty.generalizes, Bool.false_or, Bool.and_eq_true, decide_eq_true_eq] at h
          obtain ⟨⟨⟨rfl, rfl⟩, rfl⟩, hall⟩ := h
          cases s' with
          | true => simp [assignableWithin, Ty.overlooks]
          | false =>
              have hlevels : Ty.nestingAll arguments ≤ levels := by
                simpa [Ty.nesting] using hnesting
              have harguments := allPairs_of_generalizesAll ih hall hlevels
              simp [assignableWithin, Ty.overlooks, harguments]

end Registry

/-! ## Delegates -/

namespace StarMerge

/-- Merging changes no type. -/
theorem Outcome.type_eq
    {nodes : List Node}
    {n n' : Node}
    (h : Outcome nodes n n') :
    n'.type = n.type := by
  cases h with
  | kept | canonical | delegate => rfl

/-- A delegate was one before, or becomes one to a node whose type its own type
generalizes. -/
theorem delegate_of_outcome
    {nodes : List Node}
    {n : Node}
    {target : NodeId}
    (h : (outcome nodes n).kind = .delegate target) :
    n.kind = .delegate target
      ∨ ∃ c ∈ nodes, c.id = target ∧ n.type.generalizes c.type = true := by
  unfold outcome at h
  cases hgroup : group? n with
  | none =>
      rw [hgroup] at h
      exact .inl h
  | some group =>
      simp only [hgroup] at h
      split at h
      · exact .inl h
      · split at h
        · rename_i hne hdelegates
          rcases canonicalOf_mem n (nodes.filter (fun m => group? m = some group)) with
            hself | hmem
          · exact absurd (congrArg Node.id hself.symm) hne
          · simp only [delegates, Bool.and_eq_true] at hdelegates
            refine .inr ⟨_, (List.mem_filter.mp hmem).1, ?_, hdelegates.2⟩
            cases h
            rfl
        · exact .inl h

end StarMerge

namespace Graph

/-- Whether every node knows its position, and the type of every delegate generalizes that
of its target. -/
structure Delegating (g : Graph) : Prop where
  positions : g.Every (fun id n => n.id = id)
  targets : g.Every (fun _ n => ∀ target, n.kind = .delegate target →
    ∃ c, g.node? target = some c ∧ n.type.generalizes c.type = true)

theorem Delegating.of_nodes_eq
    {g g' : Graph}
    (h : g.Delegating)
    (hnodes : g'.nodes = g.nodes) :
    g'.Delegating := by
  refine ⟨h.positions.of_nodes_eq hnodes, ?_⟩
  have htargets := h.targets.of_nodes_eq hnodes
  simp only [Graph.node?_congr hnodes]
  exact htargets

/-- A finished part of a search makes no delegates: they are nodes from before. -/
theorem node?_of_delegate
    {B : Build}
    {stack : List NodeId}
    {scope : ScopeId}
    {r : Request}
    {id delegate target : NodeId}
    {n : Node}
    {g g₁ : Graph}
    (hd : Derives B stack g (.request scope r id) g₁)
    (hn : g₁.node? delegate = some n)
    (hkind : n.kind = .delegate target) :
    g.node? delegate = some n := by
  have hold := hd.every
    (Q := fun id n => n.kind.isDelegate = true → id.index < g.nodes.size) ?_
    (fun _ hn => hn) (fun _ hn => hn) (fun _ hn => hn) trivial ?_ hn (by rw [hkind]; rfl)
  · rwa [hd.grows.node?_eq hold] at hn
  · intro id n hnew
    cases hnew with
    | null | missing | declaration => exact fun hkind => nomatch hkind
    | candidate hblueprint =>
        cases hblueprint with
        | input | object | self | funAlias | set | map | provider | childComponent =>
            exact fun hkind => nomatch hkind
  · exact fun id n hn _ => Graph.lt_size_of_node? hn

theorem Delegating.answered
    {B : Build}
    {stack : List NodeId}
    {scope : ScopeId}
    {r : Request}
    {id : NodeId}
    {g g₁ : Graph}
    (h : g.Delegating)
    (hd : Derives B stack g (.request scope r id) g₁) :
    g₁.Delegating := by
  constructor
  · exact hd.every (Q := fun id n => n.id = id) (fun _ _ _ => rfl) (fun _ hn => hn)
      (fun _ hn => hn) (fun _ hn => hn) trivial h.positions
  · intro id' n hn target hkind
    obtain ⟨c, hc, hgeneralizes⟩ := h.targets (node?_of_delegate hd hn hkind) target hkind
    exact ⟨c, hd.grows.node? hc, hgeneralizes⟩

theorem Delegating.merged
    {g : Graph}
    (h : g.Delegating) :
    g.merged.Delegating := by
  have hkept : ∀ {id : NodeId} {c : Node}, g.node? id = some c →
      ∃ c', g.merged.node? id = some c' ∧ c'.type = c.type := by
    intro id c hc
    refine ⟨StarMerge.outcome g.nodes.toList c, ?_,
      (StarMerge.outcome_cases g.nodes.toList c).type_eq⟩
    rw [merged_node?, hc]
    rfl
  constructor
  · intro id n' hn'
    obtain ⟨n, hn, houtcome⟩ := merged_node?_eq_some hn'
    exact houtcome.id.trans (h.positions hn)
  · intro id n' hn' target hkind
    rw [merged_node?] at hn'
    obtain ⟨n, hn, rfl⟩ := Option.map_eq_some_iff.mp hn'
    have htype := (StarMerge.outcome_cases g.nodes.toList n).type_eq
    have hbefore : ∃ c, g.node? target = some c ∧ n.type.generalizes c.type = true := by
      rcases StarMerge.delegate_of_outcome hkind with hold | ⟨c, hc, rfl, hgeneralizes⟩
      · exact h.targets hn target hold
      · exact ⟨c, node?_of_mem (fun hn => h.positions hn) hc, hgeneralizes⟩
    obtain ⟨c, hc, hgeneralizes⟩ := hbefore
    obtain ⟨c', hc', htype'⟩ := hkept hc
    exact ⟨c', hc', by rw [htype, htype']; exact hgeneralizes⟩

/-- In every graph that calls and batches reach, the types of delegates generalize those of
their targets. -/
theorem Batched.delegating
    {B : Build}
    {g : Graph}
    (h : Batched B g) :
    g.Delegating := by
  refine Invariant.holds (B := B) (P := Graph.Delegating)
    { empty := ⟨(fun _ _ hn => nomatch hn), (fun _ _ hn => nomatch hn)⟩
      pushed := fun hg _ hp => hg.of_nodes_eq (pushScope_answers hp).2
      answered := fun hg _ hd => (hg.answered hd).of_nodes_eq rfl
      refused := fun hg _ hf => hg.of_nodes_eq hf.grows.rollback_nodes
      merged := fun hg => hg.merged } h

/-- Whether the targets of delegates have types that are assignable to the delegates' own,
as far as these are not nested too deeply to be compared. -/
def DelegatesFit (B : Build) (g : Graph) : Prop :=
  ∀ {id target : NodeId} {n : Node}, g.node? id = some n → n.kind = .delegate target →
    n.type.nesting ≤ Limits.relationDepth + 1 →
    ∃ c, g.node? target = some c ∧ B.registry.isAssignable c.type n.type = true

/-- After merging, the targets of delegates have types that fit exactly if none of the
delegates overlooks a star projection of its target. -/
theorem Batched.delegatesFit_iff
    {B : Build}
    {g : Graph}
    (h : Batched B g) :
    g.merged.DelegatesFit B ↔
      ∀ {id target : NodeId} {n c : Node}, g.merged.node? id = some n →
        n.kind = .delegate target → n.type.nesting ≤ Limits.relationDepth + 1 →
        g.merged.node? target = some c → n.type.overlooks c.type = false := by
  have hassignable : ∀ {n c : Node}, n.type.generalizes c.type = true →
      n.type.nesting ≤ Limits.relationDepth + 1 →
      B.registry.isAssignable c.type n.type = !n.type.overlooks c.type :=
    fun hgeneralizes hnesting =>
      B.registry.assignableWithin_of_generalizes hgeneralizes hnesting
  constructor
  · intro hfit id target n c hn hkind hnesting hc
    obtain ⟨c', hc', hassigned⟩ := hfit hn hkind hnesting
    obtain ⟨c'', hc'', hgeneralizes⟩ := h.delegating.merged.targets hn target hkind
    cases hc.symm.trans hc'
    cases hc.symm.trans hc''
    simpa [hassignable hgeneralizes hnesting] using hassigned
  · intro hnone id target n hn hkind hnesting
    obtain ⟨c, hc, hgeneralizes⟩ := h.delegating.merged.targets hn target hkind
    refine ⟨c, hc, ?_⟩
    rw [hassignable hgeneralizes hnesting, hnone hn hkind hnesting hc]
    rfl

/-! ## A delegate that does not fit -/

/-- A class `C` with two type parameters. -/
def pairs : Build where
  registry :=
    { Registry.initial with
      registered :=
        #[ { name := ⟨"T"⟩, flags := [.typeParameter] },
          { name := ⟨"U"⟩, flags := [.typeParameter] },
          { name := ⟨"C"⟩, typeParameters := [⟨16⟩, ⟨17⟩] } ] }

/-- A declaration of `C` for any two arguments. -/
def pairDeclarations : List Declaration :=
  [ { name := ⟨"app.c"⟩
      type := .generic ⟨18⟩ [.of ⟨16⟩, .of ⟨17⟩]
      typeParameters := [⟨16⟩, ⟨17⟩] } ]

/-- The graph after `C` was asked for with the top type as the second argument, and then
as the first one. -/
def pairGraph : Graph :=
  (((Graph.empty.withScope pairs none { name := "App" } pairDeclarations).resolve pairs ⟨0⟩
    { type := .generic ⟨18⟩ [.starProjection, .of .any], origin := ⟨"app"⟩ }).2.resolve
      pairs ⟨0⟩
      { type := .generic ⟨18⟩ [.of .any, .starProjection], origin := ⟨"app"⟩ }).2

theorem pairGraph_batched : Batched pairs pairGraph :=
  .resolve _ _ (.resolve _ _ (Batched.empty.withScope _ _ _))

theorem pairGraph_delegatesFit_iff :
    pairGraph.merged.DelegatesFit pairs ↔
      ∀ {id target : NodeId} {n c : Node}, pairGraph.merged.node? id = some n →
        n.kind = .delegate target → n.type.nesting ≤ Limits.relationDepth + 1 →
        pairGraph.merged.node? target = some c → n.type.overlooks c.type = false :=
  Batched.delegatesFit_iff pairGraph_batched

/-- The second node is redirected to the first, whose first argument is not known. -/
theorem pairGraph_not_delegatesFit :
    Batched pairs pairGraph ∧ ¬ pairGraph.merged.DelegatesFit pairs := by
  refine ⟨pairGraph_batched, fun hfit => ?_⟩
  have htarget : (pairGraph.merged.node? ⟨0⟩).any (fun c => decide
      (c.type = .generic ⟨18⟩ [.starProjection, .of .any])) = true := by
    decide +kernel
  have hnode : (pairGraph.merged.node? ⟨1⟩).any (fun n => decide
      (n.kind = .delegate ⟨0⟩
        ∧ n.type = .generic ⟨18⟩ [.of .any, .starProjection])) = true := by
    decide +kernel
  obtain ⟨c, hc, hctype⟩ := (Option.any_eq_true _ _).mp htarget
  obtain ⟨n, hn, hfacts⟩ := (Option.any_eq_true _ _).mp hnode
  obtain ⟨hkind, hntype⟩ := of_decide_eq_true hfacts
  obtain ⟨c', hc', hassignable⟩ := hfit hn hkind (by rw [hntype]; decide)
  cases hc.symm.trans hc'
  rw [of_decide_eq_true hctype, hntype] at hassignable
  exact absurd hassignable (by decide +kernel)

end Graph
end Wiring
