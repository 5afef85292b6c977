import Wiring.Proofs.Merging.Election

/-!
# Slots of merged plans

An owner keeps the value of a retained node in a slot of that node.  A declaration is
instantiated once for each type that is requested, so two of its nodes may produce the
same type, for a type and one of its supertypes.  Merging is what unifies them, but only
with the elected node of their group.  Two nodes of one type that the elected node's type
does not fit stay apart, and their values are kept in two slots.

**Results.**
* `Graph.Labelled.elected_merged`: the elected node of a group is elected again after
  merging.
* `Graph.Batched.slotsUnique_iff`: a declaration has one slot for each owner and type in a
  merged plan exactly if this holds of the nodes whose type does not generalize that of
  the elected node.
-/

namespace Wiring

/-- Whether two nodes invoke one declaration at one type, and one owner keeps both
values. -/
structure Node.SharesSlot (a b : Node) : Prop where
  invocations : a.kind.isInvocation = true ∧ b.kind.isInvocation = true
  retained : a.retained = true ∧ b.retained = true
  origin : a.origin = b.origin
  owner : a.owner = b.owner
  type : a.type = b.type

instance : DecidableRel Node.SharesSlot := fun a b =>
  decidable_of_iff
    ((a.kind.isInvocation = true ∧ b.kind.isInvocation = true)
      ∧ (a.retained = true ∧ b.retained = true)
      ∧ a.origin = b.origin ∧ a.owner = b.owner ∧ a.type = b.type)
    ⟨fun ⟨h₁, h₂, h₃, h₄, h₅⟩ => ⟨h₁, h₂, h₃, h₄, h₅⟩,
      fun h => ⟨h.invocations, h.retained, h.origin, h.owner, h.type⟩⟩

namespace Plan

/-- Whether there are, among given nodes, no two of one declaration, owner and type whose
values are kept. -/
def SlotsUnique (p : Plan) (among : Node → Prop) : Prop :=
  ∀ ⦃x y : NodeId⦄ ⦃a b : Node⦄, p.node? x = some a → p.node? y = some b →
    among a → among b → a.SharesSlot b → x = y

/-- Whether the type of a node does not generalize that of the elected node of its
group. -/
def PassedOver (p : Plan) (n : Node) : Prop :=
  ∀ group c, StarMerge.group? n = some group →
    StarMerge.Elected p.nodes.toList group c → n.type.generalizes c.type = false

end Plan

namespace Node.SharesSlot

variable {a b : Node}

/-- Nodes that would share a slot are in one group. -/
theorem group?_eq
    (h : a.SharesSlot b) :
    StarMerge.group? a = StarMerge.group? b := by
  refine Option.ext (fun group => ?_)
  rw [StarMerge.group?_eq_some_iff, StarMerge.group?_eq_some_iff]
  simp [h.invocations, h.origin, h.owner]

/-- Nodes that would share a slot are passed over together. -/
theorem passedOver
    {p : Plan}
    (h : a.SharesSlot b)
    (ha : p.PassedOver a) :
    p.PassedOver b := by
  intro group c hb hc
  rw [← h.type]
  exact ha group c (h.group?_eq.trans hb) hc

end Node.SharesSlot

namespace Graph

/-! ## Merged nodes -/

section Merged

variable {g : Graph} {x y : NodeId} {n n' : Node} {group : QName × ScopeId}

/-- A node that still invokes a declaration after merging was not redirected. -/
theorem Fate.kept_of_isInvocation
    (h : g.Fate x n n')
    (hkind : n'.kind.isInvocation = true) :
    ¬ g.Redirected x ∧ ∃ eager, n' = { n with eager := eager } := by
  cases h with
  | kept eager hkept => exact ⟨hkept, eager, rfl⟩
  | redirected => exact nomatch hkind

theorem Labelled.merged
    (h : g.Labelled) :
    g.merged.Labelled := by
  constructor
  · intro id n' hn'
    obtain ⟨n, hn, houtcome⟩ := merged_node?_eq_some hn'
    exact houtcome.id.trans (h.positions hn)
  · intro id n' hn' hkind
    obtain ⟨n, hn, hfate⟩ := h.merged_fate hn'
    obtain ⟨-, eager, rfl⟩ := hfate.kept_of_isInvocation hkind
    have horigin : n.origin.isSome = true := h.origins hn hkind
    exact horigin

/-- A node that the elected one's type fits is that one, unless it is redirected. -/
theorem eq_elected
    {c : Node}
    (hn : g.node? x = some n)
    (hgroup : StarMerge.group? n = some group)
    (hc : StarMerge.Elected g.nodes.toList group c)
    (hgeneralizes : n.type.generalizes c.type = true)
    (hkept : ¬ g.Redirected x) :
    x = c.id := by
  by_contra hne
  exact hkept ⟨c.id, n, c, group, hn, hgroup, hc, rfl, hne, hgeneralizes⟩

/-- The elected node of a group is elected again after merging, and only may have turned
eager. -/
theorem Labelled.elected_merged
    (h : g.Labelled)
    {c : Node}
    (hc : StarMerge.Elected g.nodes.toList group c) :
    ∃ eager, StarMerge.Elected g.merged.nodes.toList group { c with eager := eager } := by
  have hmerged := hc.merged h.distinct
  rw [StarMerge.outcome_elected h.distinct hc] at hmerged
  rw [← StarMerge.toList_mergeStars] at hmerged
  exact ⟨_, hmerged⟩

/-- Two nodes that would share a slot after merging are one, if the elected node's type
fits them. -/
theorem Labelled.eq_of_sharesSlot
    (h : g.Labelled)
    {a b c : Node}
    (ha : g.merged.node? x = some a)
    (hb : g.merged.node? y = some b)
    (hshares : a.SharesSlot b)
    (hgroup : StarMerge.group? a = some group)
    (hc : StarMerge.Elected g.merged.nodes.toList group c)
    (hgeneralizes : a.type.generalizes c.type = true) :
    x = y := by
  obtain ⟨n, hn, hfate⟩ := h.merged_fate ha
  obtain ⟨m, hm, hfate'⟩ := h.merged_fate hb
  obtain ⟨hx, _, rfl⟩ := hfate.kept_of_isInvocation hshares.invocations.1
  obtain ⟨hy, _, rfl⟩ := hfate'.kept_of_isInvocation hshares.invocations.2
  have hngroup : StarMerge.group? n = some group := hgroup
  have hmgroup : StarMerge.group? m = some group := hshares.group?_eq.symm.trans hgroup
  -- the elected node is the one that was elected before merging
  have hold := StarMerge.elected_canonicalOf (mem_nodes hn) hngroup
  generalize StarMerge.canonicalOf n _ = c₀ at hold
  obtain ⟨eager, hnew⟩ := h.elected_merged hold
  obtain rfl := hc.unique h.merged.distinct hnew
  have hngeneralizes : n.type.generalizes c₀.type = true := hgeneralizes
  have hmgeneralizes : m.type.generalizes c₀.type = true := by
    have htype : n.type = m.type := hshares.type
    rwa [← htype]
  have hxc := eq_elected hn hngroup hold hngeneralizes hx
  have hyc := eq_elected hm hmgroup hold hmgeneralizes hy
  exact hxc.trans hyc.symm

end Merged

/-! ## Returned plans -/

/-- Whether a batch, or the entry points of a scope that is there, come to a plan. -/
inductive Returns (B : Build) (g : Graph) (p : Plan) : Prop
  | all (scope : ScopeId) (rs : List Request) :
      (g.resolveAll B scope rs).1 = .ok p →
      Returns B g p
  | entryPoints {scope : ScopeId} {s : Scope} :
      g.scope? scope = some s →
      (g.resolveEntryPoints B scope).1 = .ok p →
      Returns B g p

section Plans

variable {B : Build} {g : Graph} {p : Plan}

theorem Batched.resolveEach
    (h : Batched B g)
    (scope : ScopeId)
    (rs : List Request) :
    Batched B (resolveEach B scope rs g).2 :=
  resolveEach_keeps (fun r hg => .resolve scope r hg) rs h

/-- The plan that a batch comes to is that of the graph after it. -/
theorem resolveAll_ok
    {scope : ScopeId}
    {rs : List Request}
    (hok : (g.resolveAll B scope rs).1 = .ok p) :
    p = (g.resolveAll B scope rs).2.plan := by
  unfold Graph.resolveAll at hok ⊢
  split at hok
  · cases hok
  · cases hok
    rfl

/-- A batch comes to the plan of a graph that requests reach, with its star-projected
nodes merged. -/
theorem Batched.resolveAll_plan
    (h : Batched B g)
    (hmerge : B.options.mergeStars = true)
    {scope : ScopeId}
    {rs : List Request}
    (hok : (g.resolveAll B scope rs).1 = .ok p) :
    ∃ g₁, Batched B g₁ ∧ p = g₁.merged.plan := by
  have hreached := h.resolveEach scope rs
  unfold Graph.resolveAll at hok
  split at hok
  · cases hok
  · rename_i g₁ hrun
    rw [hrun] at hreached
    rw [hmerge] at hok
    cases hok
    exact ⟨g₁, hreached, rfl⟩

theorem Returns.plan
    (h : g.Returns B p)
    (hg : Batched B g)
    (hmerge : B.options.mergeStars = true) :
    ∃ g₁, Batched B g₁ ∧ p = g₁.merged.plan := by
  cases h with
  | all scope rs hok => exact hg.resolveAll_plan hmerge hok
  | entryPoints hs hok =>
      unfold resolveEntryPoints at hok
      rw [hs] at hok
      exact hg.resolveAll_plan hmerge hok

/-- In a merged plan, a declaration has one slot for each owner and type exactly if this
holds of the nodes that were passed over. -/
theorem Batched.slotsUnique_iff
    (h : Batched B g)
    (hmerge : B.options.mergeStars = true)
    (hp : g.Returns B p) :
    p.SlotsUnique (fun _ => True) ↔ p.SlotsUnique p.PassedOver := by
  obtain ⟨g₁, hg₁, rfl⟩ := hp.plan h hmerge
  constructor
  · exact fun hunique x y a b ha hb _ _ => hunique ha hb trivial trivial
  · intro hunique x y a b ha hb _ _ hshares
    by_cases hpassed : g₁.merged.plan.PassedOver a
    · exact hunique ha hb hpassed (hshares.passedOver hpassed) hshares
    · simp only [Plan.PassedOver, not_forall] at hpassed
      obtain ⟨group, c, hgroup, hc, hgeneralizes⟩ := hpassed
      exact hg₁.labelled.eq_of_sharesSlot ha hb hshares hgroup hc (by simpa using hgeneralizes)

end Plans

/-! ## Two slots for one type -/

/-- Two classes, a type parameter, a class of one parameter with a supertype, and a
component. -/
def stores : Build where
  registry :=
    { Registry.initial with
      registered :=
        #[ { name := ⟨"User"⟩ },
          { name := ⟨"Order"⟩ },
          { name := ⟨"T"⟩, flags := [.typeParameter] },
          { name := ⟨"Store"⟩, typeParameters := [⟨18⟩] },
          { name := ⟨"Repo"⟩, typeParameters := [⟨18⟩]
            supertypes := [.generic ⟨19⟩ [.of ⟨18⟩]] },
          { name := ⟨"App"⟩, flags := [.component] } ] }

/-- The component, which keeps a repository of any type. -/
def storesGraph : Graph :=
  Graph.empty.withScope stores none { name := "App", component := some (.of ⟨21⟩) }
    [ { name := ⟨"app.repo"⟩
        type := .generic ⟨20⟩ [.of ⟨18⟩]
        typeParameters := [⟨18⟩]
        component := some (.of ⟨21⟩) } ]

/-- A repository of users, one of orders, and a store of orders. -/
def storesRequests : List Request :=
  [ { type := .generic ⟨20⟩ [.of ⟨16⟩], origin := ⟨"app"⟩ },
    { type := .generic ⟨20⟩ [.of ⟨17⟩], origin := ⟨"app"⟩ },
    { type := .generic ⟨19⟩ [.of ⟨17⟩], origin := ⟨"app"⟩ } ]

/-- The plan that the requests come to. -/
def storesPlan : Plan :=
  (storesGraph.resolveAll stores ⟨0⟩ storesRequests).2.plan

theorem storesGraph_batched : Batched stores storesGraph :=
  Batched.empty.withScope _ _ _

theorem storesPlan_returned : storesGraph.Returns stores storesPlan := by
  have hisOk : (storesGraph.resolveAll stores ⟨0⟩ storesRequests).1.isOk = true := by
    decide +kernel
  cases hok : (storesGraph.resolveAll stores ⟨0⟩ storesRequests).1 with
  | error e =>
      rw [hok] at hisOk
      exact nomatch hisOk
  | ok p =>
      rw [storesPlan, ← resolveAll_ok hok]
      exact .all ⟨0⟩ storesRequests hok

theorem storesPlan_slotsUnique_iff :
    storesGraph.Returns stores storesPlan
      ∧ (storesPlan.SlotsUnique (fun _ => True)
        ↔ storesPlan.SlotsUnique storesPlan.PassedOver) :=
  ⟨storesPlan_returned,
    Batched.slotsUnique_iff storesGraph_batched rfl storesPlan_returned⟩

/-- The repository of orders is kept in two slots. -/
theorem storesPlan_not_slotsUnique :
    Batched stores storesGraph ∧ storesGraph.Returns stores storesPlan
      ∧ ¬ storesPlan.SlotsUnique (fun _ => True) := by
  refine ⟨storesGraph_batched, storesPlan_returned, fun hunique => ?_⟩
  have hshares : (storesPlan.node? ⟨1⟩).any (fun a =>
      (storesPlan.node? ⟨2⟩).any (fun b => decide (a.SharesSlot b))) = true := by
    decide +kernel
  obtain ⟨a, ha, hshares⟩ := (Option.any_eq_true _ _).mp hshares
  obtain ⟨b, hb, hshares⟩ := (Option.any_eq_true _ _).mp hshares
  have heq : (⟨1⟩ : NodeId) = ⟨2⟩ :=
    hunique ha hb trivial trivial (of_decide_eq_true hshares)
  exact absurd heq (by decide)

end Graph
end Wiring
