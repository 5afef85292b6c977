import Wiring.Proofs.Ownership.Merge
import Wiring.Proofs.Ownership.Search
import Wiring.Proofs.Reachable

/-!
# Owners in plans

Whoever builds a value looks for the instance of its owner among the instances of the
scope that needs the value and of its ancestors.  So a node has to be owned by the scope
in which it is asked for, or by one of its ancestors.

Searches keep to this but for one case: a declaration that is being built already is
recognized by its name and type, and taken whoever owns it.  The node then lies on a
cycle.

**Results.**
* `Graph.Planned.owned_iff`: in every plan all owners are above the scopes that ask for
  them exactly if this is so for the nodes that lay on a cycle.
-/

namespace Wiring

/-! ## Failing searches -/

/-- What a part of a search met is as new as its open nodes. -/
theorem Graph.Met.le
    {g g' : Graph}
    {stack results : List NodeId}
    {d : NodeId}
    {base : Nat}
    (hbase : base ≤ g.nodes.size)
    (hstack : ∀ i ∈ stack, base ≤ i.index)
    (h : g.Met g' stack results d) :
    base ≤ d.index := by
  rcases h with ⟨hmem, -⟩ | ⟨hd, -⟩
  · exact hstack d hmem
  · exact Nat.le_trans hbase hd

/-- A failing search keeps owners, except for new nodes. -/
theorem Fails.owned
    {B : Build}
    {stack : List NodeId}
    {g g' : Graph}
    (h : Fails B stack g g')
    {base : Nat}
    (hbase : base ≤ g.nodes.size)
    (hstack : ∀ i ∈ stack, i.index < g.nodes.size)
    (hopen : ∀ i ∈ stack, base ≤ i.index)
    (hbounded : g.Bounded)
    {met : NodeId → Prop}
    (hnew : ∀ d : NodeId, base ≤ d.index → met d)
    (hg : g.OwnedExcept met) :
    g'.OwnedExcept met := by
  induction h with
  | here => exact hg
  | merged _ _ ih => exact ih hbase hstack hopen hbounded (hg.withMemo _)
  | @entered stack s spec found inner g g₁ g' _ hp _ ih =>
      have hnodes := (Graph.pushScope_answers hp).2
      exact ih (by rw [hnodes]; exact hbase) (by rw [hnodes]; exact hstack) hopen
        (hbounded.pushScope hp) (hg.pushScope hp)
  | after hd _ ih =>
      have hsize := hd.grows.size_nodes
      obtain ⟨howned, -⟩ := hd.owned hstack hbounded hg trivial
      refine ih (Nat.le_trans hbase hsize)
        (stack_grows hstack hd.grows) hopen
        (hd.bounded hstack hbounded).1 (howned.imp ?_)
      rintro d (hmet | hmet)
      · exact hmet
      · exact hnew d (hmet.le hbase hopen)
  | @inside stack n key scope evaluated demands g g' hplans _ ih =>
      have hgrows := (Graph.Grows.refl g).begin n key scope
      exact ih (Nat.le_trans hbase hgrows.size_nodes) (stack_push hstack n key scope)
        (List.forall_mem_append.mpr ⟨hopen, List.forall_mem_singleton.mpr hbase⟩)
        (hbounded.begin n key scope)
        (hg.begin hplans.resolved hplans.interceptors (.inl (hnew g.nextId hbase)) key)
  | @attaching stack n key scope evaluated demands id m declared assisted g g₁ g' hd _ _ ih =>
      have hid := hd.node_eq
      subst hid
      obtain ⟨howned, -⟩ := hd.owned hstack hbounded hg (.inl (hnew g.nextId hbase))
      obtain ⟨hstack₁, hbounded₁⟩ := hd.reopened hstack hbounded declared assisted
      have howned₁ : g₁.OwnedExcept met := howned.imp (fun d hmet =>
        hmet.elim (fun hmet => hmet) (fun hmet => hnew d (hmet.le hbase hopen)))
      have hbase₁ : base ≤ (g₁.narrowAt B g.nextId declared assisted).nodes.size := by
        rw [Graph.narrowAt_size]
        exact Nat.le_trans hbase hd.grows.size_nodes
      exact ih hbase₁ hstack₁
        (List.forall_mem_append.mpr ⟨hopen, List.forall_mem_singleton.mpr hbase⟩) hbounded₁
        ((howned₁.narrowAt B g.nextId declared assisted).withMemo m)

namespace Graph

/-- After a failing search is cut back, owners are as before. -/
theorem OwnedExcept.rollback
    {B : Build}
    {g g₁ : Graph}
    (hf : Fails B [] g g₁)
    (hrooted : g.Rooted)
    (hbounded : g.Bounded)
    {met : NodeId → Prop}
    (h : g.OwnedExcept met) :
    (g₁.rollback g.nodes.size g.scopes.size).OwnedExcept met := by
  have hscopes := hf.grows.rollback_scopes
  have hnode := Graph.node?_congr hf.grows.rollback_nodes
  have hholds : ∀ {scope : ScopeId} {id : NodeId}, g.Holds scope id →
      (g₁.rollback g.nodes.size g.scopes.size).Holds scope id := by
    rintro scope id ⟨n, hn, habove⟩
    exact ⟨n, (hnode id).trans hn, habove.of_scopes_eq hscopes⟩
  -- new nodes are cut off, so they may be excepted until then
  have howned : g₁.OwnedExcept (fun d => met d ∨ g.nodes.size ≤ d.index) :=
    hf.owned (Nat.le_refl _) (fun _ hi => nomatch hi) (fun _ hi => nomatch hi) hbounded
      (fun _ hd => .inr hd) (h.imp (fun _ => .inl))
  refine
    { tree := h.tree.of_scopes_eq hscopes
      positions := fun hn => h.positions ((hnode _).symm.trans hn)
      answers := fun {scope t id} ha => ?_
      resolved := fun hn hd => (h.resolved ((hnode _).symm.trans hn) hd).imp_right hholds
      interceptors := fun hn hi hd =>
        (h.interceptors ((hnode _).symm.trans hn) hi hd).imp_right hholds }
  obtain ⟨ha, hid, hscope⟩ := Answers.mem_restrict.mp ha
  rcases howned.answers ha with (hmet | hge) | ⟨n, hn, habove⟩
  · exact .inl hmet
  · exact absurd hid (Nat.not_lt.mpr hge)
  · rw [hf.grows.node?_eq hid] at hn
    exact .inr (hholds ⟨n, hn, habove.of_grows hf.grows hrooted hscope⟩)

/-- A top-level request leaves the edges that were there. -/
theorem Edge.resolve
    {B : Build}
    {g : Graph}
    (hg : g.Numbered)
    {n d : NodeId}
    (h : g.Edge n d)
    (scope : ScopeId)
    (r : Request) :
    (g.resolve B scope r).2.Edge n d := by
  cases hrun : g.resolve B scope r with
  | mk outcome g' =>
      cases outcome with
      | ok id =>
          obtain ⟨g₁, hd, rfl⟩ := resolve_ok hg hrun
          exact h.grows hd.grows
      | error e =>
          obtain ⟨g₁, hf, rfl⟩ := resolve_error hg hrun
          obtain ⟨node, hnode, hd⟩ := h
          refine ⟨node, ?_, hd⟩
          change (g₁.rollback _ _).nodes[_]? = some node
          rw [hf.grows.rollback_nodes]
          exact hnode

/-! ## Plans -/

/-- The graphs that calls reach below scopes that are there, with the nodes that lay on
a cycle before nodes were merged. -/
inductive Planned (B : Build) : Graph → (NodeId → Prop) → Prop
  | empty : Planned B .empty (fun _ => False)
  | scope {g g' : Graph} {cyclic : NodeId → Prop} {parent : Option ScopeId}
      {spec : ScopeSpec} {declarations : List Declaration} {id : ScopeId} :
      Planned B g cyclic →
      (∀ p, parent = some p → p.index < g.scopes.size) →
      g.addScope B parent spec declarations = .ok (id, g') →
      Planned B g' cyclic
  | component {g g' : Graph} {cyclic : NodeId → Prop} {parent : Option ScopeId}
      {type : Ty} {id : ScopeId} :
      Planned B g cyclic →
      (∀ p, parent = some p → p.index < g.scopes.size) →
      g.addComponent B parent type = .ok (id, g') →
      Planned B g' cyclic
  | resolve {g : Graph} {cyclic : NodeId → Prop} (scope : ScopeId) (r : Request) :
      Planned B g cyclic →
      Planned B (g.resolve B scope r).2
        (fun d => cyclic d ∨ (g.resolve B scope r).2.OnCycle d)
  | all {g : Graph} {cyclic : NodeId → Prop} (scope : ScopeId) (rs : List Request) :
      Planned B g cyclic →
      Planned B (g.resolveAll B scope rs).2
        (fun d => cyclic d ∨ (resolveEach B scope rs g).2.OnCycle d)
  | entryPoints {g : Graph} {cyclic : NodeId → Prop} {scope : ScopeId} {s : Scope} :
      Planned B g cyclic →
      g.scope? scope = some s →
      Planned B (g.resolveEntryPoints B scope).2
        (fun d => cyclic d ∨ (resolveEach B scope
          (s.entryPoints.map (fun t => { type := t, origin := ⟨s.name⟩ })) g).2.OnCycle d)

theorem Planned.withScope
    {B : Build}
    {g : Graph}
    {cyclic : NodeId → Prop}
    (h : Planned B g cyclic)
    {parent : Option ScopeId}
    (hparent : ∀ p, parent = some p → p.index < g.scopes.size)
    (spec : ScopeSpec)
    (declarations : List Declaration) :
    Planned B (g.withScope B parent spec declarations) cyclic := by
  unfold Graph.withScope
  split
  · rename_i hadd
    exact h.scope hparent hadd
  · exact h

/-- Whether those of given nodes that answer a dependency or a top-level request are
owned by the scope that asks or by one of its ancestors. -/
structure Owned (g : Graph) (among : NodeId → Prop) : Prop where
  resolved {id d : NodeId} {n : Node} :
    g.node? id = some n → d ∈ n.resolved → among d → g.Holds n.evaluated d
  interceptors {id d : NodeId} {n : Node} {i : Interceptor} :
    g.node? id = some n → i ∈ n.interceptors → d ∈ i.resolved → among d →
    g.Holds n.owner d
  roots {root : Root} : root ∈ g.roots → among root.node → g.Holds root.scope root.node

/-- What calls keep. -/
structure Kept (g : Graph) (cyclic : NodeId → Prop) : Prop where
  rooted : g.Rooted
  bounded : g.Bounded
  owned : g.OwnedExcept cyclic
  roots {root : Root} :
    root ∈ g.roots → cyclic root.node ∨ g.Holds root.scope root.node

namespace Kept

variable {B : Build} {g g' : Graph} {cyclic : NodeId → Prop}

theorem pushScope
    (h : g.Kept cyclic)
    {parent : Option ScopeId}
    {spec : ScopeSpec}
    {found : Contributions}
    {inner : ScopeId}
    (hp : g.pushScope B parent spec found = .ok (inner, g'))
    (hparent : ∀ p, parent = some p → p.index < g.scopes.size) :
    g'.Kept cyclic := by
  have hgrows := (Grows.refl g).pushScope hp
  refine ⟨h.rooted.pushScope hp hparent, h.bounded.pushScope hp, h.owned.pushScope hp, ?_⟩
  intro root hroot
  rw [hgrows.roots] at hroot
  exact (h.roots hroot).imp_right (Holds.grows hgrows)

/-- A top-level request excepts the nodes that lie on a cycle after it. -/
theorem resolve
    (h : g.Kept cyclic)
    (scope : ScopeId)
    (r : Request) :
    (g.resolve B scope r).2.Kept
      (fun d => cyclic d ∨ (g.resolve B scope r).2.OnCycle d) := by
  have hnone : ∀ i ∈ ([] : List NodeId), i.index < g.nodes.size := fun _ hi => nomatch hi
  cases hrun : g.resolve B scope r with
  | mk outcome g' =>
      cases outcome with
      | ok id =>
          obtain ⟨g₁, hd, rfl⟩ := resolve_ok h.owned.tree.numbered hrun
          obtain ⟨howned, hid⟩ := hd.owned hnone h.bounded h.owned trivial
          have hmet : ∀ d, cyclic d ∨ g.Met g₁ [] [id] d → cyclic d ∨ g₁.OnCycle d := by
            rintro d (hmet | ⟨hmem, -⟩ | ⟨-, hcycle⟩)
            · exact .inl hmet
            · exact nomatch hmem
            · exact .inr hcycle
          have howned₁ := howned.imp hmet
          refine ⟨hd.rooted trivial h.rooted, (hd.bounded hnone h.bounded).1, ?_, ?_⟩
          · exact
              { tree := howned₁.tree.of_scopes_eq rfl
                positions := howned₁.positions
                answers := howned₁.answers
                resolved := howned₁.resolved
                interceptors := howned₁.interceptors }
          · intro root hroot
            rcases List.mem_append.mp hroot with hroot | hroot
            · rw [hd.grows.roots] at hroot
              have hheld := (h.roots hroot).imp_right (Holds.grows hd.grows)
              exact hheld.imp_left .inl
            · rw [List.mem_singleton.mp hroot]
              exact hid.imp_left (hmet id)
      | error e =>
          obtain ⟨g₁, hf, rfl⟩ := resolve_error h.owned.tree.numbered hrun
          have howned := h.owned.rollback hf h.rooted h.bounded
          refine ⟨?_, hf.grows.rollback_bounded, howned.imp (fun _ => .inl), ?_⟩
          · intro i s parent hs hp
            change (g₁.rollback _ _).scopes[i]? = some s at hs
            rw [hf.grows.rollback_scopes] at hs
            exact h.rooted i s parent hs hp
          · intro root hroot
            change root ∈ g₁.roots at hroot
            rw [hf.grows.roots] at hroot
            rcases h.roots hroot with hmet | ⟨n, hn, habove⟩
            · exact .inl (.inl hmet)
            · refine .inr ⟨n, ?_, habove.of_scopes_eq hf.grows.rollback_scopes⟩
              change (g₁.rollback _ _).nodes[_]? = some n
              rw [hf.grows.rollback_nodes]
              exact hn

theorem imp
    (h : g.Kept cyclic)
    {cyclic' : NodeId → Prop}
    (himp : ∀ d, cyclic d → cyclic' d) :
    g.Kept cyclic' :=
  ⟨h.rooted, h.bounded, h.owned.imp himp, fun hroot => (h.roots hroot).imp_left (himp _)⟩

theorem merged
    (h : g.Kept cyclic) :
    g.merged.Kept cyclic := by
  refine ⟨h.rooted, ?_, h.owned.mergeStars, fun hroot => (h.roots hroot).imp_right
    Holds.merged⟩
  intro a ha
  change a.2.index < (StarMerge.mergeStars g.nodes).size
  rw [StarMerge.size_mergeStars]
  exact h.bounded a ha

/-- A batch excepts the nodes that lie on a cycle after all its requests. -/
theorem resolveEach
    (h : g.Kept cyclic)
    (scope : ScopeId)
    (rs : List Request) :
    (resolveEach B scope rs g).2.Kept
        (fun d => cyclic d ∨ (Graph.resolveEach B scope rs g).2.OnCycle d)
      ∧ ∀ {n d : NodeId}, g.Edge n d → (Graph.resolveEach B scope rs g).2.Edge n d := by
  induction rs generalizing g cyclic with
  | nil => exact ⟨h.imp (fun _ => .inl), fun he => he⟩
  | cons r rs ih =>
      have hkept := h.resolve (B := B) scope r
      have hedges : ∀ {n d : NodeId}, g.Edge n d → (g.resolve B scope r).2.Edge n d :=
        fun he => Edge.resolve h.owned.tree.numbered he scope r
      cases hrun : g.resolve B scope r with
      | mk outcome g' =>
          rw [hrun] at hkept hedges
          unfold Graph.resolveEach
          rw [hrun]
          cases outcome with
          | error e => exact ⟨hkept, hedges⟩
          | ok id =>
              obtain ⟨hkept', hedges'⟩ := ih hkept
              refine ⟨hkept'.imp ?_, fun he => hedges' (hedges he)⟩
              rintro d ((hmet | hcycle) | hcycle)
              · exact .inl hmet
              · exact .inr (hcycle.mono hedges')
              · exact .inr hcycle

theorem resolveAll
    (h : g.Kept cyclic)
    (scope : ScopeId)
    (rs : List Request) :
    (g.resolveAll B scope rs).2.Kept
      (fun d => cyclic d ∨ (Graph.resolveEach B scope rs g).2.OnCycle d) := by
  obtain ⟨hkept, -⟩ := h.resolveEach (B := B) scope rs
  unfold Graph.resolveAll
  generalize Graph.resolveEach B scope rs g = outcome at hkept
  rcases outcome with ⟨e | _, g'⟩
  · exact hkept
  · dsimp only
    split
    · exact hkept.merged
    · exact hkept

end Kept

theorem Planned.kept
    {B : Build}
    {g : Graph}
    {cyclic : NodeId → Prop}
    (h : Planned B g cyclic) :
    g.Kept cyclic := by
  induction h with
  | empty =>
      exact
        { rooted := fun _ _ _ hs => nomatch hs
          bounded := fun _ ha => nomatch ha
          owned := .empty _
          roots := fun hroot => nomatch hroot }
  | scope _ hparent hadd ih =>
      obtain ⟨found, -, hp⟩ := addScope_eq_ok hadd
      exact ih.pushScope hp hparent
  | component _ hparent hadd ih =>
      obtain ⟨spec, found, hp⟩ := addComponent_eq_ok hadd
      exact ih.pushScope hp hparent
  | resolve scope r _ ih => exact ih.resolve scope r
  | all scope rs _ ih => exact ih.resolveAll scope rs
  | @entryPoints g cyclic scope s _ hs ih =>
      unfold Graph.resolveEntryPoints
      rw [hs]
      exact ih.resolveAll scope _

/-- In every plan all owners are above the scopes that ask for them exactly if this is
so for the nodes that lay on a cycle. -/
theorem Planned.owned_iff
    {B : Build}
    {g : Graph}
    {cyclic : NodeId → Prop}
    (h : Planned B g cyclic) :
    g.Owned (fun _ => True) ↔ g.Owned cyclic := by
  have hkept := h.kept
  constructor
  · intro howned
    exact
      { resolved := fun hn hd _ => howned.resolved hn hd trivial
        interceptors := fun hn hi hd _ => howned.interceptors hn hi hd trivial
        roots := fun hroot _ => howned.roots hroot trivial }
  · intro howned
    exact
      { resolved := fun hn hd _ =>
          (hkept.owned.resolved hn hd).elim (howned.resolved hn hd) id
        interceptors := fun hn hi hd _ =>
          (hkept.owned.interceptors hn hi hd).elim (howned.interceptors hn hi hd) id
        roots := fun hroot _ => (hkept.roots hroot).elim (howned.roots hroot) id }

/-! ## An owner that is not above -/

/-- A global declaration of one class takes a function to another one. -/
def lazyLibrary : Build where
  registry :=
    { Registry.initial with registered := #[{ name := ⟨"B"⟩ }, { name := ⟨"Y"⟩ }] }
  catalog :=
    { filed :=
        [ { entry :=
              { declaration :=
                  { name := ⟨"lib.b"⟩
                    type := .of ⟨16⟩
                    parameters := [{ name := "lazyY", type := .function [] (.of ⟨17⟩) }] } }
            reach := some [⟨16⟩] } ] }

/-- A scope declares the other class, which takes the first one, and an inner scope asks
for the first one. -/
def innerGraph : Graph :=
  ((Graph.empty.withScope lazyLibrary none { name := "App" }
        [{ name := ⟨"app.y"⟩
           type := .of ⟨17⟩
           parameters := [{ name := "b", type := .of ⟨16⟩ }] }]).withScope
      lazyLibrary (some ⟨0⟩) { name := "Inner" } []).resolve lazyLibrary ⟨1⟩
    { type := .of ⟨16⟩, origin := ⟨"app"⟩ } |>.2

theorem innerGraph_planned :
    Planned lazyLibrary innerGraph (fun d => False ∨ innerGraph.OnCycle d) := by
  refine .resolve _ _ (Planned.withScope (Planned.empty.withScope ?_ _ _) ?_ _ _)
  · exact fun p hp => nomatch hp
  · rintro p ⟨⟩
    decide +kernel

/-- A scope without a parent has no ancestors. -/
theorem Above.eq_of_root
    {g : Graph}
    {scope above : ScopeId}
    (hroot : (g.scope? scope).bind Scope.parent = none)
    (h : g.Above scope above) :
    above = scope := by
  rcases Relation.ReflTransGen.cases_head h with heq | ⟨parent, ⟨s, hs, hp⟩, -⟩
  · exact heq.symm
  · rw [hs] at hroot
    exact absurd (hroot.symm.trans hp) (Option.some_ne_none parent).symm

theorem innerGraph_owned_iff :
    innerGraph.Owned (fun _ => True) ↔
      innerGraph.Owned (fun d => False ∨ innerGraph.OnCycle d) :=
  Planned.owned_iff innerGraph_planned

/-- The outer scope's node refers to one that the inner scope owns. -/
theorem innerGraph_not_owned :
    Planned lazyLibrary innerGraph (fun d => False ∨ innerGraph.OnCycle d)
      ∧ ¬ innerGraph.Owned (fun _ => True) := by
  refine ⟨innerGraph_planned, fun howned => ?_⟩
  have houter : (innerGraph.node? ⟨2⟩).any
      (fun n => decide (⟨0⟩ ∈ n.resolved ∧ n.evaluated = ⟨0⟩)) = true := by
    decide +kernel
  have hinner : (innerGraph.node? ⟨0⟩).map Node.owner = some ⟨1⟩ := by decide +kernel
  have hroot : (innerGraph.scope? ⟨0⟩).bind Scope.parent = none := by decide +kernel
  obtain ⟨n, hn, hasks⟩ := (Option.any_eq_true _ _).mp houter
  obtain ⟨hedge, hevaluated⟩ := of_decide_eq_true hasks
  obtain ⟨n₀, hn₀, habove⟩ := howned.resolved hn hedge trivial
  have howner : n₀.owner = ⟨1⟩ := by
    rw [hn₀] at hinner
    exact Option.some.inj hinner
  rw [hevaluated, howner] at habove
  exact absurd (habove.eq_of_root hroot) (by decide)

end Graph
end Wiring
