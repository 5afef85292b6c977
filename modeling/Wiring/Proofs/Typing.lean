import Wiring.Proofs.Reachable
import Wiring.Proofs.Typing.Search

/-!
# Type soundness of plans

Whatever answers a top-level request or a dependency has a type that is assignable to the
requested one, or is the requested one, not nullable.  The exceptions are null nodes for
nullable types and missing nodes for optional requests.

The type of a node is narrowed after it was chosen: star projections are replaced by what
its dependencies came to.  This is guarded by a test that takes any argument for less
general than a star projection, but does not notice where an argument becomes a star
projection.  So a narrowed type may not be assignable to the type it was chosen for.

**Results.**
* `Graph.Reachable.typeSound_iff`: all answers have types that fit exactly if those have
  that were narrowed, or whose type is nullable and nested too deeply to be compared.
-/

namespace Wiring

/-- A failing search keeps the types of answers, except for new nodes. -/
theorem Fails.typed
    {B : Build}
    {stack : List NodeId}
    {g g' : Graph}
    (h : Fails B stack g g')
    {base : Nat}
    (hbase : base ≤ g.nodes.size)
    {met : NodeId → Prop}
    (hnew : ∀ d : NodeId, base ≤ d.index → met d)
    (hg : g.TypedExcept B met) :
    g'.TypedExcept B met := by
  induction h with
  | here => exact hg
  | merged _ _ ih => exact ih hbase (hg.withMemo _)
  | entered _ hp _ ih =>
      exact ih (by rw [(Graph.pushScope_answers hp).2]; exact hbase) (hg.pushScope hp)
  | after hd _ ih =>
      exact ih (Nat.le_trans hbase hd.grows.size_nodes) (hd.typed hg trivial).1
  | @inside stack n key scope evaluated demands g g' hplans _ ih =>
      refine ih ?_ (hg.begin hplans.resolved (fun _ _ => .inl (hnew g.nextId hbase)) scope)
      rw [Graph.begin_size]
      exact Nat.le_succ_of_le hbase
  | @attaching stack n key scope evaluated demands id m declared assisted g g₁ g' hd _ _ ih =>
      have hid := hd.node_eq
      subst hid
      have hmet := hnew g.nextId hbase
      obtain ⟨htyped, -⟩ := hd.typed hg (fun _ _ => .inl hmet)
      refine ih ?_ ((htyped.narrowAt (.inl hmet) declared).withMemo m)
      change base ≤ (g₁.narrowAt B g.nextId declared assisted).nodes.size
      rw [Graph.narrowAt_size]
      exact Nat.le_trans hbase hd.grows.size_nodes

namespace Graph

/-- After a failing search is cut back, nodes answer what they did. -/
theorem Answers.rollback
    {B : Build}
    {g g₁ : Graph}
    {id : NodeId}
    {t : Ty}
    {required : Bool}
    (h : g.Answers B id t required)
    (hg : g.Grows g₁) :
    (g₁.rollback g.nodes.size g.scopes.size).Answers B id t required := by
  obtain ⟨n, hn, hanswers⟩ := h
  exact ⟨n, (Graph.node?_congr hg.rollback_nodes id).trans hn, hanswers⟩

theorem TypedExcept.rollback
    {B : Build}
    {g g₁ : Graph}
    {met : NodeId → Prop}
    (h : g.TypedExcept B met)
    (hf : Fails B [] g g₁) :
    (g₁.rollback g.nodes.size g.scopes.size).TypedExcept B met := by
  -- new nodes are cut off, so they may be excepted until then
  have htyped : g₁.TypedExcept B (fun d => met d ∨ g.nodes.size ≤ d.index) :=
    hf.typed (Nat.le_refl _) (fun _ hd => .inr hd) (h.imp (fun _ => .inl))
  refine ⟨fun {scope t id} ha => ?_, fun {id d n r} hn hkind hr => ?_⟩
  · obtain ⟨ha, hid, -⟩ := Answers.mem_restrict.mp ha
    rcases htyped.answers ha with (hmet | hge) | ⟨n, hn, hanswers⟩
    · exact .inl hmet
    · exact absurd hid (Nat.not_lt.mpr hge)
    · rw [hf.grows.node?_eq hid] at hn
      have hold : g.Answers B id t true := ⟨n, hn, hanswers⟩
      exact .inr (hold.rollback hf.grows)
  · have hn' : g.node? id = some n := by
      change (g₁.rollback _ _).nodes[_]? = some n at hn
      rw [hf.grows.rollback_nodes] at hn
      exact hn
    exact (h.asked hn' hkind hr).imp_right (fun hh => hh.rollback hf.grows)

/-! ## Plans -/

/-- Whether those of given answers to top-level requests and dependencies have types that
fit.  The entries of a collection are not requested by their types. -/
structure TypeSound (B : Build) (g : Graph) (among : Node → Ty → Prop) : Prop where
  dependencies {id d : NodeId} {n : Node} {r : Request} :
    g.node? id = some n → n.kind.isCollection = false →
    (r, d) ∈ n.dependencies.zip n.resolved →
    ∃ a, g.node? d = some a
      ∧ (among a (B.registry.normalize r.type) →
        a.Fits B (B.registry.normalize r.type) r.required)
  roots {root : Root} :
    root ∈ g.roots →
    ∃ a, g.node? root.node = some a
      ∧ (among a (B.registry.normalize root.request.type) →
        a.Fits B (B.registry.normalize root.request.type) root.request.required)

/-- Everything that calls reach answers what was requested. -/
theorem Reachable.typed
    {B : Build}
    {g : Graph}
    (h : Reachable B g) :
    g.TypedExcept B (fun _ => False)
      ∧ ∀ root ∈ g.roots,
        g.Answers B root.node (B.registry.normalize root.request.type)
          root.request.required := by
  refine h.invariant (P := fun g => g.TypedExcept B (fun _ => False)
      ∧ ∀ root ∈ g.roots,
        g.Answers B root.node (B.registry.normalize root.request.type)
          root.request.required) ?_ ?_ ?_ ?_
  · exact ⟨.empty B _, fun _ hroot => nomatch hroot⟩
  · rintro g g' parent spec found inner ⟨htyped, hroots⟩ hp
    have hgrows := (Grows.refl g).pushScope hp
    refine ⟨htyped.pushScope hp, fun root hroot => ?_⟩
    rw [hgrows.roots] at hroot
    exact (hroots root hroot).grows hgrows
  · rintro g g₁ scope r id ⟨htyped, hroots⟩ - hd
    obtain ⟨htyped₁, hid⟩ := hd.typed htyped trivial
    refine ⟨⟨htyped₁.answers, htyped₁.asked⟩, fun root hroot => ?_⟩
    rcases List.mem_append.mp hroot with hroot | hroot
    · rw [hd.grows.roots] at hroot
      have hroot' := (hroots root hroot).grows hd.grows
      exact hroot'
    · rw [List.mem_singleton.mp hroot]
      exact hid.elim False.elim (fun hanswers => hanswers)
  · rintro g g₁ ⟨htyped, hroots⟩ - hf
    refine ⟨htyped.rollback hf, fun root hroot => ?_⟩
    change root ∈ g₁.roots at hroot
    rw [hf.grows.roots] at hroot
    exact (hroots root hroot).rollback hf.grows

/-- In a graph that calls reach, all answers have types that fit exactly if those have
that were narrowed or are too deep. -/
theorem Reachable.typeSound_iff
    {B : Build}
    {g : Graph}
    (h : Reachable B g) :
    g.TypeSound B (fun _ _ => True) ↔ g.TypeSound B Node.Unsettled := by
  obtain ⟨htyped, hroots⟩ := h.typed
  -- an answer that is settled fits anyway
  have hfits : ∀ {d : NodeId} {t : Ty} {required : Bool}, g.Answers B d t required →
      (∃ a, g.node? d = some a ∧ (a.Unsettled t → a.Fits B t required)) →
      ∃ a, g.node? d = some a ∧ (True → a.Fits B t required) := by
    rintro d t required ⟨a, ha, hanswers⟩ ⟨a', ha', hunsettled⟩
    have heq : a = a' := Option.some.inj (ha.symm.trans ha')
    subst heq
    refine ⟨a, ha, fun _ => ?_⟩
    by_cases hsettled : a.Unsettled t
    · exact hunsettled hsettled
    · exact hanswers.fits hsettled
  constructor
  · rintro ⟨hdependencies, hrequests⟩
    refine ⟨fun hn hkind hr => ?_, fun hroot => ?_⟩
    · obtain ⟨a, ha, hfit⟩ := hdependencies hn hkind hr
      exact ⟨a, ha, fun _ => hfit trivial⟩
    · obtain ⟨a, ha, hfit⟩ := hrequests hroot
      exact ⟨a, ha, fun _ => hfit trivial⟩
  · rintro ⟨hdependencies, hrequests⟩
    refine ⟨fun hn hkind hr => ?_, fun hroot => ?_⟩
    · have hanswers := (htyped.asked hn hkind hr).resolve_left not_false
      exact hfits hanswers (hdependencies hn hkind hr)
    · exact hfits (hroots _ hroot) (hrequests hroot)

/-! ## A type that is narrowed too far -/

/-- A class `User`, three type parameters, and classes of one and of three parameters. -/
def boxes : Build where
  registry :=
    { Registry.initial with
      registered :=
        #[ { name := ⟨"User"⟩ },
          { name := ⟨"T"⟩, flags := [.typeParameter] },
          { name := ⟨"U"⟩, flags := [.typeParameter] },
          { name := ⟨"V"⟩, flags := [.typeParameter] },
          { name := ⟨"Box"⟩, typeParameters := [⟨17⟩] },
          { name := ⟨"C"⟩, typeParameters := [⟨17⟩, ⟨18⟩, ⟨19⟩] } ] }

/-- A box of a user, and a generic declaration that takes two boxes. -/
def boxDeclarations : List Declaration :=
  [ { name := ⟨"app.box"⟩
      type := .generic ⟨20⟩ [.of ⟨16⟩] },
    { name := ⟨"app.make"⟩
      type := .generic ⟨21⟩ [.of ⟨17⟩, .of ⟨18⟩, .of ⟨19⟩]
      typeParameters := [⟨17⟩, ⟨18⟩, ⟨19⟩]
      parameters :=
        [ { name := "u", type := .generic ⟨20⟩ [.of ⟨18⟩] },
          { name := "v", type := .generic ⟨20⟩ [.of ⟨19⟩] } ] } ]

/-- The first argument has to be any value, the others may be anything. -/
def anyAndStars : Ty :=
  .generic ⟨21⟩ [.of .any, .starProjection, .starProjection]

/-- The graph after the generic declaration was asked for. -/
def boxGraph : Graph :=
  ((Graph.empty.withScope boxes none { name := "App" } boxDeclarations).resolve boxes ⟨0⟩
    { type := anyAndStars, origin := ⟨"app"⟩ }).2

theorem boxGraph_reachable : Reachable boxes boxGraph :=
  .resolve _ _ (Reachable.empty.withScope _ _ _)

theorem boxGraph_typeSound_iff :
    boxGraph.TypeSound boxes (fun _ _ => True) ↔ boxGraph.TypeSound boxes Node.Unsettled :=
  Reachable.typeSound_iff boxGraph_reachable

/-- The first argument became a star projection when the others were narrowed. -/
theorem boxGraph_not_typeSound :
    Reachable boxes boxGraph ∧ ¬ boxGraph.TypeSound boxes (fun _ _ => True) := by
  refine ⟨boxGraph_reachable, fun hsound => ?_⟩
  have hroots : boxGraph.roots
      = [⟨⟨0⟩, { type := anyAndStars, origin := ⟨"app"⟩ }, ⟨0⟩⟩] := by decide +kernel
  have hnode : (boxGraph.node? ⟨0⟩).any (fun n => decide
      (n.kind ≠ .null ∧ n.kind ≠ .missing
        ∧ n.type ≠ (boxes.registry.normalize anyAndStars).nonNull
        ∧ boxes.registry.isAssignable n.type (boxes.registry.normalize anyAndStars)
          = false)) = true := by
    decide +kernel
  obtain ⟨n, hn, hfacts⟩ := (Option.any_eq_true _ _).mp hnode
  obtain ⟨hnull, hmissing, htype, hassignable⟩ := of_decide_eq_true hfacts
  obtain ⟨a, ha, hfits⟩ := hsound.roots (by rw [hroots]; exact List.mem_singleton_self _)
  have heq : a = n := Option.some.inj (ha.symm.trans hn)
  subst heq
  cases hfits trivial with
  | null hkind => exact hnull hkind
  | missing hkind => exact hmissing hkind
  | nonNull heq => exact htype heq
  | assignable h => exact absurd (h.symm.trans hassignable) (by decide)

end Graph
end Wiring
