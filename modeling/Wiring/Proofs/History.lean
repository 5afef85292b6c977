import Wiring.Proofs.History.New
import Wiring.Proofs.History.Progress

/-!
# Requests after other requests

A request is made in a graph that has scopes only, and again after any other requests.
Both times it fails, or both times the same kind of node answers it, with the same
origin, owner and type.  This is not so in general: an answer can be one that was
remembered for a scope when another scope asked, and that the scope itself would not
choose.

Nothing else changes the kind, the origin or the owner of an answer.  A new answer is of the
scope's own choice, and so is one that is remembered from an earlier request of the scope.
The type of an answer of one's own choice may differ, if dependencies narrowed it.  Where
only one of the two requests fails, and not for want of depth or steps, the error is a
circle or the answer is not straight.

**Results.**
* `Graph.AskedFor.isChosen`: what a scope asked for itself is of its own choice.
* `Graph.Built.agree_iff`: all outcomes agree exactly if no request is disturbed in one of
  these ways.
* `Graph.suspendGraph_not_agree`: outcomes that do not agree.
-/

namespace Wiring
namespace Graph

/-! ## Outcomes -/

/-- The graphs without nodes, whose scopes were added below ones that are there. -/
inductive Built (B : Build) : Graph → Prop
  | empty : Built B .empty
  | scope {g g' : Graph} {parent : Option ScopeId} {spec : ScopeSpec}
      {declarations : List Declaration} {id : ScopeId} :
      Built B g →
      (∀ p, parent = some p → p.index < g.scopes.size) →
      g.addScope B parent spec declarations = .ok (id, g') →
      Built B g'
  | component {g g' : Graph} {parent : Option ScopeId} {type : Ty} {id : ScopeId} :
      Built B g →
      (∀ p, parent = some p → p.index < g.scopes.size) →
      g.addComponent B parent type = .ok (id, g') →
      Built B g'

/-- The graph after several requests, each in a scope of its own. -/
def after (B : Build) (g : Graph) (calls : List (ScopeId × Request)) : Graph :=
  calls.foldl (fun g c => (g.resolve B c.1 c.2).2) g

/-- What a request comes to: the profile of the node that answers it, or an error. -/
def outcome (B : Build) (g : Graph) (scope : ScopeId) (r : Request) :
    Except ResolutionError (Option Profile) :=
  match g.resolve B scope r with
  | (.ok id, g') => .ok ((g'.node? id).map Node.profile)
  | (.error e, _) => .error e

/-- Whether two outcomes agree, where only errors for want of depth or steps are
excused. -/
def Agree :
    Except ResolutionError (Option Profile) → Except ResolutionError (Option Profile) → Prop
  | .ok p, .ok p' => p = p'
  | .error _, .error _ => True
  | .ok _, .error e => e.isLimit = true
  | .error e, .ok _ => e.isLimit = true

instance : DecidableRel Agree
  | .ok p, .ok p' => inferInstanceAs (Decidable (p = p'))
  | .error _, .error _ => .isTrue trivial
  | .ok _, .error e => inferInstanceAs (Decidable (e.isLimit = true))
  | .error e, .ok _ => inferInstanceAs (Decidable (e.isLimit = true))

/-! ## Disturbances -/

/-- Whether a node is what a scope itself chooses for a request, but for its type, which
dependencies may have narrowed. -/
def IsChosen (B : Build) (g : Graph) (scope : ScopeId) (r : Request) (id : NodeId) : Prop :=
  ∃ n p, g.node? id = some n ∧ g.choice? B scope r.type r.required = some p ∧ n.MadeAs p

/-- Whether a node is the answer to an earlier request of the same scope for the same type,
and was new then. -/
def AskedFor (B : Build) (g : Graph) (calls : List (ScopeId × Request)) (scope : ScopeId)
    (r : Request) (id : NodeId) : Prop :=
  ∃ before r' later, calls = before ++ (scope, r') :: later
    ∧ B.registry.normalize r'.type = B.registry.normalize r.type
    ∧ r'.required = r.required
    ∧ (g.after B before).node? id = none
    ∧ ((g.after B before).resolve B scope r').1 = .ok id

/-- A node that is remembered, was not made for a request of the scope that gets it now, and
is not what that scope chooses. -/
structure IsStray (B : Build) (g : Graph) (calls : List (ScopeId × Request))
    (scope : ScopeId) (r : Request) (id : NodeId) : Prop where
  remembered : (g.after B calls).Remembers (B.registry.normalize r.type) id
  unasked : ¬ g.AskedFor B calls scope r id
  unchosen : ¬ (g.after B calls).IsChosen B scope r id

/-- Two nodes of the choice that a scope made, whose types dependencies narrowed
differently: in the graph after a first request and in a later one. -/
def NarrowedApart (B : Build) (g g₁ g₂ : Graph) (scope : ScopeId) (r : Request)
    (first later : NodeId) : Prop :=
  ∃ n n' p, g₁.node? first = some n ∧ g₂.node? later = some n'
    ∧ g.choice? B scope r.type r.required = some p
    ∧ n.MadeAs p ∧ n'.MadeAs p ∧ n.type ≠ n'.type

/-- How a request that a node of the graph answers at one time can fail at another time: at a
circle or, unless for want of depth or steps, because the answer is not straight. -/
def Spoils (B : Build) (g : Graph) (scope : ScopeId) (r : Request) (id : NodeId)
    (e : ResolutionError) : Prop :=
  e.isCircular = true ∨ (e.isLimit = false ∧ ¬ g.Straight B scope r id)

/-- Whether earlier requests disturb a request. -/
def Disturbed (B : Build) (g : Graph) (calls : List (ScopeId × Request)) (scope : ScopeId)
    (r : Request) : Prop :=
  match g.resolve B scope r, (g.after B calls).resolve B scope r with
  | (.ok first, g₁), (.ok later, g₂) =>
      g.IsStray B calls scope r later ∨ NarrowedApart B g g₁ g₂ scope r first later
  | (.ok first, g₁), (.error e, _) => g₁.Spoils B scope r first e
  | (.error e, _), (.ok later, g₂) => g₂.Spoils B scope r later e
  | (.error _, _), (.error _, _) => False

/-! ## Histories -/

section Histories

variable {B : Build} {g g' : Graph}

/-- Whether all scopes and nodes of a graph are still there in a later one. -/
structure Extends (g g' : Graph) : Prop where
  scopes {i : Nat} {s : Scope} : g.scopes[i]? = some s → g'.scopes[i]? = some s
  nodes {id : NodeId} {n : Node} : g.node? id = some n → g'.node? id = some n

theorem Extends.refl (g : Graph) : g.Extends g := ⟨id, id⟩

theorem Extends.trans
    {g'' : Graph}
    (h : g.Extends g')
    (h' : g'.Extends g'') :
    g.Extends g'' :=
  ⟨fun hs => h'.scopes (h.scopes hs), fun hn => h'.nodes (h.nodes hn)⟩

theorem Extends.lt_size
    (h : g.Extends g')
    {scope : ScopeId}
    (hscope : scope.index < g.scopes.size) :
    scope.index < g'.scopes.size :=
  Graph.lt_size_of_scope? (h.scopes (Array.getElem?_eq_getElem hscope))

/-- What requests rely on: what a graph remembers is right, and names nodes that are
there. -/
structure Settled (B : Build) (g : Graph) : Prop where
  faithful : g.Faithful B
  bounded : g.Bounded

theorem Built.settled (h : Built B g) : g.Settled B ∧ g.answers = [] := by
  have hfaithful : g.Faithful B ∧ g.answers = [] := by
    induction h with
    | empty => exact ⟨Faithful.empty, rfl⟩
    | scope _ hparent hadd ih =>
        obtain ⟨found, -, hp⟩ := addScope_eq_ok hadd
        obtain ⟨hg, hanswers⟩ := ih
        exact ⟨hg.pushScope hparent hp, (pushScope_answers hp).1.trans hanswers⟩
    | component _ hparent hadd ih =>
        obtain ⟨spec, found, hp⟩ := addComponent_eq_ok hadd
        obtain ⟨hg, hanswers⟩ := ih
        exact ⟨hg.pushScope hparent hp, (pushScope_answers hp).1.trans hanswers⟩
  obtain ⟨hg, hanswers⟩ := hfaithful
  refine ⟨⟨hg, fun a ha => ?_⟩, hanswers⟩
  rw [hanswers] at ha
  cases ha

theorem Built.withScope
    (h : Built B g)
    {parent : Option ScopeId}
    (hparent : ∀ p, parent = some p → p.index < g.scopes.size)
    (spec : ScopeSpec)
    (declarations : List Declaration) :
    Built B (g.withScope B parent spec declarations) := by
  unfold Graph.withScope
  split
  · rename_i hadd
    exact h.scope hparent hadd
  · exact h

/-- A request keeps what requests rely on, and all scopes and nodes. -/
theorem Settled.resolve
    (h : g.Settled B)
    (scope : ScopeId)
    (r : Request) :
    (g.resolve B scope r).2.Settled B ∧ g.Extends (g.resolve B scope r).2 := by
  obtain ⟨hfaithful, hscopes⟩ := h.faithful.resolve scope r
  have hnumbered := h.faithful.tree.numbered
  cases hrun : g.resolve B scope r with
  | mk result g' =>
      rw [hrun] at hfaithful hscopes
      cases result with
      | ok id =>
          obtain ⟨g₁, hd, rfl⟩ := resolve_ok hnumbered hrun
          exact ⟨⟨hfaithful, (hd.bounded (fun _ hi => nomatch hi) h.bounded).1⟩,
            hscopes, hd.grows.node?⟩
      | error e =>
          obtain ⟨g₁, hf, rfl⟩ := resolve_error hnumbered hrun
          refine ⟨⟨hfaithful, hf.grows.rollback_bounded⟩, hscopes, fun hn => ?_⟩
          unfold Graph.node?
          rw [hf.grows.rollback_nodes]
          exact hn

/-- So do several requests. -/
theorem Settled.after
    (h : g.Settled B)
    (calls : List (ScopeId × Request)) :
    (g.after B calls).Settled B ∧ g.Extends (g.after B calls) := by
  induction calls generalizing g with
  | nil => exact ⟨h, .refl g⟩
  | cons c calls ih =>
      obtain ⟨hfirst, hextends⟩ := h.resolve c.1 c.2
      obtain ⟨hlast, hextends'⟩ := ih hfirst
      exact ⟨hlast, hextends.trans hextends'⟩

/-- A scope chooses the same as long as it and the scopes before it are there. -/
theorem Settled.choice?_eq
    (h : g.Settled B)
    (hextends : g.Extends g')
    {scope : ScopeId}
    (hscope : scope.index < g.scopes.size)
    (t : Ty)
    (required : Bool) :
    g'.choice? B scope t required = g.choice? B scope t required := by
  have hg := h.faithful
  have hpath := hg.rooted.path_eq_of_scopes hextends.scopes hscope
  cases hpick : Pick.along B (B.registry.normalize t) (g.path scope) with
  | nothing =>
      rw [choice?_of_nothing hpick, choice?_of_nothing (hpath ▸ hpick)]
  | refused =>
      rw [choice?_of_refused hpick, choice?_of_refused (hpath ▸ hpick)]
  | chosen s c =>
      have hs := (hg.rooted.lineage hscope).scope?_of_mem hg.tree.numbered
        (Resolve.mem_of_along hpick)
      have hpath' := hg.rooted.path_eq_of_scopes hextends.scopes
        (Graph.lt_size_of_scope? hs)
      rw [choice?_of_chosen hpick, choice?_of_chosen (hpath ▸ hpick), hpath']

/-- An answer of the scope's own choice stays one. -/
theorem IsChosen.mono
    {scope : ScopeId}
    {r : Request}
    {id : NodeId}
    (h : g.IsChosen B scope r id)
    (hg : g.Settled B)
    (hscope : scope.index < g.scopes.size)
    (hextends : g.Extends g') :
    g'.IsChosen B scope r id := by
  obtain ⟨n, p, hn, hp, hmade⟩ := h
  exact ⟨n, p, hextends.nodes hn,
    (hg.choice?_eq hextends hscope r.type r.required).trans hp, hmade⟩

/-- An answer is remembered for some scope, or it is of the scope's own choice. -/
theorem Settled.remembers_or_isChosen
    (h : g.Settled B)
    {scope : ScopeId}
    (hscope : scope.index < g.scopes.size)
    {r : Request}
    {id : NodeId}
    {g₁ : Graph}
    (hrun : g.resolve B scope r = (.ok id, g₁)) :
    g.Remembers (B.registry.normalize r.type) id ∨ g₁.IsChosen B scope r id := by
  obtain ⟨-, hextends⟩ := h.resolve scope r
  rw [hrun] at hextends
  have hchoice := h.choice?_eq hextends hscope r.type r.required
  obtain ⟨g₀, hd, rfl⟩ := resolve_ok h.faithful.tree.numbered hrun
  refine (hd.remembered_or_new h.faithful hscope).imp_right ?_
  rintro ⟨n, p, hn, hp, hmade⟩
  exact ⟨n, p, hn, hchoice.trans hp, hmade⟩

/-- What a scope asked for itself is of its own choice. -/
theorem AskedFor.isChosen
    {calls : List (ScopeId × Request)}
    {scope : ScopeId}
    {r : Request}
    {id : NodeId}
    (hasked : g.AskedFor B calls scope r id)
    (h : g.Settled B)
    (hscope : scope.index < g.scopes.size) :
    (g.after B calls).IsChosen B scope r id := by
  obtain ⟨before, r', later, rfl, htype, hrequired, hnew, hanswer⟩ := hasked
  obtain ⟨hbefore, hextends⟩ := h.after before
  have hscope' := hextends.lt_size hscope
  cases hrun : (g.after B before).resolve B scope r' with
  | mk result g₁ =>
      rw [hrun] at hanswer
      subst hanswer
      obtain ⟨hsettled, hextends₁⟩ := hbefore.resolve scope r'
      rw [hrun] at hsettled hextends₁
      have hlast : g.after B (before ++ (scope, r') :: later) = g₁.after B later := by
        unfold Graph.after at hrun ⊢
        rw [List.foldl_append, List.foldl_cons, hrun]
      rw [hlast]
      have hchosen : g₁.IsChosen B scope r' id := by
        refine (hbefore.remembers_or_isChosen hscope' hrun).resolve_left ?_
        rintro ⟨s, hfound⟩
        have hnode := Array.getElem?_eq_getElem (hbefore.bounded.find? hfound)
        exact absurd (hnode.symm.trans hnew) (Option.some_ne_none _)
      obtain ⟨n, p, hn, hp, hmade⟩ := hchosen.mono hsettled (hextends₁.lt_size hscope')
        (hsettled.after later).2
      refine ⟨n, p, hn, ?_, hmade⟩
      rw [← hp]
      simp only [Graph.choice?, htype, hrequired]

/-- Where a request has a straight answer in one graph, it only fails for want of depth
or steps or at a circle in another graph with the same scopes. -/
theorem Straight.excused
    {scope : ScopeId}
    {r : Request}
    {id : NodeId}
    (h : g'.Straight B scope r id)
    (hg' : g'.Faithful B)
    (hg : g.Faithful B)
    (hscope : g'.Alike g scope scope)
    {e : ResolutionError}
    {g₁ : Graph}
    (hrun : g.resolve B scope r = (.error e, g₁)) :
    e.Excused := by
  obtain ⟨S, hS, hid⟩ := h
  unfold Graph.resolve at hrun
  split at hrun
  · cases hrun
  · rename_i e' s' herror
    cases hrun
    exact Resolve.request_spares hS hg' B.options.maxDepth scope scope r id
      ⟨g, .start B.options⟩ hg hscope hid e s' herror

/-- So an error is a limit exactly if the answer of another time does not spoil it. -/
theorem Settled.isLimit_iff
    (h : g.Settled B)
    (h' : g'.Settled B)
    {scope : ScopeId}
    (hscope : g'.Alike g scope scope)
    {r : Request}
    {e : ResolutionError}
    {g₁ : Graph}
    (hrun : g.resolve B scope r = (.error e, g₁))
    (id : NodeId) :
    e.isLimit = true ↔ ¬ g'.Spoils B scope r id e := by
  constructor
  · rintro hlimit (hcircular | ⟨hnone, -⟩)
    · cases e <;> cases hlimit <;> cases hcircular
    · rw [hlimit] at hnone
      cases hnone
  · intro hspared
    obtain ⟨hcircular, hstraight⟩ := not_or.mp hspared
    by_contra hlimit
    have hnone : e.isLimit = false := Bool.not_eq_true _ ▸ hlimit
    have hexcused := (not_not.mp fun hcrooked => hstraight ⟨hnone, hcrooked⟩).excused
      h'.faithful h.faithful hscope hrun
    exact hexcused.elim hlimit hcircular

/-- Two answers have the same profile exactly if the later one is no stray and their types
were not narrowed differently. -/
theorem Settled.profile_eq_iff
    (h : g.Settled B)
    (hanswers : g.answers = [])
    {calls : List (ScopeId × Request)}
    {scope : ScopeId}
    (hscope : scope.index < g.scopes.size)
    {r : Request}
    {first later : NodeId}
    {g₁ g₂ : Graph}
    (hrun : g.resolve B scope r = (.ok first, g₁))
    (hrun' : (g.after B calls).resolve B scope r = (.ok later, g₂)) :
    (g₁.node? first).map Node.profile = (g₂.node? later).map Node.profile
      ↔ ¬ (g.IsStray B calls scope r later
        ∨ NarrowedApart B g g₁ g₂ scope r first later) := by
  obtain ⟨hafter, hextends⟩ := h.after calls
  obtain ⟨-, hextends₁⟩ := h.resolve scope r
  obtain ⟨-, hextends₂⟩ := hafter.resolve scope r
  rw [hrun] at hextends₁
  rw [hrun'] at hextends₂
  have hchoice {p : Profile} {g' : Graph} (hg' : g.Extends g')
      (hp : g'.choice? B scope r.type r.required = some p) :
      g.choice? B scope r.type r.required = some p :=
    (h.choice?_eq hg' hscope r.type r.required).symm.trans hp
  -- the first answer is of the scope's own choice
  obtain ⟨n, p, hn, hp, hmade⟩ : g₁.IsChosen B scope r first := by
    refine (h.remembers_or_isChosen hscope hrun).resolve_left ?_
    rintro ⟨s, hfound⟩
    rw [hanswers] at hfound
    cases hfound
  have hp := hchoice hextends₁ hp
  constructor
  · rintro hprofile (hstray | ⟨m, m', q, hm, hm', -, -, -, htypes⟩)
    · -- the node was there before with the same profile, so it is of the scope's own choice
      obtain ⟨s, hfound⟩ := hstray.remembered
      have hnode := Array.getElem?_eq_getElem (hafter.bounded.find? hfound)
      rw [hn, hextends₂.nodes hnode] at hprofile
      exact hstray.unchosen
        ⟨_, p, hnode, (h.choice?_eq hextends hscope r.type r.required).trans hp,
          hmade.congr (Option.some.inj hprofile)⟩
    · rw [hm, hm'] at hprofile
      exact htypes (congrArg Profile.type (Option.some.inj hprofile))
  · intro hsure
    obtain ⟨hstray, hnarrowed⟩ := not_or.mp hsure
    have hlater : g₂.IsChosen B scope r later := by
      rcases hafter.remembers_or_isChosen (hextends.lt_size hscope) hrun' with
        hremembered | hchosen
      · have hchosen : (g.after B calls).IsChosen B scope r later := by
          by_contra hunchosen
          exact hstray
            { remembered := hremembered
              unasked := fun hasked => hunchosen (hasked.isChosen h hscope)
              unchosen := hunchosen }
        exact hchosen.mono hafter (hextends.lt_size hscope) hextends₂
      · exact hchosen
    obtain ⟨n', p', hn', hp', hmade'⟩ := hlater
    obtain rfl := Option.some.inj (hp.symm.trans (hchoice (hextends.trans hextends₂) hp'))
    have htype : n.type = n'.type := by
      by_contra hne
      exact hnarrowed ⟨n, n', p, hn, hn', hp, hmade, hmade', hne⟩
    rw [hn, hn', Option.map_some, Option.map_some, hmade, hmade', htype]

/-- Outcomes agree exactly if the request is not disturbed. -/
theorem Built.agree_iff_not_disturbed
    (h : Built B g)
    (calls : List (ScopeId × Request))
    {scope : ScopeId}
    (hscope : scope.index < g.scopes.size)
    (r : Request) :
    Agree (g.outcome B scope r) ((g.after B calls).outcome B scope r)
      ↔ ¬ g.Disturbed B calls scope r := by
  obtain ⟨hg, hanswers⟩ := h.settled
  obtain ⟨hafter, hextends⟩ := hg.after calls
  obtain ⟨hfirst, hextends₁⟩ := hg.resolve scope r
  obtain ⟨hlater, hextends₂⟩ := hafter.resolve scope r
  unfold Disturbed outcome
  cases hrun : g.resolve B scope r with
  | mk result g₁ =>
      rw [hrun] at hfirst hextends₁
      cases hrun' : (g.after B calls).resolve B scope r with
      | mk result' g₂ =>
          rw [hrun'] at hlater hextends₂
          cases result with
          | ok first =>
              cases result' with
              | ok later => exact hg.profile_eq_iff hanswers hscope hrun hrun'
              | error e =>
                  have halike :=
                    hg.faithful.rooted.alike hextends₁.scopes hextends.scopes hscope
                  exact hafter.isLimit_iff hfirst halike hrun' first
          | error e =>
              cases result' with
              | ok later =>
                  have halike := hg.faithful.rooted.alike
                    (hextends.trans hextends₂).scopes (fun hs => hs) hscope
                  exact hg.isLimit_iff hlater halike hrun later
              | error e' => exact ⟨fun _ => id, fun _ => trivial⟩

/-- After all other requests all outcomes agree exactly if no request is disturbed. -/
theorem Built.agree_iff
    (h : Built B g) :
    (∀ (calls : List (ScopeId × Request)) (scope : ScopeId) (r : Request),
        scope.index < g.scopes.size →
        Agree (g.outcome B scope r) ((g.after B calls).outcome B scope r))
      ↔ ∀ (calls : List (ScopeId × Request)) (scope : ScopeId) (r : Request),
        scope.index < g.scopes.size → ¬ g.Disturbed B calls scope r := by
  constructor
  · exact fun hagree calls scope r hscope =>
      (h.agree_iff_not_disturbed calls hscope r).mp (hagree calls scope r hscope)
  · exact fun hsure calls scope r hscope =>
      (h.agree_iff_not_disturbed calls hscope r).mpr (hsure calls scope r hscope)

end Histories

/-! ## Outcomes that do not agree -/

/-- One class. -/
def oneClass : Build where
  registry := { Registry.initial with registered := #[{ name := ⟨"Foo"⟩ }] }

/-- A scope that declares a suspending function for the class. -/
def suspendGraph : Graph :=
  Graph.empty.withScope oneClass none { name := "App" }
    [{ name := ⟨"app.load"⟩, type := .of ⟨16⟩, callKind := .suspend }]

theorem suspendGraph_built : Built oneClass suspendGraph := by
  refine Built.empty.withScope ?_ _ _
  exact fun p hp => nomatch hp

theorem suspendGraph_agree_iff :
    (∀ (calls : List (ScopeId × Request)) (scope : ScopeId) (r : Request),
        scope.index < suspendGraph.scopes.size →
        Agree (suspendGraph.outcome oneClass scope r)
          ((suspendGraph.after oneClass calls).outcome oneClass scope r))
      ↔ ∀ (calls : List (ScopeId × Request)) (scope : ScopeId) (r : Request),
        scope.index < suspendGraph.scopes.size →
        ¬ suspendGraph.Disturbed oneClass calls scope r :=
  Built.agree_iff suspendGraph_built

/-- The class cannot be built without suspending, unless a function that suspends was
asked for before. -/
theorem suspendGraph_not_agree :
    Built oneClass suspendGraph
      ∧ ¬ ∀ (calls : List (ScopeId × Request)) (scope : ScopeId) (r : Request),
        scope.index < suspendGraph.scopes.size →
        Agree (suspendGraph.outcome oneClass scope r)
          ((suspendGraph.after oneClass calls).outcome oneClass scope r) := by
  refine ⟨suspendGraph_built, fun hagree => ?_⟩
  have hagrees := hagree
    [(⟨0⟩, { type := .functionOf .suspendFunction [] (.of ⟨16⟩), origin := ⟨"app"⟩ })] ⟨0⟩
    { type := .of ⟨16⟩, origin := ⟨"app"⟩ } (by decide +kernel)
  exact absurd hagrees (by decide +kernel)

end Graph
end Wiring
