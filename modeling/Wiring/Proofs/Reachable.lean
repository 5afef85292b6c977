import Wiring.Proofs.Answers
import Wiring.Proofs.Traversal

/-!
# Graphs that calls reach

A graph grows by calls that add a scope, add the scope of a component, or resolve one
request.  Such a call appends a scope, or is a derivation on the empty stack, or is a
failing search that is cut back, after which scopes and nodes are as before.

**Results.**
* `Graph.Reachable.invariant`: what holds of the empty graph and is kept by these three
  kinds of change holds of every graph that calls reach.
-/

namespace Wiring
namespace Graph

/-- The graphs that calls reach from the empty one. -/
inductive Reachable (B : Build) : Graph → Prop
  | empty : Reachable B .empty
  | scope {g g' : Graph} {parent : Option ScopeId} {spec : ScopeSpec}
      {declarations : List Declaration} {id : ScopeId} :
      Reachable B g →
      g.addScope B parent spec declarations = .ok (id, g') →
      Reachable B g'
  | component {g g' : Graph} {parent : Option ScopeId} {type : Ty} {id : ScopeId} :
      Reachable B g →
      g.addComponent B parent type = .ok (id, g') →
      Reachable B g'
  | resolve {g : Graph} (scope : ScopeId) (r : Request) :
      Reachable B g →
      Reachable B (g.resolve B scope r).2

/-- Adding the scope of a component appends a scope. -/
theorem addComponent_eq_ok
    {B : Build}
    {g g' : Graph}
    {parent : Option ScopeId}
    {type : Ty}
    {inner : ScopeId}
    (h : g.addComponent B parent type = .ok (inner, g')) :
    ∃ spec found, g.pushScope B parent spec found = .ok (inner, g') := by
  unfold Graph.addComponent at h
  split at h
  · cases h
  · obtain ⟨found, -, hp⟩ := addScope_eq_ok h
    exact ⟨_, found, hp⟩

/-- The graph with one more scope, if it can be added. -/
def withScope (B : Build) (g : Graph) (parent : Option ScopeId) (spec : ScopeSpec)
    (declarations : List Declaration) : Graph :=
  match g.addScope B parent spec declarations with
  | .ok (_, g') => g'
  | .error _ => g

theorem Reachable.withScope
    {B : Build}
    {g : Graph}
    (h : Reachable B g)
    (parent : Option ScopeId)
    (spec : ScopeSpec)
    (declarations : List Declaration) :
    Reachable B (g.withScope B parent spec declarations) := by
  unfold Graph.withScope
  split
  · rename_i hadd
    exact h.scope hadd
  · exact h

/-! ## Cutting back -/

section Rollback

/-- Cutting an array back to one that it starts with. -/
theorem take_eq_of_starts
    {α : Type}
    {xs ys : Array α}
    (h : ∀ {i : Nat} {x : α}, xs[i]? = some x → ys[i]? = some x) :
    ys.take xs.size = xs := by
  refine Array.ext_getElem? fun i => ?_
  rw [Array.take_eq_extract, Array.getElem?_extract]
  cases hx : xs[i]? with
  | some x =>
      have hi := (Array.getElem?_eq_some_iff.mp hx).1
      have hi' := (Array.getElem?_eq_some_iff.mp (h hx)).1
      rw [if_pos (by omega), Nat.zero_add]
      exact h hx
  | none =>
      have hi := Array.getElem?_eq_none_iff.mp hx
      rw [if_neg (by omega)]

variable {g g₁ : Graph}

theorem Grows.rollback_scopes (h : g.Grows g₁) :
    (g₁.rollback g.nodes.size g.scopes.size).scopes = g.scopes :=
  take_eq_of_starts h.scopes

theorem Grows.rollback_nodes (h : g.Grows g₁) :
    (g₁.rollback g.nodes.size g.scopes.size).nodes = g.nodes :=
  take_eq_of_starts h.nodes

/-- After cutting back, every answer names a node that is there. -/
theorem Grows.rollback_bounded (h : g.Grows g₁) :
    (g₁.rollback g.nodes.size g.scopes.size).Bounded := by
  intro a ha
  rw [h.rollback_nodes]
  exact (Answers.mem_restrict.mp ha).2.1

end Rollback

/-! ## Invariants -/

namespace Reachable

variable {B : Build} {g : Graph}

theorem numbered (h : Reachable B g) : g.Numbered := by
  induction h with
  | empty => exact fun i s hs => nomatch hs
  | scope _ hadd ih =>
      obtain ⟨found, -, hp⟩ := addScope_eq_ok hadd
      exact ih.pushScope hp
  | component _ hadd ih =>
      obtain ⟨spec, found, hp⟩ := addComponent_eq_ok hadd
      exact ih.pushScope hp
  | @resolve g scope r _ ih =>
      cases hrun : g.resolve B scope r with
      | mk outcome g' =>
          cases outcome with
          | ok id =>
              obtain ⟨g₁, hd, rfl⟩ := resolve_ok ih hrun
              exact hd.numbered ih
          | error e =>
              obtain ⟨g₁, hf, rfl⟩ := resolve_error ih hrun
              intro i s hs
              change (g₁.rollback _ _).scopes[i]? = some s at hs
              rw [hf.grows.rollback_scopes] at hs
              exact ih i s hs

/-- What every call keeps holds of every graph that calls reach. -/
theorem invariant
    {P : Graph → Prop}
    (hempty : P .empty)
    (hpush : ∀ {g g' : Graph} {parent : Option ScopeId} {spec : ScopeSpec}
      {found : Contributions} {inner : ScopeId}, P g →
      g.pushScope B parent spec found = .ok (inner, g') → P g')
    (hanswered : ∀ {g g₁ : Graph} {scope : ScopeId} {r : Request} {id : NodeId}, P g →
      g.Numbered → Derives B [] g (.request scope r id) g₁ →
      P { g₁ with roots := g₁.roots ++ [⟨scope, r, id⟩] })
    (hrefused : ∀ {g g₁ : Graph}, P g → g.Numbered → Fails B [] g g₁ →
      P (g₁.rollback g.nodes.size g.scopes.size))
    (h : Reachable B g) :
    P g := by
  induction h with
  | empty => exact hempty
  | scope _ hadd ih =>
      obtain ⟨found, -, hp⟩ := addScope_eq_ok hadd
      exact hpush ih hp
  | component _ hadd ih =>
      obtain ⟨spec, found, hp⟩ := addComponent_eq_ok hadd
      exact hpush ih hp
  | @resolve g scope r hg ih =>
      cases hrun : g.resolve B scope r with
      | mk outcome g' =>
          cases outcome with
          | ok id =>
              obtain ⟨g₁, hd, rfl⟩ := resolve_ok hg.numbered hrun
              exact hanswered ih hg.numbered hd
          | error e =>
              obtain ⟨g₁, hf, rfl⟩ := resolve_error hg.numbered hrun
              exact hrefused ih hg.numbered hf

end Reachable
end Graph
end Wiring
