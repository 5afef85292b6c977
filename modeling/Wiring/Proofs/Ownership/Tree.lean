import Wiring.Proofs.Dependency
import Wiring.Proofs.Offer
import Wiring.Proofs.Traversal

/-!
# The scope tree

Scopes are appended below scopes that are there, and inherit bindings and inputs from
their ancestors only.  So whatever a declaration says about its owner, the owner is the
scope that uses it or an ancestor.

**Results.**
* `Graph.Tree.pushScope`: the tree stays one when a scope is added.
* `Graph.Tree.above_ownerOf`: the owner of a declaration's node is above the scope.
* `Graph.Above.of_grows`: scopes that are there have no new ancestors, if every scope
  comes after its parent.
-/

namespace Wiring
namespace Graph

/-- Scopes know their position and inherit from ancestors only. -/
structure Tree (g : Graph) : Prop where
  numbered : g.Numbered
  bindings {scope above : ScopeId} {s : Scope} {e : Entry} :
    g.scope? scope = some s → (e, above) ∈ s.inheritedBindings → g.Above scope above
  inputs {scope : ScopeId} {s : Scope} {i : InheritedInput} :
    g.scope? scope = some s → i ∈ s.inheritedInputs → g.Above scope i.declaredIn

theorem Tree.empty : Graph.empty.Tree where
  numbered := fun _ _ hs => nomatch hs
  bindings := fun hs => nomatch hs
  inputs := fun hs => nomatch hs

/-- Only the scopes of a graph matter for its tree. -/
theorem Above.of_scopes_eq
    {g g' : Graph}
    {scope above : ScopeId}
    (h : g.Above scope above)
    (hscopes : g'.scopes = g.scopes) :
    g'.Above scope above :=
  h.mono (fun hs => by rw [hscopes]; exact hs)

theorem Tree.of_scopes_eq
    {g g' : Graph}
    (h : g.Tree)
    (hscopes : g'.scopes = g.scopes) :
    g'.Tree := by
  have hscope : ∀ id, g'.scope? id = g.scope? id := fun id => by
    unfold Graph.scope?
    rw [hscopes]
  refine
    { numbered := fun i s hs => h.numbered i s (by rw [← hscopes]; exact hs)
      bindings := fun hs hmem => ?_
      inputs := fun hs hmem => ?_ }
  · exact (h.bindings ((hscope _).symm.trans hs) hmem).of_scopes_eq hscopes
  · exact (h.inputs ((hscope _).symm.trans hs) hmem).of_scopes_eq hscopes

/-! ## Ancestors -/

/-- What a scope of a path sees is above the start of the path. -/
theorem Tree.above_of_mem_path
    {g : Graph}
    (h : g.Tree)
    {scope : ScopeId}
    {path : List Scope}
    (hpath : IsPath g (some scope) path)
    {s : Scope}
    (hs : s ∈ path) :
    g.Above scope s.id := by
  induction path generalizing scope with
  | nil => exact nomatch hs
  | cons s' ancestors ih =>
      obtain ⟨hs', hancestors⟩ := hpath
      rcases List.mem_cons.mp hs with rfl | hs
      · have hid : s.id = scope := h.numbered _ _ hs'
        rw [hid]
        exact .refl
      · cases hparent : s'.parent with
        | none =>
            rw [hparent] at hancestors
            cases ancestors with
            | nil => exact nomatch hs
            | cons => exact hancestors.elim
        | some parent =>
            rw [hparent] at hancestors
            exact .head ⟨s', hs', hparent⟩ (ih hancestors hs)

/-- The owner of a declaration's node is above the scope that uses the declaration. -/
theorem Tree.above_ownerOf
    {g : Graph}
    (h : g.Tree)
    {scope : ScopeId}
    {declaredIn : Option ScopeId}
    (hdeclared : g.Above scope (declaredIn.getD scope))
    (d : Declaration) :
    g.Above scope (ownerOf (g.path scope) scope declaredIn d) := by
  unfold ownerOf
  cases d.component with
  | none => exact hdeclared
  | some target =>
      dsimp only
      cases howner : ownerForTarget (g.path scope) target with
      | none => exact hdeclared
      | some owner =>
          obtain ⟨s, hfind, rfl⟩ := Option.map_eq_some_iff.mp howner
          exact h.above_of_mem_path (g.isPath_path scope) (List.mem_of_find?_eq_some hfind)

/-! ## New scopes -/

theorem Tree.pushScope
    {B : Build}
    {g g' : Graph}
    (h : g.Tree)
    {parent : Option ScopeId}
    {spec : ScopeSpec}
    {found : Contributions}
    {inner : ScopeId}
    (hp : g.pushScope B parent spec found = .ok (inner, g')) :
    g'.Tree := by
  have hnumbered := h.numbered.pushScope hp
  have hgrows := (Grows.refl g).pushScope hp
  obtain ⟨s₀, s, rfl, rfl, -, hsparent, -, hbindings, hinputs, hs⟩ := pushScope_eq_ok hp
  -- what the new scope inherits is above its parent
  have hinherits : ∀ {above : ScopeId},
      ((∃ e, (e, above) ∈ s.inheritedBindings)
        ∨ ∃ i ∈ s.inheritedInputs, i.declaredIn = above) →
      ∃ p, parent = some p ∧ g.Above p above := by
    intro above habove
    rcases hs with ⟨-, rfl⟩ | ⟨p, hbind, rfl, -⟩
    · rw [hbindings, hinputs] at habove
      rcases habove with ⟨e, hmem⟩ | ⟨i, hmem, -⟩
      · exact nomatch hmem
      · exact nomatch hmem
    · obtain ⟨pid, rfl, hpid⟩ := Option.bind_eq_some_iff.mp hbind
      refine ⟨pid, rfl, ?_⟩
      have hself : p.id = pid := h.numbered _ _ hpid
      rcases habove with ⟨e, hmem⟩ | ⟨i, hmem, rfl⟩
      · rcases List.mem_append.mp (List.mem_filter.mp hmem).1 with hmem | hmem
        · exact h.bindings hpid hmem
        · obtain ⟨e', -, heq⟩ := List.mem_map.mp hmem
          cases heq
          rw [hself]
          exact .refl
      · rcases List.mem_append.mp hmem with hmem | hmem
        · exact h.inputs hpid hmem
        · obtain ⟨p', -, rfl⟩ := List.mem_map.mp hmem
          change g.Above pid p.id
          rw [hself]
          exact .refl
  have hnew : ∀ {scope above : ScopeId}, scope.index = g.scopes.size →
      (∃ p, parent = some p ∧ g.Above p above) →
      Graph.Above { g with scopes := g.scopes.push s } scope above := by
    rintro scope above hindex ⟨p, rfl, habove⟩
    refine .head ⟨s, ?_, hsparent⟩ (habove.mono hgrows.scopes)
    change (g.scopes.push s)[scope.index]? = some s
    rw [hindex]
    simp
  refine
    { numbered := hnumbered
      bindings := fun hs' hmem => ?_
      inputs := fun hs' hmem => ?_ }
  · rcases scopes_push_eq_some hs' with hold | ⟨hindex, rfl⟩
    · exact (h.bindings hold hmem).mono hgrows.scopes
    · exact hnew hindex (hinherits (.inl ⟨_, hmem⟩))
  · rcases scopes_push_eq_some hs' with hold | ⟨hindex, rfl⟩
    · exact (h.inputs hold hmem).mono hgrows.scopes
    · exact hnew hindex (hinherits (.inr ⟨_, hmem, rfl⟩))

/-! ## Order -/

theorem Rooted.pushScope
    {B : Build}
    {g g' : Graph}
    (h : g.Rooted)
    {parent : Option ScopeId}
    {spec : ScopeSpec}
    {found : Contributions}
    {inner : ScopeId}
    (hp : g.pushScope B parent spec found = .ok (inner, g'))
    (hparent : ∀ p, parent = some p → p.index < g.scopes.size) :
    g'.Rooted := by
  obtain ⟨s₀, s, rfl, rfl, -, hsparent, -⟩ := pushScope_eq_ok hp
  intro i s' p hs' hp'
  rcases scopes_push_eq_some hs' with hold | ⟨rfl, rfl⟩
  · exact h i s' p hold hp'
  · exact hparent p (hsparent.symm.trans hp')

/-- Scopes that are there have the ancestors that they had. -/
theorem Above.of_grows
    {g g' : Graph}
    (hg : g.Grows g')
    (hrooted : g.Rooted)
    {scope above : ScopeId}
    (hscope : scope.index < g.scopes.size)
    (h : g'.Above scope above) :
    g.Above scope above := by
  induction h using Relation.ReflTransGen.head_induction_on with
  | refl => exact .refl
  | @head scope parent hstep _ ih =>
      obtain ⟨s, hs, hp⟩ := hstep
      have hold : g.scope? scope = some g.scopes[scope.index] := by
        simp [Graph.scope?, hscope]
      have heq : s = g.scopes[scope.index] :=
        Option.some.inj (hs.symm.trans (hg.scope? hold))
      have hs' : g.scope? scope = some s := heq ▸ hold
      have hlt := hrooted _ _ _ hs' hp
      exact .head ⟨s, hs', hp⟩ (ih (Nat.lt_trans hlt hscope))

end Graph

/-- A part of a search adds scopes below scopes that are there. -/
theorem Derives.rooted
    {B : Build}
    {stack : List NodeId}
    {J : Judgement}
    {g g' : Graph}
    (h : Derives B stack g J g')
    (hJ : J.Located g)
    (hg : g.Rooted) :
    g'.Rooted :=
  h.scopes
    (P := fun scopes => ∀ (i : Nat) (s : Scope) (parent : ScopeId),
      scopes[i]? = some s → s.parent = some parent → parent.index < i)
    (fun hg hparent hp => Graph.Rooted.pushScope hg hp (hparent trivial))
    (fun _ : True => hJ) hg

end Wiring
