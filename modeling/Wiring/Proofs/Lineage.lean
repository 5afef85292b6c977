import Wiring.Proofs.Ownership.Tree

/-!
# Lineages

In a tree whose scopes come after their parents, the ancestry of a scope is computed
with more steps than it needs, and it is the same in every larger tree.  A lineage is
such an ancestry as a relation, which can be taken apart along the parent links.

**Results.**
* `Lineage.path_eq`: the ancestry of a scope is its lineage.
* `Graph.Rooted.path_eq_of_scopes`: scopes that are there keep their ancestry.
* `Graph.Rooted.mem_path_of_above`: what is above a scope is on its ancestry.
-/

namespace Wiring

/-- A scope and its ancestors up to the root, each of them after its parent. -/
inductive Lineage (scopes : Array Scope) : ScopeId → List Scope → Prop
  | root {id : ScopeId} {s : Scope} :
      scopes[id.index]? = some s →
      s.parent = none →
      Lineage scopes id [s]
  | child {id parent : ScopeId} {s : Scope} {ancestors : List Scope} :
      scopes[id.index]? = some s →
      s.parent = some parent →
      parent.index < id.index →
      Lineage scopes parent ancestors →
      Lineage scopes id (s :: ancestors)

namespace Lineage

variable {scopes : Array Scope} {id : ScopeId} {path : List Scope}

/-- A lineage starts with the scope itself. -/
theorem head
    (h : Lineage scopes id path) :
    ∃ s ancestors, path = s :: ancestors ∧ scopes[id.index]? = some s := by
  cases h with
  | root hs _ => exact ⟨_, [], rfl, hs⟩
  | child hs _ _ _ => exact ⟨_, _, rfl, hs⟩

theorem ne_nil (h : Lineage scopes id path) : path ≠ [] := by
  obtain ⟨s, ancestors, rfl, -⟩ := h.head
  exact List.cons_ne_nil s ancestors

theorem lt_size (h : Lineage scopes id path) : id.index < scopes.size := by
  obtain ⟨s, ancestors, -, hs⟩ := h.head
  exact (Array.getElem?_eq_some_iff.mp hs).1

/-- A lineage stays one when scopes are added. -/
theorem mono
    {scopes' : Array Scope}
    (hscopes : ∀ {i : Nat} {s : Scope}, scopes[i]? = some s → scopes'[i]? = some s)
    (h : Lineage scopes id path) :
    Lineage scopes' id path := by
  induction h with
  | root hs hp => exact .root (hscopes hs) hp
  | child hs hp hlt _ ih => exact .child (hscopes hs) hp hlt ih

/-- Enough steps lead up to the root. -/
theorem ancestryWithin
    (h : Lineage scopes id path)
    {steps : Nat}
    (hsteps : id.index < steps) :
    ancestryWithin scopes steps id = path := by
  induction h generalizing steps with
  | root hs hp =>
      cases steps with
      | zero => omega
      | succ steps => simp [Wiring.ancestryWithin, hs, hp]
  | child hs hp hlt _ ih =>
      cases steps with
      | zero => omega
      | succ steps =>
          have hrest := @ih steps (by omega)
          simp [Wiring.ancestryWithin, hs, hp, hrest]

/-- The ancestry of a scope is its lineage. -/
theorem path_eq
    {g : Graph}
    (h : Lineage g.scopes id path) :
    g.path id = path :=
  h.ancestryWithin h.lt_size

/-- The scopes of a lineage are at their positions. -/
theorem scope?_of_mem
    {g : Graph}
    (hg : g.Numbered)
    (h : Lineage g.scopes id path)
    {s : Scope}
    (hs : s ∈ path) :
    g.scope? s.id = some s := by
  have hself : ∀ {i : ScopeId} {s' : Scope}, g.scopes[i.index]? = some s' →
      g.scope? s'.id = some s' := by
    intro i s' hs'
    rw [hg _ _ hs']
    exact hs'
  induction h with
  | root hroot _ =>
      rw [List.mem_singleton.mp hs]
      exact hself hroot
  | child hhead _ _ _ ih =>
      rcases List.mem_cons.mp hs with rfl | hs
      · exact hself hhead
      · exact ih hs

/-- The scopes of a lineage come before the scope itself. -/
theorem le_of_mem
    {g : Graph}
    (hg : g.Numbered)
    (h : Lineage g.scopes id path)
    {s : Scope}
    (hs : s ∈ path) :
    s.id.index ≤ id.index := by
  induction h with
  | root hroot _ =>
      rw [List.mem_singleton.mp hs, hg _ _ hroot]
  | child hhead _ hlt _ ih =>
      rcases List.mem_cons.mp hs with rfl | hs
      · rw [hg _ _ hhead]
      · exact Nat.le_trans (ih hs) (Nat.le_of_lt hlt)

end Lineage

namespace Graph

/-- Every scope of a rooted tree has a lineage. -/
theorem Rooted.lineage
    {g : Graph}
    (h : g.Rooted)
    {id : ScopeId}
    (hid : id.index < g.scopes.size) :
    Lineage g.scopes id (g.path id) := by
  suffices hlineage : ∃ path, Lineage g.scopes id path by
    obtain ⟨path, hpath⟩ := hlineage
    rw [hpath.path_eq]
    exact hpath
  have hind : ∀ (bound : Nat) (id : ScopeId), id.index < bound →
      id.index < g.scopes.size → ∃ path, Lineage g.scopes id path := by
    intro bound
    induction bound with
    | zero => intro id hbound; omega
    | succ bound ih =>
        intro id hbound hid
        have hs : g.scopes[id.index]? = some g.scopes[id.index] := by
          simp [hid]
        cases hp : g.scopes[id.index].parent with
        | none => exact ⟨_, .root hs hp⟩
        | some parent =>
            have hlt := h _ _ _ hs hp
            obtain ⟨ancestors, hancestors⟩ := ih parent (by omega) (by omega)
            exact ⟨_, .child hs hp hlt hancestors⟩
  exact hind (id.index + 1) id (by omega) hid

/-- Scopes that are there keep their ancestry. -/
theorem Rooted.path_eq_of_scopes
    {g g' : Graph}
    (h : g.Rooted)
    (hscopes : ∀ {i : Nat} {s : Scope}, g.scopes[i]? = some s → g'.scopes[i]? = some s)
    {id : ScopeId}
    (hid : id.index < g.scopes.size) :
    g'.path id = g.path id :=
  ((h.lineage hid).mono hscopes).path_eq

/-- The ancestry of a scope goes on with that of its parent. -/
theorem Rooted.path_eq_cons
    {g : Graph}
    (h : g.Rooted)
    {scope parent : ScopeId}
    {s : Scope}
    (hs : g.scopes[scope.index]? = some s)
    (hp : s.parent = some parent) :
    g.path scope = s :: g.path parent := by
  have hlt := h _ _ _ hs hp
  have hsize := (Array.getElem?_eq_some_iff.mp hs).1
  exact (Lineage.child hs hp hlt (h.lineage (by omega))).path_eq

/-- What is above a scope is on its ancestry. -/
theorem Rooted.mem_path_of_above
    {g : Graph}
    (h : g.Rooted)
    {scope above : ScopeId}
    (hscope : scope.index < g.scopes.size)
    (habove : g.Above scope above) :
    ∃ s ∈ g.path scope, g.scopes[above.index]? = some s := by
  induction habove using Relation.ReflTransGen.head_induction_on with
  | refl =>
      obtain ⟨s, ancestors, hpath, hs⟩ := (h.lineage hscope).head
      exact ⟨s, hpath ▸ List.mem_cons_self, hs⟩
  | @head scope parent hstep _ ih =>
      obtain ⟨s, hs, hp⟩ := hstep
      have hlt := h _ _ _ hs hp
      obtain ⟨s', hmem, hs'⟩ := ih (by omega)
      exact ⟨s', h.path_eq_cons hs hp ▸ List.mem_cons_of_mem s hmem, hs'⟩

end Graph
end Wiring
