import Wiring.Proofs.Collecting

/-!
# Scopes that fit together

A scope knows how far it is from the root and which inputs its ancestors have.  Both are
fixed when the scope is appended, from what its parent knows.

**Results.**
* `Graph.Charted.pushScope`: depths and inherited inputs stay right when a scope is added
  below one that is there.
* `Graph.Faithful.keyed`: every entry of a collection that a scope answers with has a key.
-/

namespace Wiring
namespace Graph

/-- Whether a scope is there and has an input of this type at this position. -/
def HasInput (g : Graph) (scope : ScopeId) (index : Nat) (t : Ty) : Prop :=
  ∃ s, g.scope? scope = some s ∧ s.inputs[index]? = some t

/-- Whether a scope is there, right below another, and takes these inputs. -/
def Encloses (g : Graph) (owner inner : ScopeId) (inputs : List Ty) : Prop :=
  ∃ s, g.scope? inner = some s ∧ s.parent = some owner ∧ s.inputs = inputs

/-- Whether every scope is one deeper than its parent and knows inputs that its ancestors
have. -/
structure Charted (g : Graph) : Prop where
  depth {scope parent : ScopeId} {s p : Scope} :
    g.scope? scope = some s → s.parent = some parent → g.scope? parent = some p →
    s.depth = p.depth + 1
  inputs {scope : ScopeId} {s : Scope} {i : InheritedInput} :
    g.scope? scope = some s → i ∈ s.inheritedInputs → g.HasInput i.declaredIn i.index i.type

section Scopes

variable {g g' : Graph}

theorem HasInput.of_grows
    (hscopes : ∀ {i : Nat} {s : Scope}, g.scopes[i]? = some s → g'.scopes[i]? = some s)
    {scope : ScopeId}
    {index : Nat}
    {t : Ty}
    (h : g.HasInput scope index t) :
    g'.HasInput scope index t := by
  obtain ⟨s, hs, ht⟩ := h
  exact ⟨s, hscopes hs, ht⟩

theorem Encloses.of_grows
    (hscopes : ∀ {i : Nat} {s : Scope}, g.scopes[i]? = some s → g'.scopes[i]? = some s)
    {owner inner : ScopeId}
    {inputs : List Ty}
    (h : g.Encloses owner inner inputs) :
    g'.Encloses owner inner inputs := by
  obtain ⟨s, hs, hrest⟩ := h
  exact ⟨s, hscopes hs, hrest⟩

theorem Charted.of_scopes_eq
    (h : g.Charted)
    (hscopes : g'.scopes = g.scopes) :
    g'.Charted := by
  have hscope : ∀ id, g'.scope? id = g.scope? id := fun id => by
    unfold Graph.scope?
    rw [hscopes]
  constructor
  · intro scope parent s p hs hparent hp
    rw [hscope] at hs hp
    exact h.depth hs hparent hp
  · intro scope s i hs hi
    rw [hscope] at hs
    exact (h.inputs hs hi).of_grows (fun hs => by rw [hscopes]; exact hs)

/-- A new scope opens its inputs below its parent. -/
theorem encloses_of_pushScope
    {B : Build}
    {parent inner : ScopeId}
    {spec : ScopeSpec}
    {found : Contributions}
    (h : g.pushScope B (some parent) spec found = .ok (inner, g')) :
    g'.Encloses parent inner spec.inputs := by
  obtain ⟨s₀, s, rfl, rfl, -, hparent, hspec, -⟩ := pushScope_eq_ok h
  have hs : Graph.scope? { g with scopes := g.scopes.push s } ⟨g.scopes.size⟩ = some s := by
    simp [Graph.scope?]
  exact ⟨s, hs, hparent, congrArg ScopeSpec.inputs hspec⟩

/-- Depths and inherited inputs stay right when a scope is added below one that is
there. -/
theorem Charted.pushScope
    {B : Build}
    (h : g.Charted)
    (hnumbered : g.Numbered)
    (hrooted : g.Rooted)
    {parent : Option ScopeId}
    (hparent : ∀ p, parent = some p → p.index < g.scopes.size)
    {spec : ScopeSpec}
    {found : Contributions}
    {inner : ScopeId}
    (hp : g.pushScope B parent spec found = .ok (inner, g')) :
    g'.Charted := by
  have hgrows := (Grows.refl g).pushScope hp
  obtain ⟨s₀, s, rfl, rfl, -, hsparent, -, -, hinputs, hs⟩ := pushScope_eq_ok hp
  have hold : ∀ {id : ScopeId} {p : Scope}, id.index < g.scopes.size →
      (g.scopes.push s)[id.index]? = some p → g.scope? id = some p := by
    intro id p hid hp
    rcases scopes_push_eq_some hp with hold | ⟨hindex, -⟩
    · exact hold
    · omega
  constructor
  · intro scope parent' s' p hs' hp' hparent'
    rcases scopes_push_eq_some hs' with hscope | ⟨-, rfl⟩
    · have hlt := hrooted _ _ _ hscope hp'
      have hsize := (Array.getElem?_eq_some_iff.mp hscope).1
      exact h.depth hscope hp' (hold (by omega) hparent')
    · obtain rfl : parent = some parent' := hsparent.symm.trans hp'
      have hfound : g.scope? parent' = some p := hold (hparent _ rfl) hparent'
      rcases hs with ⟨hnone, -⟩ | ⟨p', hbind, -, hdepth⟩
      · cases hnone.symm.trans hfound
      · cases hfound.symm.trans hbind
        exact hdepth
  · intro scope s' i hs' hi
    rcases scopes_push_eq_some hs' with hscope | ⟨-, rfl⟩
    · exact (h.inputs hscope hi).of_grows hgrows.scopes
    · rcases hs with ⟨-, rfl⟩ | ⟨p, hbind, rfl, -⟩
      · rw [hinputs] at hi
        exact nomatch hi
      · obtain ⟨pid, rfl, hpid⟩ := Option.bind_eq_some_iff.mp hbind
        rcases List.mem_append.mp hi with hi | hi
        · exact (h.inputs hpid hi).of_grows hgrows.scopes
        · obtain ⟨⟨t, index⟩, hin, rfl⟩ := List.mem_map.mp hi
          have hself : p.id = pid := hnumbered _ _ hpid
          refine ⟨p, hgrows.scope? (hself ▸ hpid), ?_⟩
          exact List.mem_zipIdx_iff_getElem?.mp hin

end Scopes
end Graph

/-! ## Entries of collections -/

/-- Every entry of a collection that a scope answers with has a key. -/
theorem Graph.Faithful.keyed
    {B : Build}
    {g : Graph}
    (hg : g.Faithful B)
    {scope : ScopeId}
    (hscope : scope.index < g.scopes.size)
    {kind : Collection.Kind}
    {t : Ty}
    {merged : Option (List Entry)}
    {m : Memo}
    (h : g.memo.merged B.registry B.catalog B.options kind t (g.path scope) = (.ok merged, m))
    {e : Entry}
    (he : e ∈ merged.getD []) :
    (Collection.key? kind e).isSome = true := by
  have hagrees := hg.memo.agrees hg.tree.numbered (hg.rooted.lineage hscope)
  have heq := Memo.merged_of_agrees _ _ _ kind t g.memo (g.path scope) hagrees
  rw [h] at heq
  by_cases hcollides : Collection.Collides kind
      (Collection.layered B.registry B.catalog kind t (g.path scope))
  · obtain ⟨k, name, existing, repeated, hrefused⟩ := Collection.merged_of_collides hcollides
    rw [hrefused] at heq
    cases heq
  · rw [Collection.merged_of_not_collides hcollides] at heq
    cases heq
    rw [Collection.outcome_getD, ← Collection.map_snd_table] at he
    obtain ⟨p, hp, rfl⟩ := List.mem_map.mp he
    exact Option.isSome_of_eq_some (Collection.key?_of_mem_table hp)

end Wiring
