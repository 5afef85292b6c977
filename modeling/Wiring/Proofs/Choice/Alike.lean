import Mathlib.Logic.Equiv.Basic
import Wiring.Proofs.Choice.Renaming

/-!
# Scopes that are alike

Two searches open scopes of the same content at different positions.  Such scopes are
alike: their ancestries are the same up to the positions.  Whatever is chosen in one of
them is chosen in the other.

**Results.**
* `Graph.AlikeBy.above`: what is above alike scopes is alike.
* `Graph.AlikeBy.opened`: scopes that are opened in the same way below alike scopes are
  alike.
-/

namespace Wiring

/-! ## Positions in a scope -/

namespace Scope

/-- Whether a scope is at a position or refers to it. -/
def Mentions (s : Scope) (id : ScopeId) : Prop :=
  s.id = id ∨ s.parent = some id ∨ (∃ e, (e, id) ∈ s.inheritedBindings)
    ∨ ∃ i ∈ s.inheritedInputs, i.declaredIn = id

/-- Only the positions that a scope mentions matter. -/
theorem rename_congr
    {ρ ρ' : ScopeId → ScopeId}
    {s : Scope}
    (h : ∀ id, s.Mentions id → ρ id = ρ' id) :
    s.rename ρ = s.rename ρ' := by
  have hid : ρ s.id = ρ' s.id := h _ (.inl rfl)
  have hparent : s.parent.map ρ = s.parent.map ρ' := by
    cases hp : s.parent with
    | none => rfl
    | some p => exact congrArg some (h p (.inr (.inl hp)))
  have hbindings : s.inheritedBindings.map (fun p => (p.1, ρ p.2))
      = s.inheritedBindings.map (fun p => (p.1, ρ' p.2)) :=
    List.map_congr_left (fun p hp => by
      rw [h p.2 (.inr (.inr (.inl ⟨p.1, hp⟩)))])
  have hinputs : s.inheritedInputs.map (fun i => { i with declaredIn := ρ i.declaredIn })
      = s.inheritedInputs.map (fun i => { i with declaredIn := ρ' i.declaredIn }) :=
    List.map_congr_left (fun i hi => by
      rw [h i.declaredIn (.inr (.inr (.inr ⟨i, hi, rfl⟩)))])
  unfold rename
  rw [hid, hparent, hbindings, hinputs]

theorem mentions_rename
    {ρ : ScopeId → ScopeId}
    {s : Scope}
    {id : ScopeId}
    (h : s.Mentions id) :
    (s.rename ρ).Mentions (ρ id) := by
  rcases h with rfl | hp | ⟨e, he⟩ | ⟨i, hi, rfl⟩
  · exact .inl rfl
  · refine .inr (.inl ?_)
    unfold rename
    rw [hp]
    rfl
  · exact .inr (.inr (.inl ⟨e, List.mem_map.mpr ⟨(e, id), he, rfl⟩⟩))
  · exact .inr (.inr (.inr ⟨_, List.mem_map.mpr ⟨i, hi, rfl⟩, rfl⟩))

@[simp] theorem rename_id (s : Scope) : s.rename (fun id => id) = s := by
  unfold rename
  simp

/-- What a scope inherits under other positions. -/
theorem inheritFrom_rename
    (ρ : ScopeId → ScopeId)
    (s parent : Scope) :
    (s.inheritFrom parent).rename ρ = (s.rename ρ).inheritFrom (parent.rename ρ) := by
  have hbindings : ((parent.inheritedBindings ++ parent.bindings.map
        (fun e => (e, parent.id))).filter (fun p => !s.declares p.1.declaration.type)).map
          (fun p => (p.1, ρ p.2))
      = (parent.inheritedBindings.map (fun p => (p.1, ρ p.2)) ++ parent.bindings.map
        (fun e => (e, ρ parent.id))).filter (fun p => !s.declares p.1.declaration.type) := by
    have hmap : parent.inheritedBindings.map (fun p => (p.1, ρ p.2))
          ++ parent.bindings.map (fun e => (e, ρ parent.id))
        = (parent.inheritedBindings ++ parent.bindings.map (fun e => (e, parent.id))).map
          (fun p => (p.1, ρ p.2)) := by
      rw [List.map_append, List.map_map]
      rfl
    rw [hmap, List.filter_map]
    rfl
  have hinputs : (parent.inheritedInputs ++ parent.inputs.zipIdx.map
        (fun p => ({ index := p.2, type := p.1, declaredIn := parent.id } :
          InheritedInput))).map (fun i => { i with declaredIn := ρ i.declaredIn })
      = parent.inheritedInputs.map (fun i => { i with declaredIn := ρ i.declaredIn })
        ++ parent.inputs.zipIdx.map
          (fun p => { index := p.2, type := p.1, declaredIn := ρ parent.id }) := by
    rw [List.map_append, List.map_map]
    rfl
  unfold inheritFrom rename
  dsimp only
  rw [hbindings, hinputs]
  rfl

end Scope

namespace Graph

/-- A scope mentions its own position and earlier ones. -/
theorem Faithful.le_of_mentions
    {B : Build}
    {g : Graph}
    (hg : g.Faithful B)
    {s : Scope}
    (hs : g.scope? s.id = some s)
    {id : ScopeId}
    (h : s.Mentions id) :
    id.index ≤ s.id.index := by
  have habove : ∀ {above : ScopeId}, g.Above s.id above → above.index ≤ s.id.index := by
    intro above habove
    induction habove with
    | refl => exact Nat.le_refl _
    | tail _ hstep ih =>
        obtain ⟨s', hs', hp⟩ := hstep
        exact Nat.le_trans (Nat.le_of_lt (hg.rooted _ _ _ hs' hp)) ih
  rcases h with rfl | hp | ⟨e, he⟩ | ⟨i, hi, rfl⟩
  · exact Nat.le_refl _
  · exact Nat.le_of_lt (hg.rooted _ _ _ hs hp)
  · exact habove (hg.tree.bindings hs he)
  · exact habove (hg.tree.inputs hs hi)

/-- Whether a scope of one graph has the ancestry of a scope of another one, under given
positions. -/
structure AlikeBy (ρ : Equiv.Perm ScopeId) (g' g : Graph) (scope : ScopeId) : Prop where
  left : Lineage g'.scopes scope (g'.path scope)
  right : Lineage g.scopes (ρ scope) ((g'.path scope).map (Scope.rename ρ))

/-- Whether two scopes of two graphs have the same ancestry up to the positions. -/
def Alike (g' g : Graph) (scope' scope : ScopeId) : Prop :=
  ∃ ρ : Equiv.Perm ScopeId, ρ scope' = scope ∧ g'.AlikeBy ρ g scope'

section Alike

variable {B : Build} {ρ : Equiv.Perm ScopeId} {g' g : Graph} {scope : ScopeId}

/-- A scope is like itself in all graphs where it and the scopes before it are. -/
theorem Rooted.alike
    {g₀ : Graph}
    (h : g₀.Rooted)
    (hg' : ∀ {i : Nat} {s : Scope}, g₀.scopes[i]? = some s → g'.scopes[i]? = some s)
    (hg : ∀ {i : Nat} {s : Scope}, g₀.scopes[i]? = some s → g.scopes[i]? = some s)
    (hscope : scope.index < g₀.scopes.size) :
    g'.Alike g scope scope := by
  have hpath : g'.path scope = g₀.path scope := h.path_eq_of_scopes hg' hscope
  have hrename : (g₀.path scope).map (Scope.rename (Equiv.refl ScopeId))
      = g₀.path scope := by
    have hid : Scope.rename (Equiv.refl ScopeId) = id := funext Scope.rename_id
    rw [hid, List.map_id]
  refine ⟨Equiv.refl _, rfl, ?_, ?_⟩
  · rw [hpath]
    exact (h.lineage hscope).mono hg'
  · rw [hpath, hrename]
    exact (h.lineage hscope).mono hg

/-- Ancestries that are the same stay so in a graph that has grown. -/
theorem AlikeBy.grows
    (h : g'.AlikeBy ρ g scope)
    {g₁ : Graph}
    (hg : g.Grows g₁) :
    g'.AlikeBy ρ g₁ scope :=
  ⟨h.left, h.right.mono hg.scopes⟩

theorem AlikeBy.path_eq (h : g'.AlikeBy ρ g scope) :
    g.path (ρ scope) = (g'.path scope).map (Scope.rename ρ) :=
  h.right.path_eq

/-- The parents of alike scopes are alike. -/
theorem AlikeBy.parent
    (h : g'.AlikeBy ρ g scope)
    {s : Scope}
    (hs : g'.scope? scope = some s)
    {parent : ScopeId}
    (hp : s.parent = some parent) :
    g'.AlikeBy ρ g parent := by
  obtain ⟨hleft, hright⟩ := h
  generalize g'.path scope = path at hleft hright
  cases hleft with
  | root hs' hp' =>
      obtain rfl := Option.some.inj (hs.symm.trans hs')
      exact nomatch hp.symm.trans hp'
  | @child _ parent' s' ancestors hs' hp' hlt hancestors =>
      obtain rfl := Option.some.inj (hs.symm.trans hs')
      obtain rfl := Option.some.inj (hp.symm.trans hp')
      have hparent : (s.rename ρ).parent = some (ρ parent) := by
        unfold Scope.rename
        rw [hp]
        rfl
      rw [List.map_cons] at hright
      generalize hrest : ancestors.map (Scope.rename ρ) = rest at hright
      cases hright with
      | root _ hnone => exact nomatch hparent.symm.trans hnone
      | @child _ parent'' _ _ _ hp'' _ hright =>
          obtain rfl := Option.some.inj (hparent.symm.trans hp'')
          have hpath := hancestors.path_eq
          refine ⟨by rw [hpath]; exact hancestors, ?_⟩
          rw [hpath, hrest]
          exact hright

/-- What is above alike scopes is alike. -/
theorem AlikeBy.above
    (h : g'.AlikeBy ρ g scope)
    {above : ScopeId}
    (habove : g'.Above scope above) :
    g'.AlikeBy ρ g above := by
  induction habove with
  | refl => exact h
  | tail _ hstep ih =>
      obtain ⟨s, hs, hp⟩ := hstep
      exact ih.parent hs hp

/-- An alike scope is at its position, under another one. -/
theorem AlikeBy.scope?
    (h : g'.AlikeBy ρ g scope)
    {s : Scope}
    (hs : g'.scope? scope = some s) :
    g.scope? (ρ scope) = some (s.rename ρ) := by
  obtain ⟨s', ancestors, hpath, hs'⟩ := h.left.head
  obtain rfl := Option.some.inj (hs.symm.trans hs')
  obtain ⟨s₁, ancestors₁, hpath₁, hs₁⟩ := h.right.head
  rw [hpath, List.map_cons] at hpath₁
  cases hpath₁
  exact hs₁

/-- What is above a scope is alike to what is above a scope that it is alike to. -/
theorem AlikeBy.above_right
    (h : g'.AlikeBy ρ g scope)
    {above : ScopeId}
    (habove : g.Above (ρ scope) above) :
    g'.AlikeBy ρ g (ρ.symm above) := by
  induction habove with
  | refl =>
      rw [Equiv.symm_apply_apply]
      exact h
  | @tail x y _ hstep ih =>
      obtain ⟨s, hs, hp⟩ := hstep
      obtain ⟨s', ancestors, -, hs'⟩ := ih.left.head
      have hrename := ih.scope? hs'
      rw [Equiv.apply_symm_apply] at hrename
      obtain rfl := Option.some.inj (hs.symm.trans hrename)
      obtain ⟨parent, hparent, rfl⟩ := Option.map_eq_some_iff.mp
        (show s'.parent.map ρ = some y from hp)
      rw [Equiv.symm_apply_apply]
      exact ih.parent hs' hparent

/-- The owners of a declaration's node are alike in alike scopes. -/
theorem AlikeBy.owner
    (h : g'.AlikeBy ρ g scope)
    (hg : g.Tree)
    {declaredIn : Option ScopeId}
    (hdeclared : g.Above (ρ scope) ((declaredIn.map ρ).getD (ρ scope)))
    (d : Declaration) :
    g'.Alike g (ownerOf (g'.path scope) scope declaredIn d)
      (ownerOf (g.path (ρ scope)) (ρ scope) (declaredIn.map ρ) d) := by
  have habove := hg.above_ownerOf hdeclared d
  have howner : ownerOf (g.path (ρ scope)) (ρ scope) (declaredIn.map ρ) d
      = ρ (ownerOf (g'.path scope) scope declaredIn d) := by
    rw [h.path_eq]
    exact ownerOf_rename ρ _ scope declaredIn d
  rw [howner] at habove ⊢
  have hright := h.above_right habove
  rw [Equiv.symm_apply_apply] at hright
  exact ⟨ρ, rfl, hright⟩

theorem Alike.grows
    {scope' : ScopeId}
    (h : g'.Alike g scope' scope)
    {g₁ : Graph}
    (hg : g.Grows g₁) :
    g'.Alike g₁ scope' scope := by
  obtain ⟨ρ, hscope, hρ⟩ := h
  exact ⟨ρ, hscope, hρ.grows hg⟩

/-- Alike scopes choose the same. -/
theorem AlikeBy.along
    (h : g'.AlikeBy ρ g scope)
    (B : Build)
    (t : Ty) :
    Pick.along B t (g.path (ρ scope)) = (Pick.along B t (g'.path scope)).rename ρ := by
  rw [h.path_eq]
  exact Pick.along_rename B _ t ρ.injective

/-! ## Opened scopes -/

/-- Whether a scope was opened below another one for given contributions. -/
def Opens (B : Build) (g : Graph) (s : Scope) (spec : ScopeSpec) (found : Contributions)
    (inner : ScopeId) : Prop :=
  ∃ s₀, Scope.create B.options inner (some (s.id, s.depth)) spec found = .ok s₀
    ∧ g.scope? inner = some (s₀.inheritFrom s)
    ∧ s.id.index < inner.index

/-- A scope that can be built at one position can be built at every position. -/
theorem create_at
    {options : Options}
    {id parent : ScopeId}
    {depth : Nat}
    {spec : ScopeSpec}
    {found : Contributions}
    {s : Scope}
    (id' parent' : ScopeId)
    (h : Scope.create options id (some (parent, depth)) spec found = .ok s) :
    Scope.create options id' (some (parent', depth)) spec found
      = .ok { s with id := id', parent := some parent' } := by
  unfold Scope.create at h ⊢
  split at h
  · cases h
  · cases h
    rfl

/-- A scope below one that is there is one deeper and inherits from it. -/
theorem pushScope_of_create
    {parent : ScopeId}
    {p s : Scope}
    {spec : ScopeSpec}
    {found : Contributions}
    (hp : g.scope? parent = some p)
    (h : Scope.create B.options ⟨g.scopes.size⟩ (some (parent, p.depth)) spec found
      = .ok s) :
    g.pushScope B (some parent) spec found
      = .ok (⟨g.scopes.size⟩, { g with scopes := g.scopes.push (s.inheritFrom p) }) := by
  have hdepth : ((g.scope? parent).map Scope.depth).getD 0 = p.depth := by
    rw [hp]
    rfl
  unfold Graph.pushScope
  dsimp only [Option.map_some, Option.bind_some]
  rw [hdepth, h, hp]

/-- A scope and its ancestors mention earlier positions only, so a renaming may be changed
for a position behind the scope. -/
theorem AlikeBy.rename_later
    (h : g'.AlikeBy ρ g scope)
    (hg' : g'.Faithful B)
    (hg : g.Faithful B)
    {later : ScopeId}
    (hlater : scope.index < later.index) :
    ∀ s ∈ g'.path scope,
      s.rename (ρ.trans (Equiv.swap (ρ later) ⟨g.scopes.size⟩)) = s.rename ρ := by
  intro s hmem
  have hleft := h.left.scope?_of_mem hg'.tree.numbered hmem
  have hright := h.right.scope?_of_mem hg.tree.numbered (List.mem_map_of_mem hmem)
  refine Scope.rename_congr (fun id hmention => ?_)
  have hne : id ≠ later := by
    rintro rfl
    have hle := hg'.le_of_mentions hleft hmention
    have hle' := h.left.le_of_mem hg'.tree.numbered hmem
    omega
  have hne' : ρ id ≠ ⟨g.scopes.size⟩ := by
    intro heq
    have hle := hg.le_of_mentions hright (Scope.mentions_rename hmention)
    have hlt := lt_size_of_scope? hright
    rw [heq] at hle
    exact absurd hlt (Nat.not_lt.mpr hle)
  exact Equiv.swap_apply_of_ne_of_ne (fun heq => hne (ρ.injective heq)) hne'

/-- Where a scope was opened below one scope, one can be opened below an alike scope,
and it is alike. -/
theorem AlikeBy.opened
    {s : Scope}
    (h : g'.AlikeBy ρ g s.id)
    (hg' : g'.Faithful B)
    (hg : g.Faithful B)
    (hs : g'.scope? s.id = some s)
    {spec : ScopeSpec}
    {found : Contributions}
    {inner' : ScopeId}
    (hopens : g'.Opens B s spec found inner') :
    ∃ inner g₁, g.pushScope B (some (ρ s.id)) spec found = .ok (inner, g₁)
      ∧ g'.Alike g₁ inner' inner := by
  obtain ⟨s₀, hcreate, hinner', hlt⟩ := hopens
  obtain ⟨hid, hparent, -, -, hbindings, hinputs⟩ := create_eq_ok hcreate
  have hs' : g.scope? (ρ s.id) = some (s.rename ρ) := h.scope? hs
  have hsize : (ρ s.id).index < g.scopes.size := Graph.lt_size_of_scope? hs'
  let inner : ScopeId := ⟨g.scopes.size⟩
  -- the positions that are mentioned below stay, and the new ones correspond
  let ρ' : Equiv.Perm ScopeId := ρ.trans (Equiv.swap (ρ inner') inner)
  have hnew : ρ' inner' = inner := by simp [ρ']
  have hold : ∀ s' ∈ g'.path s.id, s'.rename ρ' = s'.rename ρ :=
    h.rename_later hg' hg hlt
  have hself : s ∈ g'.path s.id := by
    obtain ⟨s', ancestors, hpath, hhead⟩ := h.left.head
    obtain rfl := Option.some.inj (hs.symm.trans hhead)
    rw [hpath]
    exact List.mem_cons_self
  have hmap : (g'.path s.id).map (Scope.rename ρ')
      = (g'.path s.id).map (Scope.rename ρ) := List.map_congr_left hold
  have hρ' : ρ' s.id = ρ s.id := congrArg Scope.id (hold s hself)
  -- the scope that is opened
  let s₁ : Scope := { s₀ with id := inner, parent := some (ρ s.id) }
  have hs₁ : (s₀.inheritFrom s).rename ρ' = s₁.inheritFrom (s.rename ρ) := by
    have hs₀ : s₀.rename ρ' = s₁ := by
      unfold Scope.rename
      rw [hid, hparent, hbindings, hinputs, hnew]
      simp [s₁, hbindings, hinputs, hρ']
    rw [Scope.inheritFrom_rename, hs₀, hold s hself]
  have hcreate₁ : Scope.create B.options inner (some (ρ s.id, s.depth)) spec found
      = .ok s₁ := create_at inner (ρ s.id) hcreate
  have hpush : g.pushScope B (some (ρ s.id)) spec found
      = .ok (inner, { g with scopes := g.scopes.push (s₁.inheritFrom (s.rename ρ)) }) :=
    pushScope_of_create hs' hcreate₁
  have hlineage : Lineage g'.scopes inner' (s₀.inheritFrom s :: g'.path s.id) :=
    .child hinner' hparent hlt h.left
  refine ⟨inner, _, hpush, ρ', hnew, ?_, ?_⟩
  · rw [hlineage.path_eq]
    exact hlineage
  · rw [hlineage.path_eq, List.map_cons, hs₁, hnew, hmap]
    have hparent₁ : (s₁.inheritFrom (s.rename ρ)).parent = some (ρ s.id) := rfl
    refine .child ?_ hparent₁ hsize ?_
    · simp [inner]
    · exact h.right.mono ((Grows.refl g).pushScope hpush).scopes

end Alike

end Graph
end Wiring
