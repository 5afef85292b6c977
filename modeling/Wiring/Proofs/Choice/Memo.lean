import Wiring.Proofs.Lineage
import Wiring.Proofs.Reachable

/-!
# A memo that can be relied on

What scopes have kept of collections and interceptors is what would be merged again
along their ancestries.  A search keeps it so, whether it ends with an answer or not,
and so does cutting a graph back.

**Results.**
* `Graph.Faithful.merges`: merging keeps a graph faithful.
* `Derives.faithful`, `Fails.faithful`: a search keeps a graph faithful.
* `Graph.Faithful.rollback`: cutting back keeps a graph faithful.
* `Graph.Faithful.resolve`: so does a request.
-/

namespace Wiring

/-- What a memo keeps is what would be merged again, for scopes with given ancestries
at given positions. -/
structure Memo.Right (B : Build) (m : Memo) (size : Nat) (paths : ScopeId → List Scope) :
    Prop where
  collections {scope : ScopeId} {kind : Collection.Kind} {t : Ty}
      {found : Option (List Entry)} :
    m.collection? scope kind t = some found →
    scope.index < size
      ∧ Collection.merged B.registry B.catalog B.options kind t (paths scope) = .ok found
  interceptors {scope : ScopeId} {t : Ty} {found : List Entry} :
    m.interceptors? scope t = some found →
    scope.index < size
      ∧ found = Interception.visible B.registry B.catalog t (paths scope)

/-- A rooted tree whose scopes keep what they would merge again. -/
structure Graph.Faithful (B : Build) (g : Graph) : Prop where
  tree : g.Tree
  rooted : g.Rooted
  memo : g.memo.Right B g.scopes.size g.path

/-- An entry that is found after entries with some keys were dropped is found before. -/
theorem lookup_filter_eq_some
    {α β : Type}
    [BEq α]
    [LawfulBEq α]
    {p : α → Bool}
    {entries : List (α × β)}
    {key : α}
    {value : β}
    (h : (entries.filter (fun e => p e.1)).lookup key = some value) :
    p key = true ∧ entries.lookup key = some value := by
  induction entries with
  | nil => exact nomatch h
  | cons e entries ih =>
      rw [List.lookup_cons]
      by_cases hp : p e.1 = true
      · rw [List.filter_cons_of_pos (by exact hp), List.lookup_cons] at h
        split at h
        · rename_i heq
          rw [eq_of_beq heq]
          exact ⟨hp, h⟩
        · exact ih h
      · rw [List.filter_cons_of_neg (by exact hp)] at h
        obtain ⟨hkey, hfound⟩ := ih h
        have hne : (key == e.1) = false := by
          rw [beq_eq_false_iff_ne]
          rintro rfl
          exact hp hkey
        rw [hne]
        exact ⟨hkey, hfound⟩

namespace Memo

variable {B : Build} {g : Graph} {m : Memo} {id : ScopeId} {path : List Scope}

theorem collection?_restrict
    {size : Nat}
    {scope : ScopeId}
    {kind : Collection.Kind}
    {t : Ty}
    {found : Option (List Entry)}
    (h : (m.restrict size).collection? scope kind t = some found) :
    scope.index < size ∧ m.collection? scope kind t = some found := by
  unfold collection? restrict at h
  have hkept := lookup_filter_eq_some
    (p := fun k : ScopeId × Collection.Kind × Ty => decide (k.1.index < size)) h
  exact ⟨of_decide_eq_true hkept.1, hkept.2⟩

theorem interceptors?_restrict
    {size : Nat}
    {scope : ScopeId}
    {t : Ty}
    {found : List Entry}
    (h : (m.restrict size).interceptors? scope t = some found) :
    scope.index < size ∧ m.interceptors? scope t = some found := by
  unfold interceptors? restrict at h
  have hkept := lookup_filter_eq_some
    (p := fun k : ScopeId × Ty => decide (k.1.index < size)) h
  exact ⟨of_decide_eq_true hkept.1, hkept.2⟩

/-- What is right for all scopes agrees with what would be merged again along a
lineage. -/
theorem Right.agrees
    (h : m.Right B g.scopes.size g.path)
    (hg : g.Numbered)
    (hpath : Lineage g.scopes id path) :
    m.Agrees B.registry B.catalog B.options path := by
  have hhead : ∀ {id : ScopeId} {s : Scope} {ancestors : List Scope},
      g.scopes[id.index]? = some s → Lineage g.scopes id (s :: ancestors) →
      g.path s.id = s :: ancestors := by
    intro id s ancestors hs hpath
    have hid : s.id = id := hg _ _ hs
    rw [hid]
    exact hpath.path_eq
  induction hpath with
  | @root id s hs hp =>
      have hs' := hhead hs (.root hs hp)
      exact ⟨fun kind t found hfound => hs' ▸ (h.collections hfound).2,
        fun t found hfound => hs' ▸ (h.interceptors hfound).2, trivial⟩
  | @child id parent s ancestors hs hp hlt hancestors ih =>
      have hs' := hhead hs (.child hs hp hlt hancestors)
      exact ⟨fun kind t found hfound => hs' ▸ (h.collections hfound).2,
        fun t found hfound => hs' ▸ (h.interceptors hfound).2, ih⟩

/-- A scope that is there may keep what it merges. -/
theorem Right.keepCollection
    (h : m.Right B g.scopes.size g.path)
    (hid : id.index < g.scopes.size)
    {kind : Collection.Kind}
    {t : Ty}
    {found : Option (List Entry)}
    (hfound : Collection.merged B.registry B.catalog B.options kind t (g.path id)
      = .ok found) :
    (m.keepCollection id kind t found).Right B g.scopes.size g.path where
  collections := by
    intro scope kind' t' found' hkept
    unfold collection? Memo.keepCollection at hkept
    rw [List.lookup_cons] at hkept
    split at hkept
    · rename_i heq
      obtain ⟨rfl, rfl, rfl⟩ : scope = id ∧ kind' = kind ∧ t' = t := by simpa using heq
      cases hkept
      exact ⟨hid, hfound⟩
    · exact h.collections hkept
  interceptors := h.interceptors

theorem Right.keepInterceptors
    (h : m.Right B g.scopes.size g.path)
    (hid : id.index < g.scopes.size)
    (t : Ty) :
    (m.keepInterceptors id t
      (Interception.visible B.registry B.catalog t (g.path id))).Right B g.scopes.size
        g.path where
  collections := h.collections
  interceptors := by
    intro scope t' found' hkept
    unfold interceptors? Memo.keepInterceptors at hkept
    rw [List.lookup_cons] at hkept
    split at hkept
    · rename_i heq
      obtain ⟨rfl, rfl⟩ : scope = id ∧ t' = t := by simpa using heq
      cases hkept
      exact ⟨hid, rfl⟩
    · exact h.interceptors hkept

/-- Merging along a lineage keeps what is right. -/
theorem Right.merged
    (h : m.Right B g.scopes.size g.path)
    (hg : g.Numbered)
    (kind : Collection.Kind)
    (t : Ty)
    (hpath : Lineage g.scopes id path) :
    (Memo.merged B.registry B.catalog B.options kind t path m).2.Right B g.scopes.size
      g.path := by
  have hstep : ∀ {s : Scope} {ancestors : List Scope},
      g.scopes[s.id.index]? = some s → Lineage g.scopes s.id (s :: ancestors) →
      m.Agrees B.registry B.catalog B.options ancestors →
      (Memo.merged B.registry B.catalog B.options kind t ancestors m).2.Right B
        g.scopes.size g.path →
      (Memo.merged B.registry B.catalog B.options kind t (s :: ancestors) m).2.Right B
        g.scopes.size g.path := by
    intro s ancestors hs hlineage hagrees hrest
    have hancestors := merged_of_agrees B.registry B.catalog B.options kind t m ancestors
      hagrees
    rw [Memo.merged]
    split
    · exact h
    · rcases hm : Memo.merged B.registry B.catalog B.options kind t ancestors m with
        ⟨_ | inherited, m'⟩
      · rw [hm] at hrest
        exact hrest
      · rw [hm] at hrest hancestors
        dsimp only
        cases hext : Collection.extended B.registry B.catalog B.options kind t s inherited with
        | error e => exact hrest
        | ok found =>
            refine hrest.keepCollection hlineage.lt_size ?_
            rw [hlineage.path_eq, Collection.merged, ← hancestors]
            exact hext
  induction hpath with
  | @root id s hs hp =>
      obtain rfl : s.id = id := hg _ _ hs
      exact hstep hs (.root hs hp) trivial h
  | @child id parent s ancestors hs hp hlt hancestors ih =>
      obtain rfl : s.id = id := hg _ _ hs
      exact hstep hs (.child hs hp hlt hancestors) (h.agrees hg hancestors) ih

/-- The same of interceptors. -/
theorem Right.visible
    (h : m.Right B g.scopes.size g.path)
    (hg : g.Numbered)
    (t : Ty)
    (hpath : Lineage g.scopes id path) :
    (Memo.visible B.registry B.catalog t path m).2.Right B g.scopes.size g.path := by
  have hstep : ∀ {s : Scope} {ancestors : List Scope},
      g.scopes[s.id.index]? = some s → Lineage g.scopes s.id (s :: ancestors) →
      m.Agrees B.registry B.catalog B.options ancestors →
      (Memo.visible B.registry B.catalog t ancestors m).2.Right B g.scopes.size g.path →
      (Memo.visible B.registry B.catalog t (s :: ancestors) m).2.Right B g.scopes.size
        g.path := by
    intro s ancestors hs hlineage hagrees hrest
    have hancestors := visible_of_agrees B.registry B.catalog B.options t m ancestors
      hagrees
    rw [Memo.visible]
    split
    · exact h
    · have hkeep := hrest.keepInterceptors hlineage.lt_size t
      rw [hlineage.path_eq, Interception.visible, ← hancestors] at hkeep
      exact hkeep
  induction hpath with
  | @root id s hs hp =>
      obtain rfl : s.id = id := hg _ _ hs
      exact hstep hs (.root hs hp) trivial h
  | @child id parent s ancestors hs hp hlt hancestors ih =>
      obtain rfl : s.id = id := hg _ _ hs
      exact hstep hs (.child hs hp hlt hancestors) (h.agrees hg hancestors) ih

end Memo

namespace Graph

variable {B : Build} {g g' : Graph}

/-- The ancestry of a position without a scope is empty. -/
theorem path_eq_nil
    {id : ScopeId}
    (hid : ¬ id.index < g.scopes.size) :
    g.path id = [] := by
  have hnone : g.scopes[id.index]? = none :=
    Array.getElem?_eq_none_iff.mpr (Nat.le_of_not_lt hid)
  unfold Graph.path ancestry
  cases g.scopes.size with
  | zero => rfl
  | succ steps => simp [ancestryWithin, hnone]

theorem Faithful.empty : Graph.empty.Faithful B where
  tree := .empty
  rooted := fun _ _ _ hs => nomatch hs
  memo :=
    { collections := fun h => nomatch h
      interceptors := fun h => nomatch h }

/-- Merging keeps a graph faithful. -/
theorem Faithful.merges
    (h : g.Faithful B)
    {m : Memo}
    (hm : g.Merges B m) :
    (g.withMemo m).Faithful B := by
  refine
    { tree := h.tree.of_scopes_eq rfl
      rooted := h.rooted
      memo := ?_ }
  change m.Right B g.scopes.size g.path
  induction hm with
  | none => exact h.memo
  | collection kind t scope _ ih =>
      by_cases hscope : scope.index < g.scopes.size
      · exact ih.merged h.tree.numbered kind t (h.rooted.lineage hscope)
      · rw [path_eq_nil hscope]
        exact ih
  | interceptors t scope _ ih =>
      by_cases hscope : scope.index < g.scopes.size
      · exact ih.visible h.tree.numbered t (h.rooted.lineage hscope)
      · rw [path_eq_nil hscope]
        exact ih

/-- Only scopes and memo matter. -/
theorem Faithful.congr
    (h : g.Faithful B)
    (hscopes : g'.scopes = g.scopes)
    (hmemo : g'.memo = g.memo) :
    g'.Faithful B := by
  have hpath : g'.path = g.path := by
    unfold Graph.path
    rw [hscopes]
  refine ⟨h.tree.of_scopes_eq hscopes, ?_, ?_⟩
  · intro i s parent hs hp
    rw [hscopes] at hs
    exact h.rooted i s parent hs hp
  · rw [hmemo, hpath, hscopes]
    exact h.memo

/-- One more scope below one that is there, if any, keeps a graph faithful. -/
theorem Faithful.pushScope
    (h : g.Faithful B)
    {parent : Option ScopeId}
    {spec : ScopeSpec}
    {found : Contributions}
    {inner : ScopeId}
    (hparent : ∀ p, parent = some p → p.index < g.scopes.size)
    (hp : g.pushScope B parent spec found = .ok (inner, g')) :
    g'.Faithful B := by
  have hgrows := (Grows.refl g).pushScope hp
  refine ⟨h.tree.pushScope hp, h.rooted.pushScope hp hparent, ?_⟩
  rw [pushScope_memo hp]
  refine
    { collections := fun hfound => ?_
      interceptors := fun hfound => ?_ }
  · obtain ⟨hscope, hmerged⟩ := h.memo.collections hfound
    rw [h.rooted.path_eq_of_scopes hgrows.scopes hscope]
    exact ⟨Nat.lt_of_lt_of_le hscope hgrows.size_scopes, hmerged⟩
  · obtain ⟨hscope, hvisible⟩ := h.memo.interceptors hfound
    rw [h.rooted.path_eq_of_scopes hgrows.scopes hscope]
    exact ⟨Nat.lt_of_lt_of_le hscope hgrows.size_scopes, hvisible⟩

/-- Cutting a faithful graph back to one that it grew from keeps what is right. -/
theorem Faithful.rollback
    (hg : g.Faithful B)
    (h : g'.Faithful B)
    (hgrows : g.Grows g') :
    (g'.rollback g.nodes.size g.scopes.size).Faithful B := by
  have hscopes : (g'.rollback g.nodes.size g.scopes.size).scopes = g.scopes :=
    hgrows.rollback_scopes
  refine (Faithful.congr (g := g.withMemo (g'.memo.restrict g.scopes.size)) ?_ hscopes rfl)
  refine ⟨hg.tree.of_scopes_eq rfl, hg.rooted, ?_⟩
  refine
    { collections := fun hfound => ?_
      interceptors := fun hfound => ?_ }
  · obtain ⟨hscope, hkept⟩ := Memo.collection?_restrict hfound
    obtain ⟨-, hmerged⟩ := h.memo.collections hkept
    rw [hg.rooted.path_eq_of_scopes hgrows.scopes hscope] at hmerged
    exact ⟨hscope, hmerged⟩
  · obtain ⟨hscope, hkept⟩ := Memo.interceptors?_restrict hfound
    obtain ⟨-, hvisible⟩ := h.memo.interceptors hkept
    rw [hg.rooted.path_eq_of_scopes hgrows.scopes hscope] at hvisible
    exact ⟨hscope, hvisible⟩

end Graph

/-! ## Searches -/

/-- A finished part of a search keeps a graph faithful. -/
theorem Derives.faithful
    {B : Build}
    {stack : List NodeId}
    {J : Judgement}
    {g g' : Graph}
    (h : Derives B stack g J g')
    (hJ : J.Located g)
    (hg : g.Faithful B) :
    g'.Faithful B :=
  h.surroundings (fun hscopes hmemo hg => hg.congr hscopes hmemo)
    (fun hg hm => hg.merges hm)
    (fun hg hparent hp => hg.pushScope (hparent trivial) hp) (fun _ : True => hJ) hg

/-- So does a search that stops at an error. -/
theorem Fails.faithful
    {B : Build}
    {stack : List NodeId}
    {g g' : Graph}
    (h : Fails B stack g g')
    (hg : g.Faithful B) :
    g'.Faithful B :=
  h.surroundings (fun hscopes hmemo hg => hg.congr hscopes hmemo)
    (fun hg hm => hg.merges hm) (fun hg hparent hp => hg.pushScope hparent hp) hg

namespace Graph

variable {B : Build} {g : Graph}

/-- A request keeps a graph faithful and its scopes. -/
theorem Faithful.resolve
    (hg : g.Faithful B)
    (scope : ScopeId)
    (r : Request) :
    (g.resolve B scope r).2.Faithful B
      ∧ ∀ {i : Nat} {s : Scope}, g.scopes[i]? = some s →
        (g.resolve B scope r).2.scopes[i]? = some s := by
  cases hrun : g.resolve B scope r with
  | mk result g' =>
      cases result with
      | ok id =>
          obtain ⟨g₁, hd, rfl⟩ := resolve_ok hg.tree.numbered hrun
          exact ⟨(hd.faithful trivial hg).congr rfl rfl, hd.grows.scopes⟩
      | error e =>
          obtain ⟨g₁, hf, rfl⟩ := resolve_error hg.tree.numbered hrun
          refine ⟨hg.rollback (hf.faithful hg) hf.grows, fun hs => ?_⟩
          rw [hf.grows.rollback_scopes]
          exact hs

end Graph
end Wiring
