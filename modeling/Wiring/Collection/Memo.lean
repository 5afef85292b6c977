import Wiring.Collection

/-!
# What scopes have merged before

A scope merges a collection once.  The outcome is kept with the scope and serves it
and the scopes below it from then on, also if a parent that was not there yet is
added later.  Interceptors are kept in the same way.  A collection that fails to merge
is not kept, but what its ancestors merged on the way is.

**Results.**
* `merged_of_agrees`: as long as what is kept is what would be merged again, a
  collection is answered as if nothing had been kept.
* `visible_of_agrees`: the same for interceptors.
-/

namespace Wiring

/-- The outcomes kept so far, for a scope and a type. -/
structure Memo where
  /-- Collections, each of them with its entries if it exists. -/
  collections : List ((ScopeId × Collection.Kind × Ty) × Option (List Entry)) := []
  /-- Interceptors for bindings of a type. -/
  interceptors : List ((ScopeId × Ty) × List Entry) := []

namespace Memo

/-- What a scope has kept of a collection. -/
def collection? (m : Memo) (scope : ScopeId) (kind : Collection.Kind) (t : Ty) :
    Option (Option (List Entry)) :=
  m.collections.lookup (scope, kind, t)

/-- The interceptors for bindings of a type that a scope has kept. -/
def interceptors? (m : Memo) (scope : ScopeId) (t : Ty) : Option (List Entry) :=
  m.interceptors.lookup (scope, t)

/-- Keep a collection for a scope. -/
def keepCollection (m : Memo) (scope : ScopeId) (kind : Collection.Kind) (t : Ty)
    (found : Option (List Entry)) : Memo :=
  { m with collections := ((scope, kind, t), found) :: m.collections }

/-- Keep interceptors for a scope. -/
def keepInterceptors (m : Memo) (scope : ScopeId) (t : Ty) (found : List Entry) : Memo :=
  { m with interceptors := ((scope, t), found) :: m.interceptors }

/-- Keep only what belongs to the first scopes. -/
def restrict (m : Memo) (scopes : Nat) : Memo :=
  { collections := m.collections.filter (fun c => c.1.1.index < scopes)
    interceptors := m.interceptors.filter (fun i => i.1.1.index < scopes) }

section

variable (R : Registry) (K : Catalog) (options : Options)

/-- Merge a collection along an ancestry, nearest scope first, up to the first scope
that has kept it. -/
def merged (kind : Collection.Kind) (t : Ty) :
    List Scope → Memo → Except ResolutionError (Option (List Entry)) × Memo
  | [], m => (.ok none, m)
  | s :: ancestors, m =>
      match m.collection? s.id kind t with
      | some found => (.ok found, m)
      | none =>
          match merged kind t ancestors m with
          | (.error e, m) => (.error e, m)
          | (.ok inherited, m) =>
              match Collection.extended R K options kind t s inherited with
              | .error e => (.error e, m)
              | .ok found => (.ok found, m.keepCollection s.id kind t found)

/-- The interceptors that wrap bindings of a type along an ancestry, nearest scope
first, up to the first scope that has kept them. -/
def visible (t : Ty) : List Scope → Memo → List Entry × Memo
  | [], m => ([], m)
  | s :: ancestors, m =>
      match m.interceptors? s.id t with
      | some found => (found, m)
      | none =>
          let (inherited, m) := visible t ancestors m
          let found := inherited ++ Interception.added R K t s
          (found, m.keepInterceptors s.id t found)

/-- What is kept agrees with what would be merged again, for every scope of an
ancestry. -/
def Agrees (m : Memo) : List Scope → Prop
  | [] => True
  | s :: ancestors =>
      (∀ kind t found, m.collection? s.id kind t = some found →
          Collection.merged R K options kind t (s :: ancestors) = .ok found)
        ∧ (∀ t found, m.interceptors? s.id t = some found →
          found = Interception.visible R K t (s :: ancestors))
        ∧ Agrees m ancestors

/-- An agreeing memo changes no collection. -/
theorem merged_of_agrees
    (kind : Collection.Kind)
    (t : Ty)
    (m : Memo)
    (path : List Scope)
    (h : Agrees R K options m path) :
    (merged R K options kind t path m).1 = Collection.merged R K options kind t path := by
  induction path with
  | nil => rfl
  | cons s ancestors ih =>
      obtain ⟨hkept, -, hrest⟩ := h
      have ih := ih hrest
      rw [merged]
      split
      · rename_i found hfound
        exact (hkept kind t found hfound).symm
      · rw [Collection.merged, ← ih]
        rcases merged R K options kind t ancestors m with ⟨_ | inherited, m'⟩
        · rfl
        · dsimp only
          cases Collection.extended R K options kind t s inherited <;> rfl

/-- An agreeing memo changes no list of interceptors. -/
theorem visible_of_agrees
    (t : Ty)
    (m : Memo)
    (path : List Scope)
    (h : Agrees R K options m path) :
    (visible R K t path m).1 = Interception.visible R K t path := by
  induction path with
  | nil => rfl
  | cons s ancestors ih =>
      obtain ⟨-, hkept, hrest⟩ := h
      have ih := ih hrest
      rw [visible]
      split
      · rename_i found hfound
        exact hkept t found hfound
      · rw [Interception.visible, ← ih]

end

end Memo
end Wiring
