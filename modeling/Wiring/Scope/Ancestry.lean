import Wiring.Scope

/-!
# The ancestry of a scope

The ancestry of a scope is the list of the scope itself, its parent, the
parent's parent and so on, nearest first.  Whatever depends on the surroundings
of a scope is computed from this list.
-/

namespace Wiring

/-- Follow parent links from a scope, at most `steps` of them. -/
def ancestryWithin (scopes : Array Scope) : (steps : Nat) → ScopeId → List Scope
  | 0, _ => []
  | steps + 1, id =>
      match scopes[id.index]? with
      | none => []
      | some s =>
          match s.parent with
          | none => [s]
          | some parent => s :: ancestryWithin scopes steps parent

/-- A scope and its ancestors, nearest first. -/
def ancestry (scopes : Array Scope) (id : ScopeId) : List Scope :=
  ancestryWithin scopes scopes.size id

/-- The nearest scope of an ancestry that builds exactly the component `target`;
a binding pinned to it is owned there. -/
def ownerForTarget (path : List Scope) (target : Ty) : Option ScopeId :=
  (path.find? (fun s => s.component = some target)).map Scope.id

/-- Whether some scope of an ancestry builds a component of this classifier. -/
def isBuiltIn (path : List Scope) (c : ClassifierId) : Bool :=
  path.any (fun s => s.component.map Ty.classifier = some c)

end Wiring
