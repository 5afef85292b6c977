import Wiring.Expansion
import Wiring.Options

/-!
# Scopes

A scope is one level of the lookup hierarchy: a component, a child component,
the place where a provider's value is made, or any other place of declaration.
Scopes refer to their parent by position.

A scope knows its own bindings and those it inherits, each of the latter tagged
with the ancestor that declares it.  A binding of the scope itself hides
inherited ones of exactly its type.
-/

namespace Wiring

/-- What kind of place a scope stands for. -/
inductive ScopeKind where
  | component
  | childComponent
  | provider
  | declaration
  deriving DecidableEq

/-- The name of a kind of scope. -/
def ScopeKind.name : ScopeKind → String
  | component => "Component"
  | childComponent => "ChildComponent"
  | provider => "Provider"
  | declaration => "Declaration"

/-- A scope before its declarations are known. -/
structure ScopeSpec where
  name : String
  kind : ScopeKind := .component
  context : CallContext := .plain
  /-- The component that the scope builds. -/
  component : Option Ty := none
  /-- Types of the values that whoever opens the scope supplies. -/
  inputs : List Ty := []
  /-- Types that are resolved when the scope is built. -/
  entryPoints : List Ty := []
  deriving DecidableEq

/-- An input of an ancestor: its index there, its type, and the ancestor. -/
structure InheritedInput where
  index : Nat
  type : Ty
  declaredIn : ScopeId
  deriving DecidableEq

/-- One level of the lookup hierarchy. -/
structure Scope extends ScopeSpec where
  id : ScopeId
  parent : Option ScopeId := none
  depth : Nat := 0
  bindings : List Entry := []
  setElements : List Entry := []
  mapEntries : List Entry := []
  interceptors : List Entry := []
  multibinds : List Ty := []
  /-- Bindings of ancestors, outermost first, with their scope. -/
  inheritedBindings : List (Entry × ScopeId) := []
  inheritedInputs : List InheritedInput := []
  deriving DecidableEq

namespace Scope

/-- Replace the first entry that satisfies `p`. -/
def replaceFirst (p : Entry → Bool) (e : Entry) : List Entry → List Entry
  | [] => []
  | b :: bs => if p b then e :: bs else b :: replaceFirst p e bs

/-- Add a binding to those of a scope.  If there is one of its type already, the
binding's policy decides: it replaces the first such binding, is discarded, or is
kept beside it, which makes requests for the type ambiguous. -/
def addBinding (options : Options) (scope : String) (bindings : List Entry) (e : Entry) :
    Except ResolutionError (List Entry) :=
  match bindings.find? (fun b => b.declaration.type = e.declaration.type) with
  | none => .ok (bindings ++ [e])
  | some existing =>
      match e.declaration.policy with
      | .fail => .ok (bindings ++ [e])
      | .drop => .ok bindings
      | .override =>
          if options.allowOverrides then
            .ok (replaceFirst (fun b => b.declaration.type = e.declaration.type) e bindings)
          else
            .error (.overrideViolation e.declaration.type scope existing.origin e.origin)

/-- Build a scope from its contributions.  A scope with a parent is given the
parent's position and depth. -/
def create (options : Options) (id : ScopeId) (parent : Option (ScopeId × Nat))
    (spec : ScopeSpec) (found : Contributions) : Except ResolutionError Scope :=
  match found.bindings.foldlM (addBinding options spec.name) [] with
  | .error e => .error e
  | .ok bindings =>
      .ok
        { toScopeSpec := spec
          id := id
          parent := parent.map Prod.fst
          depth := (parent.map (fun p => p.2 + 1)).getD 0
          bindings := bindings
          setElements := found.setElements
          mapEntries := found.mapEntries
          interceptors := found.interceptors
          multibinds := found.multibinds }

/-- Whether the scope itself declares a binding of exactly this type. -/
def declares (s : Scope) (type : Ty) : Bool :=
  s.bindings.any (fun b => b.declaration.type = type)

/-- Take over what the parent sees, except bindings that are hidden. -/
def inheritFrom (s parent : Scope) : Scope :=
  { s with
    inheritedBindings :=
      (parent.inheritedBindings ++ parent.bindings.map (fun e => (e, parent.id))).filter
        (fun p => !s.declares p.1.declaration.type)
    inheritedInputs :=
      parent.inheritedInputs ++ parent.inputs.zipIdx.map
        (fun p => { index := p.2, type := p.1, declaredIn := parent.id }) }

/-- Whether the scope has no parent. -/
def isRoot (s : Scope) : Bool := s.parent.isNone

end Scope
end Wiring
