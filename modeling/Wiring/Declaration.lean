import Wiring.QName
import Wiring.Ty.Substitution

/-!
# Declarations

A declaration is one way to produce a value: a constructor, a function, a
property or an object.  Its role says what it contributes; nothing else about it
is inspected to find that out.

Parameter types may mention the declaration's own type parameters.
Substitution applies to the produced type, all parameter types, the component and
the map key together.
-/

namespace Wiring

/-- What a declaration contributes. -/
inductive Role where
  /-- A plain binding for its type. -/
  | binding
  /-- An entry of a map, under the declaration's key. -/
  | mapEntry
  /-- An element of a set. -/
  | setElement
  /-- A module, whose members are declared wherever it is. -/
  | moduleInclude
  /-- A wrapper around bindings of the type it intercepts. -/
  | interceptor
  /-- The existence of a set or map type, even without elements. -/
  | multibinds
  /-- Nothing. -/
  | inert
  deriving DecidableEq

/-- How a declaration must be invoked. -/
inductive CallKind where
  | plain
  | suspend
  | composable
  deriving DecidableEq

/-- What may be invoked in some place. -/
inductive CallContext where
  | plain
  | suspend
  | composable
  deriving DecidableEq

namespace CallContext

/-- Plain declarations are invoked from anywhere, the others from a matching
context only. -/
def canCall : CallContext → CallKind → Bool
  | _, .plain => true
  | context, .suspend => context = .suspend
  | context, .composable => context = .composable

/-- The context that the body of a function type runs in. -/
def ofFunctionType (t : Ty) : CallContext :=
  if t.classifier = .suspendFunction then .suspend
  else if t.classifier = .composableFunction then .composable
  else .plain

@[simp] theorem canCall_plain (context : CallContext) :
    context.canCall .plain = true := by
  cases context <;> rfl

end CallContext

/-- What happens when a declaration collides with an earlier one. -/
inductive DuplicatePolicy where
  /-- The collision is reported. -/
  | fail
  /-- The later declaration replaces the earlier one. -/
  | override
  /-- The later declaration is discarded. -/
  | drop
  deriving DecidableEq

/-- A parameter of a declaration. -/
structure Parameter where
  name : String
  type : Ty
  /-- Supplied by the caller of an assisted factory instead of being resolved. -/
  assisted : Bool := false
  /-- Resolving the parameter is optional. -/
  hasDefault : Bool := false
  deriving DecidableEq

/-- The explicit key of a map entry: its type and the text of its value. -/
structure MapKey where
  type : Ty
  value : String
  deriving DecidableEq

/-- One way to produce a value. -/
structure Declaration where
  name : QName
  type : Ty
  parameters : List Parameter := []
  typeParameters : List ClassifierId := []
  role : Role := .binding
  /-- The component that the binding is scoped to, if it is scoped. -/
  component : Option Ty := none
  external : Bool := false
  eager : Bool := false
  callKind : CallKind := .plain
  policy : DuplicatePolicy := .fail
  mapKey : Option MapKey := none
  deriving DecidableEq

namespace Declaration

/-- The parameters that the caller of an assisted factory supplies. -/
def assistedParameters (d : Declaration) : List Parameter :=
  d.parameters.filter Parameter.assisted

/-- The parameters that are resolved. -/
def resolvedParameters (d : Declaration) : List Parameter :=
  d.parameters.filter (fun p => !p.assisted)

/-- Whether the declaration is only reached through an assisted factory. -/
def hasAssisted (d : Declaration) : Bool :=
  d.parameters.any Parameter.assisted

/-- Change every type of the declaration by `f`. -/
def mapTypes (d : Declaration) (f : Ty → Ty) : Declaration :=
  { d with
    type := f d.type
    parameters := d.parameters.map (fun p => { p with type := f p.type })
    component := d.component.map f
    mapKey := d.mapKey.map (fun k => { k with type := f k.type }) }

/-- Apply a substitution to every type of the declaration.  The type parameters
that it binds are the declaration's no longer. -/
def substitute (d : Declaration) (σ : Substitution) : Declaration :=
  { d.mapTypes (Ty.substitute σ) with
    typeParameters := d.typeParameters.filter (fun t => !σ.binds t) }

@[simp] theorem substitute_name (d : Declaration) (σ : Substitution) :
    (d.substitute σ).name = d.name := rfl

@[simp] theorem substitute_type (d : Declaration) (σ : Substitution) :
    (d.substitute σ).type = d.type.substitute σ := rfl

@[simp] theorem substitute_role (d : Declaration) (σ : Substitution) :
    (d.substitute σ).role = d.role := rfl

end Declaration

/-- A declaration with the modules it was reached through, outermost first. -/
structure Entry where
  declaration : Declaration
  receivers : List QName := []
  deriving DecidableEq

/-- The name that an entry is reported and identified by. -/
def Entry.origin (e : Entry) : QName := e.declaration.name

end Wiring
