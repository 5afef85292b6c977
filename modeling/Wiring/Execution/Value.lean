import Wiring.QName
import Wiring.Ty

/-!
# Values of a running plan

A running plan hands values around: texts and functions of the host program, sets
and maps that collections evaluate to, and instances of scopes.

A function is kept as data.  It either belongs to the host program, with values it
has captured, or says what is evaluated in which scope instance when it is invoked.
The type of host code is a parameter.
-/

namespace Wiring

/-- Position of a live scope instance. -/
structure InstanceId where
  index : Nat
  deriving DecidableEq, Inhabited

mutual

/-- A value of a running plan, for host code of type `κ`. -/
inductive Value (κ : Type) where
  | text (content : String)
  /-- No value: an unresolved nullable or optional request. -/
  | absent
  | set (elements : List (Value κ))
  | map (entries : List (String × Value κ))
  | scope (live : InstanceId)
  | function (arity : Nat) (body : FunctionBody κ)

/-- What invoking a function does. -/
inductive FunctionBody (κ : Type) where
  /-- Invoke the declaration of a function alias. -/
  | alias (within : InstanceId) (origin : QName) (dependencies : List NodeId)
  /-- Open a scope with the arguments as inputs and evaluate a node in it. -/
  | provider (within : InstanceId) (scope : ScopeId) (target : NodeId)
  /-- Build a component with the arguments as inputs. -/
  | component (within : InstanceId) (scope : ScopeId) (entryPoints : List (Ty × NodeId))
  /-- Invoke a node's declaration, the assisted parameters being the arguments. -/
  | assisted (within : InstanceId) (node : NodeId)
  /-- Invoke a node's declaration without its interceptors. -/
  | bare (within : InstanceId) (node : NodeId)
  /-- Run host code. -/
  | hosted (code : κ) (captured : List (Value κ))

end

/-- A function value. -/
structure Function (κ : Type) where
  arity : Nat
  body : FunctionBody κ

namespace Function

variable {κ : Type}

/-- A function as a value. -/
def toValue (f : Function κ) : Value κ := .function f.arity f.body

end Function

namespace Value

variable {κ : Type}

/-- The function that a value is. -/
def function? : Value κ → Option (Function κ)
  | function arity body => some ⟨arity, body⟩
  | _ => none

/-- The text that a value is. -/
def text? : Value κ → Option String
  | text content => some content
  | _ => none

/-- The scope instance that a value is. -/
def scope? : Value κ → Option InstanceId
  | scope live => some live
  | _ => none

/-- Whether there is no value. -/
def isAbsent : Value κ → Bool
  | absent => true
  | _ => false

/-- Put a value under a text, in the place of an earlier one. -/
def putText (key : String) (value : Value κ) :
    List (String × Value κ) → List (String × Value κ)
  | [] => [(key, value)]
  | (k, v) :: rest =>
      if k = key then (key, value) :: rest else (k, v) :: putText key value rest

/-- The map of a list of entries; of two entries under one text the later
counts. -/
def mapOf (entries : List (String × Value κ)) : Value κ :=
  .map (entries.foldl (fun m e => putText e.1 e.2 m) [])

@[simp] theorem function?_toValue (f : Function κ) : f.toValue.function? = some f := rfl

end Value
end Wiring
