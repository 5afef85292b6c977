import Wiring.Execution.Error

/-!
# The host program

Factories and the functions they make belong to the host program.  What a piece of
host code does is a script: it changes the host's own state, it may invoke
functions and go on with what they come to, and in the end it yields a value or
fails.  It has no other access to the running plan.
-/

namespace Wiring

/-- What a piece of host code does, from a state of type `σ` on. -/
inductive Script (σ κ ε : Type) where
  /-- End with a value or an error. -/
  | finish (state : σ) (result : Except ε (Value κ))
  /-- Invoke a function and go on with what it comes to. -/
  | invoke (state : σ) (function : Function κ) (arguments : List (Value κ))
      (next : σ → Except ExecutionError (Value κ) → Script σ κ ε)

/-- What host code means: as the factory of a declaration, and as the body of a
function that has captured values. -/
structure Host (σ κ : Type) where
  factory : κ → (arguments : List (Value κ)) → σ → Script σ κ FactoryError
  function : κ → (captured arguments : List (Value κ)) → σ → Script σ κ ExecutionError

/-- The factories of declarations, and the instances of objects. -/
structure FactoryTable (κ : Type) where
  factories : List (QName × κ) := []
  objects : List (Ty × Value κ) := []

namespace FactoryTable

variable {κ : Type}

/-- The table without factories. -/
def empty : FactoryTable κ := {}

/-- Register a factory, in place of an earlier one of that name. -/
def register (T : FactoryTable κ) (origin : QName) (code : κ) : FactoryTable κ :=
  { T with factories := (origin, code) :: T.factories.filter (fun f => f.1 ≠ origin) }

/-- Register the instance of an object, in place of an earlier one. -/
def registerObject (T : FactoryTable κ) (type : Ty) (value : Value κ) : FactoryTable κ :=
  { T with objects := (type, value) :: T.objects.filter (fun o => o.1 ≠ type) }

/-- The factory of a declaration. -/
def factory? (T : FactoryTable κ) (origin : QName) : Option κ :=
  T.factories.lookup origin

/-- The instance of an object. -/
def object? (T : FactoryTable κ) (type : Ty) : Option (Value κ) :=
  T.objects.lookup type

/-- Number of factories; objects do not count. -/
def size (T : FactoryTable κ) : Nat := T.factories.length

end FactoryTable

namespace Value

variable {κ : Type}

/-- A value as a function. -/
def toFunction (v : Value κ) : Except ExecutionError (Function κ) :=
  match v.function? with
  | some f => .ok f
  | none => .error (.mismatch .notFunction)

/-- A value as a text. -/
def toText (v : Value κ) : Except ExecutionError String :=
  match v.text? with
  | some s => .ok s
  | none => .error (.mismatch .notText)

end Value

namespace Arguments

variable {κ : Type}

/-- The argument at a position, taken as something. -/
def get {α : Type} (take : Value κ → Except ExecutionError α) (arguments : List (Value κ))
    (index : Nat) : Except FactoryError α :=
  match arguments[index]? with
  | none => .error (.custom ("missing argument " ++ toString index))
  | some v =>
      match take v with
      | .ok a => .ok a
      | .error e => .error (.raised e)

/-- The argument at a position, as a function. -/
def function (arguments : List (Value κ)) (index : Nat) : Except FactoryError (Function κ) :=
  get Value.toFunction arguments index

/-- The argument at a position, as a text. -/
def text (arguments : List (Value κ)) (index : Nat) : Except FactoryError String :=
  get Value.toText arguments index

/-- The argument at a position as a text, if it is there and not absent. -/
def optionalText (arguments : List (Value κ)) (index : Nat) :
    Except FactoryError (Option String) :=
  match arguments[index]? with
  | none => .ok none
  | some v => if v.isAbsent then .ok none else (text arguments index).map some

end Arguments
end Wiring
