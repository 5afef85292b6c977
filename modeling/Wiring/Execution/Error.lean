import Wiring.Execution.Value
import Wiring.Ty.Format

/-!
# Why a running plan fails

These errors are not resolution errors: a plan that was resolved can still fail
because a factory is not there or fails, or because a value is not of the kind
its consumer expects.
-/

namespace Wiring

/-- What a plan refers to but is not there. -/
inductive Unavailable where
  | entryPoint (type : Ty)
  | node (id : NodeId)
  /-- The scope that owns a node has no instance around. -/
  | owner (scope : ScopeId) (id : NodeId)
  | object (type : Ty)
  | input (index : Nat)
  /-- The node whose value a provider provides. -/
  | provided (id : NodeId)
  /-- The argument for a parameter. -/
  | argument (parameter : String)
  deriving DecidableEq

/-- How a value fails the expectation of its consumer. -/
inductive Mismatch where
  | notText
  | notFunction
  /-- A node was to be invoked that is of another kind. -/
  | notInvocable (kind : String)
  /-- An interceptor came to something else than a function. -/
  | notWrapper (origin : QName)
  | arity (expected given : Nat)
  deriving DecidableEq

mutual

/-- Why a running plan fails. -/
inductive ExecutionError where
  /-- No factory is registered for a declaration. -/
  | missingFactory (origin : QName)
  /-- A registered factory failed. -/
  | factoryFailed (origin : QName) (source : FactoryError)
  | unavailable (what : Unavailable) (scope : String)
  | mismatch (m : Mismatch)
  /-- A scope instance was not built because an eager node failed. -/
  | eagerFailed (node : NodeId) (source : ExecutionError)

/-- Why a factory fails. -/
inductive FactoryError where
  /-- For a reason of its own. -/
  | custom (message : String)
  /-- Because something that it used failed. -/
  | raised (error : ExecutionError)

end

namespace Unavailable

/-- What is not there, in words. -/
def text : Unavailable → String
  | entryPoint type => "Entry point '" ++ type.format .plain ++ "'"
  | node id => "Node #" ++ toString id.index
  | owner scope id =>
      "Scope #" ++ toString scope.index ++ " of node #" ++ toString id.index
  | object type => "Object '" ++ type.format .plain ++ "'"
  | input index => "Input " ++ toString index
  | provided id => "Provided value of node #" ++ toString id.index
  | argument parameter => "Argument '" ++ parameter ++ "'"

end Unavailable

namespace Mismatch

/-- The name of the kind of text values. -/
def textKind : String := "alloc::string::String"

/-- The name of the kind of functions. -/
def functionKind : String := "givens_runtime::factory::Function"

/-- A number of arguments, in words. -/
def argumentCount (n : Nat) : String := toString n ++ " arguments"

/-- What was expected, in words. -/
def expected : Mismatch → String
  | notText => textKind
  | notFunction => functionKind
  | notInvocable _ => functionKind
  | notWrapper _ => functionKind
  | arity expected _ => argumentCount expected

/-- What was found instead, in words. -/
def found : Mismatch → String
  | notText => "a value of another type"
  | notFunction => "a value of another type"
  | notInvocable kind => kind
  | notWrapper origin => "the result of '" ++ origin.text ++ "'"
  | arity _ given => argumentCount given

end Mismatch

mutual

/-- The message of an error. -/
def ExecutionError.message : ExecutionError → String
  | .missingFactory origin => "No factory registered for '" ++ origin.text ++ "'."
  | .factoryFailed origin source =>
      "Factory '" ++ origin.text ++ "' failed: " ++ FactoryError.message source
  | .unavailable what scope =>
      what.text ++ " is not available in scope '" ++ scope ++ "'."
  | .mismatch m =>
      "Expected a value of type '" ++ m.expected ++ "', found " ++ m.found ++ "."
  | .eagerFailed node source =>
      "Eager initialization of node #" ++ toString node.index ++ " failed: "
        ++ ExecutionError.message source

/-- The message of a factory's error. -/
def FactoryError.message : FactoryError → String
  | .custom message => message
  | .raised error => ExecutionError.message error

end

mutual

/-- The messages of the errors behind an error, outermost first. -/
def ExecutionError.sources : ExecutionError → List String
  | .factoryFailed _ source => FactoryError.chain source
  | .eagerFailed _ source =>
      ExecutionError.message source :: ExecutionError.sources source
  | _ => []

/-- The messages of a factory's error and of the errors behind it. -/
def FactoryError.chain : FactoryError → List String
  | .custom message => [message]
  | .raised error => ExecutionError.message error :: ExecutionError.sources error

end
end Wiring
