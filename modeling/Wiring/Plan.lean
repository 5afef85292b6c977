import Wiring.Declaration
import Wiring.Request

/-!
# Plans

A plan is the outcome of a resolution: a list of nodes, the scopes they are owned
by, and the requests that were made at top level.  A node refers to the nodes that
answer its dependencies by position, in the order of the dependencies, which is
all that is needed to construct values without deciding anything again.
-/

namespace Wiring

/-- An interceptor attached to a node. -/
structure Interceptor where
  declaration : Declaration
  receivers : List QName := []
  /-- Position of the parameter that takes the wrapped factory. -/
  factoryParameter : Nat
  dependencies : List Request := []
  resolved : List NodeId := []
  deriving DecidableEq

/-- How a node's value comes about. -/
inductive NodeKind where
  /-- A declaration is invoked.  The parameters at the assisted positions come
  from the caller of a factory, the others are dependencies. -/
  | callable (declaration : Declaration) (receivers : List QName) (assisted : List Nat)
  /-- The declaration behind a function alias is invoked. -/
  | function (declaration : Declaration)
  /-- The component being built. -/
  | self
  /-- A singleton object. -/
  | object
  /-- An input of the owner. -/
  | input (index : Nat)
  /-- A function returning the single dependency, which is resolved in a scope
  that has the function's parameters as inputs. -/
  | provider (scope : ScopeId) (parameters : List Ty) (context : CallContext)
  /-- One entry for each dependency, in order. -/
  | map (keys : List MapKey)
  /-- One element for each dependency, in order. -/
  | set (elements : List QName)
  /-- A factory of a component; the dependencies are its entry points. -/
  | childComponent (scope : ScopeId) (parameters : List Ty)
  /-- The value of another node. -/
  | delegate (target : NodeId)
  /-- An unresolved request for a nullable type. -/
  | null
  /-- An unresolved request that may stay so. -/
  | missing
  deriving DecidableEq

namespace NodeKind

/-- The name of a kind of node. -/
def name : NodeKind → String
  | callable .. => "callable"
  | function _ => "function"
  | self => "self"
  | object => "object"
  | input _ => "input"
  | provider .. => "provider"
  | map _ => "map"
  | set _ => "set"
  | childComponent .. => "child_component"
  | delegate _ => "delegate"
  | null => "null"
  | missing => "missing"

/-- Whether values are functions made by the resolver. -/
def isProvider : NodeKind → Bool
  | provider .. => true
  | _ => false

/-- Whether the value is that of another node. -/
def isDelegate : NodeKind → Bool
  | delegate _ => true
  | _ => false

end NodeKind

/-- The answer to a request. -/
structure Node where
  id : NodeId
  /-- The produced type, after substitution and refinement. -/
  type : Ty
  /-- The declared type, before substitution. -/
  rawType : Ty
  /-- The scope that constructs the value. -/
  owner : ScopeId
  origin : Option QName := none
  component : Option Ty := none
  /-- Whether the owner keeps the value. -/
  retained : Bool := false
  eager : Bool := false
  callKind : CallKind := .plain
  external : Bool := false
  dependencies : List Request := []
  resolved : List NodeId := []
  interceptors : List Interceptor := []
  kind : NodeKind
  deriving DecidableEq

namespace Node

/-- A node of a type in a scope, with nothing else known. -/
def plain (type : Ty) (owner : ScopeId) (kind : NodeKind) : Node :=
  { id := ⟨0⟩, type := type, rawType := type, owner := owner, kind := kind }

/-- Whether a cycle through this node is put off until a function is invoked. -/
def breaksCycles (n : Node) : Bool :=
  n.kind.isProvider || n.type.isFunctionType

/-- A node as one hop of a reported cycle. -/
def link (n : Node) : Link :=
  { type := n.type, origin := n.origin.getD ⟨"<" ++ n.kind.name ++ ">"⟩ }

end Node

/-- What a plan says about a scope. -/
structure ScopeSummary where
  id : ScopeId
  name : String
  parent : Option ScopeId := none
  component : Option Ty := none
  context : CallContext := .plain
  inputs : List Ty := []
  deriving DecidableEq

/-- A top-level request and the node that answers it. -/
structure Root where
  scope : ScopeId
  request : Request
  node : NodeId
  deriving DecidableEq

/-- The outcome of a resolution. -/
structure Plan where
  nodes : Array Node := #[]
  scopes : List ScopeSummary := []
  roots : List Root := []
  deriving DecidableEq

namespace Plan

/-- The node at a position. -/
def node? (p : Plan) (id : NodeId) : Option Node := p.nodes[id.index]?

/-- The scope at a position. -/
def scope? (p : Plan) (id : ScopeId) : Option ScopeSummary := p.scopes[id.index]?

/-- Follow delegates from a node, at most `steps` of them. -/
def canonicalWithin (p : Plan) : (steps : Nat) → NodeId → NodeId
  | 0, id => id
  | steps + 1, id =>
      match (p.node? id).map Node.kind with
      | some (.delegate target) => canonicalWithin p steps target
      | _ => id

/-- The node that actually produces the value of a node. -/
def canonical (p : Plan) (id : NodeId) : NodeId :=
  p.canonicalWithin p.nodes.size id

/-- The nodes that a scope constructs as soon as it is built, in order. -/
def eagerNodes (p : Plan) (s : ScopeId) : List Node :=
  p.nodes.toList.filter
    (fun n => n.eager && n.owner = s && !n.kind.isDelegate)

/-- The node that answers the first top-level request for a type in a scope. -/
def rootFor? (p : Plan) (s : ScopeId) (t : Ty) : Option NodeId :=
  (p.roots.find? (fun r => r.scope = s && r.request.type = t)).map Root.node

end Plan
end Wiring
