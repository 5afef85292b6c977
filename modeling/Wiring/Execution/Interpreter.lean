import Wiring.Execution.Host
import Wiring.Execution.Slot
import Wiring.Plan

/-!
# Running a plan

A plan is run against the factories of a host program.  A scope of the plan
becomes a scope instance each time it is entered.  A node is evaluated in the
instance of the scope that owns it, found among the instance at hand and its
parents:

* a retained node is computed once for each instance and kept in a slot,
* any other node is computed each time it is asked for,
* providers and factories of components are functions, which open an instance
  when they are invoked,
* eager nodes are evaluated while their instance is built, and a failure is a
  failure to build it.

A plan may recurse without end, through a function that invokes itself for
instance, so evaluation is bounded by the depth of nested evaluations that it may
use.
-/

namespace Wiring

/-- A live instance of a scope. -/
structure ScopeInstance (κ : Type) where
  scope : ScopeId
  /-- The instance itself and its parents, nearest first, with their scopes. -/
  lineage : List (ScopeId × InstanceId)
  inputs : List (Value κ) := []
  entryPoints : List (Ty × NodeId) := []
  /-- The slots of retained nodes. -/
  slots : List (NodeId × Slot (Value κ)) := []

namespace ScopeInstance

variable {κ : Type}

/-- The slot of a node. -/
def slot (i : ScopeInstance κ) (id : NodeId) : Slot (Value κ) :=
  (i.slots.lookup id).getD {}

/-- Keep a value in the slot of a node, unless there is one. -/
def publish (i : ScopeInstance κ) (id : NodeId) (v : Value κ) : ScopeInstance κ :=
  { i with slots :=
      (id, (i.slot id).publish v) :: i.slots.filter (fun s => s.1 ≠ id) }

/-- Whether the slot of a node holds a value. -/
def isInitialized (i : ScopeInstance κ) (id : NodeId) : Bool :=
  (i.slot id).isInitialized

/-- The scope of the instance's parent. -/
def parentScope? (i : ScopeInstance κ) : Option ScopeId :=
  i.lineage[1]?.map Prod.fst

end ScopeInstance

/-- A plan with the factories that implement its declarations. -/
structure Program (σ κ : Type) where
  plan : Plan := {}
  factories : FactoryTable κ := {}
  host : Host σ κ

/-- The live instances and the state of the host program. -/
structure Run (σ κ : Type) where
  instances : Array (ScopeInstance κ) := #[]
  host : σ

/-- Why an evaluation stops short of a value. -/
inductive Halt where
  | failed (error : ExecutionError)
  /-- The bound on nested evaluations was reached. -/
  | outOfFuel

/-- An evaluation step. -/
abbrev Eval (σ κ : Type) := EStateM Halt (Run σ κ)

/-- What can be evaluated. -/
inductive Task (κ : Type) where
  /-- A node, asked for in an instance. -/
  | node (within : InstanceId) (id : NodeId)
  /-- A function applied to arguments. -/
  | invoke (f : Function κ) (arguments : List (Value κ))

namespace Eval

variable {σ κ α ε : Type}

/-- Stop with an error. -/
def fail (e : ExecutionError) : Eval σ κ α := throw (.failed e)

/-- Run a step and catch its error; running out of fuel is not caught. -/
def attempt (step : Eval σ κ α) : Eval σ κ (Except ExecutionError α) := fun r =>
  match step r with
  | .ok a r => .ok (.ok a) r
  | .error (.failed e) r => .ok (.error e) r
  | .error .outOfFuel r => .error .outOfFuel r

/-- Take over the outcome of a pure computation. -/
def ofExcept : Except ExecutionError α → Eval σ κ α
  | .ok a => pure a
  | .error e => fail e

/-- A live instance. -/
def live? (i : InstanceId) : Eval σ κ (Option (ScopeInstance κ)) := fun r =>
  .ok r.instances[i.index]? r

/-- Keep a value in the slot of an instance, and read the slot. -/
def publish (i : InstanceId) (id : NodeId) (v : Value κ) : Eval σ κ (Value κ) := fun r =>
  let r := { r with instances := r.instances.modify i.index (fun s => s.publish id v) }
  .ok (((r.instances[i.index]?).bind (fun s => (s.slot id).value?)).getD v) r

/-- Run a script of host code, functions being invoked by `recur`. -/
def runScript (recur : Task κ → Eval σ κ (Value κ)) :
    Script σ κ ε → Eval σ κ (Except ε (Value κ))
  | .finish state result => fun r => .ok result { r with host := state }
  | .invoke state f arguments next => fun r =>
      match attempt (recur (.invoke f arguments)) { r with host := state } with
      | .ok outcome r => runScript recur (next r.host outcome) r
      | .error halt r => .error halt r

section Steps

variable (P : Program σ κ) (recur : Task κ → Eval σ κ (Value κ))

/-- The error of something that is not there, seen from an instance. -/
def missing (i : InstanceId) (what : Unavailable) : Eval σ κ α := do
  let name :=
    match ← live? i with
    | some s => (P.plan.scope? s.scope).map ScopeSummary.name
    | none => none
  fail (.unavailable what (name.getD "<unknown scope>"))

/-- Evaluate several nodes in an instance, in order. -/
def nodes (i : InstanceId) (ids : List NodeId) : Eval σ κ (List (Value κ)) :=
  ids.mapM (fun id => recur (.node i id))

/-- Call the factory of a declaration. -/
def callFactory (origin : QName) (arguments : List (Value κ)) : Eval σ κ (Value κ) := do
  match P.factories.factory? origin with
  | none => fail (.missingFactory origin)
  | some code =>
      let r ← get
      match ← runScript recur (P.host.factory code arguments r.host) with
      | .ok v => pure v
      | .error e => fail (.factoryFailed origin e)

/-- Build an instance of a scope below a parent instance. -/
def build (scope : ScopeId) (parent : Option InstanceId) (inputs : List (Value κ))
    (entryPoints : List (Ty × NodeId)) : Eval σ κ InstanceId := do
  let r ← get
  let id : InstanceId := ⟨r.instances.size⟩
  let above := ((parent.bind (fun p => r.instances[p.index]?)).map ScopeInstance.lineage).getD []
  let live : ScopeInstance κ :=
    { scope := scope
      lineage := (scope, id) :: above
      inputs := inputs
      entryPoints := entryPoints }
  modify (fun r => { r with instances := r.instances.push live })
  (P.plan.eagerNodes scope).forM (fun n => do
    match ← attempt (recur (.node id n.id)) with
    | .ok _ => pure ()
    | .error e => fail (.eagerFailed n.id e))
  pure id

/-- Put arguments in the places of a declaration's parameters: assisted ones from
the first list, the others from the second.  On failure, the parameter that nothing
is left for. -/
def placeArguments : List Parameter → (assisted provided : List (Value κ)) →
    Except String (List (Value κ))
  | [], _, _ => .ok []
  | p :: ps, assisted, provided =>
      if p.assisted then
        match assisted with
        | [] => .error p.name
        | v :: assisted => (placeArguments ps assisted provided).map (v :: ·)
      else
        match provided with
        | [] => .error p.name
        | v :: provided => (placeArguments ps assisted provided).map (v :: ·)

/-- Arguments of an interceptor whose parameters start at a position: the factory
in its place and the dependencies in the others. -/
def placeFactory (factoryParameter : Nat) (factory : Value κ) :
    (position : Nat) → List Parameter → (dependencies : List (Value κ)) → List (Value κ)
  | _, [], _ => []
  | position, _ :: ps, dependencies =>
      if position = factoryParameter then
        factory :: placeFactory factoryParameter factory (position + 1) ps dependencies
      else
        match dependencies with
        | [] => placeFactory factoryParameter factory (position + 1) ps []
        | v :: rest => v :: placeFactory factoryParameter factory (position + 1) ps rest

/-- Wrap a factory in an interceptor. -/
def wrap (i : InstanceId) (inner : Function κ) (ic : Interceptor) :
    Eval σ κ (Function κ) := do
  let dependencies ← nodes recur i ic.resolved
  let wrapped ← callFactory P recur ic.declaration.name
    (placeFactory ic.factoryParameter inner.toValue 0 ic.declaration.parameters dependencies)
  match wrapped.function? with
  | some f => pure f
  | none => fail (.mismatch (.notWrapper ic.declaration.name))

/-- Compute a node in the instance that owns it. -/
def compute (i : InstanceId) (n : Node) : Eval σ κ (Value κ) := do
  match n.kind with
  | .callable d _ [] =>
      if n.interceptors.isEmpty then
        let arguments ← nodes recur i n.resolved
        callFactory P recur d.name arguments
      else
        let outermost ← n.interceptors.foldlM (wrap P recur i) ⟨0, .bare i n.id⟩
        recur (.invoke outermost [])
  | .callable _ _ assisted => pure (.function assisted.length (.assisted i n.id))
  | .function d => pure (.function 0 (.alias i d.name n.resolved))
  | .self => pure (.scope i)
  | .object =>
      match P.factories.object? n.type with
      | some v => pure v
      | none => missing P i (.object n.type)
  | .input index =>
      match (← live? i).bind (fun s => s.inputs[index]?) with
      | some v => pure v
      | none => missing P i (.input index)
  | .provider scope parameters _ =>
      match n.resolved with
      | [] => missing P i (.provided n.id)
      | target :: _ => pure (.function parameters.length (.provider i scope target))
  | .childComponent scope parameters =>
      let entryPoints := (n.dependencies.map Request.type).zip n.resolved
      pure (.function parameters.length (.component i scope entryPoints))
  | .set _ =>
      let elements ← nodes recur i n.resolved
      pure (.set elements)
  | .map keys =>
      let values ← nodes recur i n.resolved
      pure (.mapOf ((keys.map MapKey.value).zip values))
  | .delegate target => recur (.node i target)
  | .null => pure .absent
  | .missing => pure .absent

/-- Evaluate a node asked for in an instance: find the instance that owns it, and
use its slot if the node is retained. -/
def node (i : InstanceId) (id : NodeId) : Eval σ κ (Value κ) := do
  match P.plan.node? id with
  | none => missing P i (.node id)
  | some n =>
      match ((← live? i).bind (fun s => s.lineage.lookup n.owner)) with
      | none => missing P i (.owner n.owner id)
      | some owner =>
          if !n.retained then compute P recur owner n
          else
            match (← live? owner).bind (fun s => (s.slot id).value?) with
            | some v => pure v
            | none =>
                let v ← compute P recur owner n
                publish owner id v

/-- The declaration and the dependencies of a node that is to be invoked. -/
def invocable (i : InstanceId) (id : NodeId) : Eval σ κ (Declaration × List NodeId) := do
  match P.plan.node? id with
  | none => missing P i (.node id)
  | some n =>
      match n.kind with
      | .callable d _ _ => pure (d, n.resolved)
      | kind => fail (.mismatch (.notInvocable kind.name))

/-- Do what a function does with its arguments. -/
def apply (arguments : List (Value κ)) : FunctionBody κ → Eval σ κ (Value κ)
  | .alias i origin dependencies => do
      let values ← nodes recur i dependencies
      callFactory P recur origin values
  | .provider i scope target => do
      let inner ← build P recur scope (some i) arguments []
      recur (.node inner target)
  | .component i scope entryPoints => do
      let inner ← build P recur scope (some i) arguments entryPoints
      pure (.scope inner)
  | .assisted i id => do
      let (d, dependencies) ← invocable P i id
      let provided ← nodes recur i dependencies
      match placeArguments d.parameters arguments provided with
      | .ok values => callFactory P recur d.name values
      | .error parameter => missing P i (.argument parameter)
  | .bare i id => do
      let (d, dependencies) ← invocable P i id
      let values ← nodes recur i dependencies
      callFactory P recur d.name values
  | .hosted code captured => do
      let r ← get
      let outcome ← runScript recur (P.host.function code captured arguments r.host)
      ofExcept outcome

/-- Invoke a function, which has to get as many arguments as it takes. -/
def invoke (f : Function κ) (arguments : List (Value κ)) : Eval σ κ (Value κ) :=
  if arguments.length = f.arity then apply P recur arguments f.body
  else fail (.mismatch (.arity f.arity arguments.length))

end Steps

/-- Evaluate a task with at most `fuel` nested evaluations. -/
def task (P : Program σ κ) : (fuel : Nat) → Task κ → Eval σ κ (Value κ)
  | 0, _ => throw .outOfFuel
  | fuel + 1, .node i id => node P (task P fuel) i id
  | fuel + 1, .invoke f arguments => invoke P (task P fuel) f arguments

end Eval

namespace Program

variable {σ κ : Type} (P : Program σ κ)

/-- Build an instance of a scope without a parent.  Its entry points are the plan's
roots in that scope. -/
def instantiate (fuel : Nat) (scope : ScopeId) (inputs : List (Value κ)) :
    Eval σ κ InstanceId :=
  Eval.build P (Eval.task P fuel) scope none inputs
    ((P.plan.roots.filter (fun r => r.scope = scope)).map
      (fun r => (r.request.type, r.node)))

/-- The value of an instance's entry point for a type. -/
def get (fuel : Nat) (i : InstanceId) (t : Ty) : Eval σ κ (Value κ) := do
  match (← Eval.live? i).bind (fun s => s.entryPoints.find? (fun e => e.1 = t)) with
  | some (_, id) => Eval.task P fuel (.node i id)
  | none => Eval.missing P i (.entryPoint t)

/-- Call the factory of a declaration. -/
def call (fuel : Nat) (origin : QName) (arguments : List (Value κ)) : Eval σ κ (Value κ) :=
  Eval.callFactory P (Eval.task P fuel) origin arguments

end Program
end Wiring
