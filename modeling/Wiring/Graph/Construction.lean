import Wiring.Graph.Search
import Wiring.Relation.Erasure
import Wiring.Relation.Unification
import Wiring.Scope.Candidates
import Wiring.Ty.Star

/-!
# Construction of nodes

A chosen candidate becomes a node.  The node is appended and remembered before its
dependencies are resolved, with the node on the chain meanwhile, so that a
dependency that leads back to it is recognized.

How a nested request is resolved is a parameter of this module, `resolve`.  A node
that invokes a declaration is owned by the scope of the component it is pinned to,
or else by the scope that declares it.

The surroundings of a scope are always read off the graph as it is then, because the
nodes that were built before may have added scopes.
-/

namespace Wiring

/-! ## Requests that follow from declarations -/

namespace Declaration

/-- The request that a parameter makes. -/
def parameterRequest (d : Declaration) (p : Parameter) : Request :=
  { type := p.type, origin := d.name.child p.name, required := !p.hasDefault }

/-- The requests of the parameters that are resolved, in order. -/
def requests (d : Declaration) : List Request :=
  d.resolvedParameters.map d.parameterRequest

/-- Positions of the assisted parameters. -/
def assistedPositions (d : Declaration) : List Nat :=
  (d.parameters.zipIdx.filter (fun p => p.1.assisted)).map Prod.snd

/-- The position of the parameter through which an interceptor takes the factory
of values of type `t`: the first that is a function returning `t`. -/
def factoryPosition (d : Declaration) (t : Ty) : Nat :=
  (d.parameters.findIdx? (fun p =>
    match p.type.functionParts? with
    | some (_, returns) => returns.nonNull = t.nonNull
    | none => false)).getD 0

/-- The requests of all parameters but the one at a position, in order. -/
def requestsExcept (d : Declaration) (position : Nat) : List Request :=
  (d.parameters.zipIdx.filter (fun p => p.2 ≠ position)).map
    (fun p => d.parameterRequest p.1)

end Declaration

/-- The request that an entry of a collection stands for. -/
def Entry.request (e : Entry) : Request :=
  { type := e.declaration.type, origin := e.origin }

/-- The node that invokes a declaration.  With assisted parameters its value is a
factory of type `type`. -/
def Node.ofDeclaration (e : Entry) (declared : Declaration) (type : Ty)
    (assisted : Bool) (owner : ScopeId) : Node :=
  let d := e.declaration
  { id := ⟨0⟩
    type := type
    rawType := if assisted then type else declared.type
    owner := owner
    origin := some d.name
    component := d.component
    retained := d.component.isSome
    eager := d.eager
    callKind := d.callKind
    external := d.external
    dependencies := d.requests
    kind := .callable d e.receivers (if assisted then d.assistedPositions else []) }

/-- The node that invokes a function alias. -/
def Node.ofAlias (d : Declaration) (type : Ty) (owner : ScopeId) : Node :=
  { Node.plain type owner (.function d) with
    origin := some d.name
    callKind := d.callKind
    dependencies := d.requests }

/-- The scope that owns a declaration's node: that of the component it is pinned
to, or else the one that declares it. -/
def ownerOf (path : List Scope) (scope : ScopeId) (declaredIn : Option ScopeId)
    (d : Declaration) : ScopeId :=
  let declaring := declaredIn.getD scope
  match d.component with
  | some target => (ownerForTarget path target).getD declaring
  | none => declaring

/-! ## Refinement -/

/-- What the types of dependencies say about a declaration's type parameters; of
several bindings of one parameter the first counts. -/
def Registry.refinement (R : Registry) (parameters : List Parameter) (types : List Ty) :
    Substitution :=
  (parameters.zip types).foldl (fun σ p =>
    match R.tryUnify p.2 p.1.type with
    | some found => found.foldl (fun σ b => σ.insertNew b.1 b.2) σ
    | none => σ) []

/-- The type of a star-projected node, narrowed by what its dependencies came to.
It is only narrowed where it was a star projection. -/
def Registry.refine (R : Registry) (declared : Declaration) (type : Ty)
    (dependencies : List Ty) : Ty :=
  let σ := R.refinement declared.resolvedParameters dependencies
  if type.starCount = 0 || σ.isEmpty then type
  else
    let refined :=
      { R.erase (declared.type.substitute σ) with
        qualifiers := type.qualifiers
        nullable := type.nullable }
    if refined.starCount < type.starCount && type.generalizes refined then refined
    else type

namespace Resolve

variable (B : Build) (resolve : ScopeId → Request → Resolve NodeId)

/-- Resolve several requests in a scope, in order. -/
def each (scope : ScopeId) (requests : List Request) : Resolve (List NodeId) :=
  requests.mapM (resolve scope)

/-- Append a node and resolve its dependencies with the node on the chain.  Both
the owner and the requesting scope remember it for the requested type. -/
def buildNode (n : Node) (key : Option Ty) (scope : ScopeId)
    (dependencies : Resolve (List NodeId)) : Resolve NodeId := do
  let id ← pushNode n key
  match key with
  | some t => if scope ≠ n.owner then remember scope t id
  | none => pure ()
  let resolved ← withNode id dependencies
  modifyNode id (fun n => { n with resolved := resolved })
  pure id

/-- Append a node without dependencies. -/
def leaf (n : Node) (key : Ty) : Resolve NodeId :=
  pushNode n (some key)

/-- Narrow the type of a star-projected node. -/
def refineNode (id : NodeId) (declared : Declaration) : Resolve Unit := do
  let g ← graph
  match g.node? id with
  | some n =>
      let types := n.resolved.filterMap (fun d => (g.node? d).map Node.type)
      modifyNode id (fun n => { n with type := B.registry.refine declared n.type types })
  | none => pure ()

/-- Resolve what an interceptor asks for besides the factory. -/
def attach (id : NodeId) (owner : ScopeId) (t : Ty) (e : Entry) : Resolve Interceptor := do
  let position := e.declaration.factoryPosition t
  let dependencies := e.declaration.requestsExcept position
  let resolved ← withNode id (each resolve owner dependencies)
  pure
    { declaration := e.declaration
      receivers := e.receivers
      factoryParameter := position
      dependencies := dependencies
      resolved := resolved }

/-- Merge a collection in a scope; whatever scopes merge on the way they keep, even if
the collection fails to merge. -/
def collected (scope : ScopeId) (kind : Collection.Kind) (t : Ty) :
    Resolve (Option (List Entry)) := fun s =>
  let g := s.graph
  match g.memo.merged B.registry B.catalog B.options kind t (g.path scope) with
  | (.ok found, memo) => .ok found { s with graph := { g with memo := memo } }
  | (.error e, memo) => .error e { s with graph := { g with memo := memo } }

/-- The interceptors that a scope sees for bindings of a type. -/
def interceptorsFor (scope : ScopeId) (t : Ty) : Resolve (List Entry) := fun s =>
  let g := s.graph
  let (found, memo) := g.memo.visible B.registry B.catalog t (g.path scope)
  .ok found { s with graph := { g with memo := memo } }

/-- Attach the interceptors that the owner of a node sees for its type. -/
def attachInterceptors (id : NodeId) (owner : ScopeId) : Resolve Unit := do
  let g ← graph
  match g.node? id with
  | some n =>
      let visible ← interceptorsFor B owner n.type
      let attached ← visible.mapM (attach resolve id owner n.type)
      modifyNode id (fun n => { n with interceptors := attached })
  | none => pure ()

/-- The node that another scope already has for a requested type, which is then
remembered for the requesting scope as well. -/
def relocated? (scope owner : ScopeId) (key : Option Ty) : Resolve (Option NodeId) := do
  match key with
  | none => pure none
  | some t =>
      if owner = scope then pure none
      else
        match ← answer? owner t with
        | none => pure none
        | some id =>
            checkCycle id
            remember scope t id
            pure (some id)

/-- The node that invokes a declaration, as the answer to a request or, without a
key, as an entry of a collection. -/
def declarationNode (scope : ScopeId) (declaredIn : Option ScopeId) (key : Option Ty)
    (e : Entry) (declared : Declaration) (assisted : Bool) : Resolve NodeId := do
  let d := e.declaration
  let type := if assisted then key.getD d.type else d.type
  let g ← graph
  match ← chainFrom (fun id =>
      (g.node? id).any (fun n => n.origin = some d.name && n.type = type)) with
  | repeated :: inside => revisit repeated inside
  | [] =>
      let owner := ownerOf (g.path scope) scope declaredIn d
      match ← relocated? scope owner key with
      | some id => pure id
      | none =>
          let id ← buildNode (.ofDeclaration e declared type assisted owner) key scope
            (each resolve owner d.requests)
          if !assisted then refineNode B id declared
          attachInterceptors B resolve id owner
          pure id

/-- The nodes of the entries of a collection, in order. -/
def entryNodes (scope : ScopeId) (entries : List Entry) : Resolve (List NodeId) :=
  entries.mapM (fun e => declarationNode B resolve scope none none e e.declaration false)

/-- The node of an input, which belongs to the scope that declares it. -/
def inputNode (scope : ScopeId) (key : Ty) (index : Nat) (type : Ty)
    (declaredIn : Option ScopeId) : Resolve NodeId := do
  let owner := declaredIn.getD scope
  let id ←
    match ← answer? owner key with
    | some existing => pure existing
    | none => leaf (.plain type owner (.input index)) key
  remember scope key id
  pure id

/-- The node that invokes a function alias. -/
def aliasNode (scope : ScopeId) (key : Ty) (d : Declaration) (type : Ty) :
    Resolve NodeId := do
  let g ← graph
  match ← chainFrom (fun id =>
      (g.node? id).any (fun n => n.origin = some d.name && n.type = type)) with
  | repeated :: inside => revisit repeated inside
  | [] =>
      buildNode (.ofAlias d type scope) (some key) scope (each resolve scope d.requests)

/-- The node of a collection, with a node for each merged entry. -/
def collectionNode (scope : ScopeId) (key : Ty) (kind : Collection.Kind) (type : Ty) :
    Resolve NodeId := do
  let merged ← collected B scope kind type
  let entries := merged.getD []
  let nodeKind :=
    match kind with
    | .set => NodeKind.set (entries.map Entry.origin)
    | .map => NodeKind.map (entries.filterMap (fun e => e.declaration.mapKey))
  let n := { Node.plain type scope nodeKind with dependencies := entries.map Entry.request }
  buildNode n (some key) scope (entryNodes B resolve scope entries)

/-- The node of a provider, whose value is resolved in a scope of its own. -/
def providerNode (scope : ScopeId) (r : Request) (type : Ty) (parameters : List Ty)
    (returns : Ty) : Resolve NodeId := do
  let g ← graph
  let context := CallContext.ofFunctionType type
  let inner ← extend (fun g' => g'.pushScope B (some scope)
    { name := g.scopeName scope ++ "/" ++ type.format B.naming
      kind := .provider
      context := context
      inputs := parameters } {})
  let dependencies : List Request :=
    [{ type := returns, origin := r.origin, required := true, lazy := true }]
  let n :=
    { Node.plain type scope (.provider inner parameters context) with
      dependencies := dependencies }
  buildNode n (some r.type) scope (each resolve inner dependencies)

/-- The node of a factory of a child component, whose entry points are resolved in
the scope of the component. -/
def childComponentNode (scope : ScopeId) (r : Request) (type : Ty) (parameters : List Ty)
    (component : Ty) : Resolve NodeId := do
  match B.catalog.component? component.classifier with
  | none => throw (.unknownClassifier component.classifier r.origin)
  | some c =>
      let inner ← extend (fun g => g.addScope B (some scope)
        (Graph.componentSpec B c .childComponent component parameters) c.declarations)
      let origin := (B.registry.name? component.classifier).getD r.origin
      let dependencies : List Request :=
        c.entryPoints.map (fun t => { type := t, origin := origin })
      let n :=
        { Node.plain type scope (.childComponent inner parameters) with
          origin := some origin
          dependencies := dependencies }
      buildNode n (some r.type) scope (each resolve inner dependencies)

/-- The node of a candidate that was chosen for a request. -/
def nodeOf (scope : ScopeId) (r : Request) : Candidate → Resolve NodeId
  | .declaration m =>
      declarationNode B resolve scope m.declaredIn (some r.type)
        { declaration := m.declaration, receivers := m.receivers } m.declared m.assisted
  | .input index type declaredIn => inputNode scope r.type index type declaredIn
  | .object type => leaf (.plain type scope .object) r.type
  | .self type => leaf (.plain type scope .self) r.type
  | .funAlias d type => aliasNode resolve scope r.type d type
  | .provider type parameters returns =>
      providerNode B resolve scope r type parameters returns
  | .set type _ => collectionNode B resolve scope r.type .set type
  | .map type => collectionNode B resolve scope r.type .map type
  | .childComponent type parameters component =>
      childComponentNode B resolve scope r type parameters component

end Resolve
end Wiring
