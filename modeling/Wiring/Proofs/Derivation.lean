import Wiring.Graph.Resolution

/-!
# Derivations

What a search does to the graph, as a relation.  A derivation says, for a stack of
nodes whose dependencies are being resolved, which judgement a finished part of a
search comes to and what the graph is before and after it.  Its rules follow the tiers
of a request and the candidates of a tier, and leave out the bookkeeping of requests
and counters.

A search that stops at an error is a `Fails`: some finished parts, and then the nodes
that were open when it stopped.
-/

namespace Wiring

/-! ## Changes of a graph -/

namespace Graph

/-- The position of the next node. -/
def nextId (g : Graph) : NodeId := ⟨g.nodes.size⟩

/-- The graph with one more node. -/
def append (g : Graph) (n : Node) : Graph :=
  { g with nodes := g.nodes.push { n with id := g.nextId } }

/-- The graph with one more answer. -/
def remember (g : Graph) (scope : ScopeId) (t : Ty) (id : NodeId) : Graph :=
  { g with answers := g.answers.insert scope t id }

/-- The graph with one node changed. -/
def change (g : Graph) (id : NodeId) (f : Node → Node) : Graph :=
  { g with nodes := g.nodes.modify id.index f }

/-- The graph with another memo. -/
def withMemo (g : Graph) (m : Memo) : Graph := { g with memo := m }

/-- A memo that a graph has after some of its scopes merged collections and
interceptors. -/
inductive Merges (B : Build) (g : Graph) : Memo → Prop
  | none : Merges B g g.memo
  | collection {m : Memo} (kind : Collection.Kind) (t : Ty) (scope : ScopeId) :
      Merges B g m →
      Merges B g
        (m.merged B.registry B.catalog B.options kind t (g.path scope)).2
  | interceptors {m : Memo} (t : Ty) (scope : ScopeId) :
      Merges B g m →
      Merges B g (m.visible B.registry B.catalog t (g.path scope)).2

/-- The graph with one more node, which its owner and the requesting scope remember if
a type is requested. -/
def begin (g : Graph) (n : Node) (key : Option Ty) (scope : ScopeId) : Graph :=
  match key with
  | none => g.append n
  | some t =>
      let g' := (g.append n).remember n.owner t g.nextId
      if scope = n.owner then g' else g'.remember scope t g.nextId

/-- The graph in which the type of a star-projected node is narrowed. -/
def refineAt (B : Build) (g : Graph) (id : NodeId) (declared : Declaration) : Graph :=
  match g.node? id with
  | some n =>
      let types := n.resolved.filterMap (fun d => (g.node? d).map Node.type)
      g.change id (fun n => { n with type := B.registry.refine declared n.type types })
  | none => g

/-- The graph in which the type of a new node is narrowed, if its value is not a
factory. -/
def narrowAt (B : Build) (g : Graph) (id : NodeId) (declared : Declaration)
    (assisted : Bool) : Graph :=
  if assisted then g else g.refineAt B id declared

/-- Narrowing changes nothing, or the type of one node, which is not a factory. -/
theorem narrowAt_cases
    (B : Build)
    (g : Graph)
    (id : NodeId)
    (declared : Declaration)
    (assisted : Bool) :
    g.narrowAt B id declared assisted = g
      ∨ (assisted = false ∧ ∃ types, g.narrowAt B id declared assisted
        = g.change id (fun n => { n with type := B.registry.refine declared n.type types })) := by
  cases assisted with
  | true => exact .inl rfl
  | false =>
      cases hn : g.node? id with
      | none => exact .inl (by simp [narrowAt, refineAt, hn])
      | some n =>
          refine .inr ⟨rfl, n.resolved.filterMap (fun d => (g.node? d).map Node.type), ?_⟩
          simp [narrowAt, refineAt, hn]

/-- Whether a node was made for a declaration of this name, with this type. -/
def IsInstance (g : Graph) (id : NodeId) (name : QName) (type : Ty) : Prop :=
  ∃ n, g.node? id = some n ∧ n.origin = some name ∧ n.type = type

/-- Whether a node may be used as an answer: if it is on the stack, the cycle has to be
put off by one of the nodes from there on. -/
def Admits (g : Graph) (stack : List NodeId) (id : NodeId) : Prop :=
  id ∈ stack → ∃ n ∈ stack.dropWhile (fun i => i ≠ id), g.breaksCycles n = true

end Graph

/-! ## What a scope offers -/

/-- The explicit candidates of a scope that can be used there. -/
def Graph.explicitCandidates (B : Build) (g : Graph) (s : Scope) (t : Ty) :
    List Candidate :=
  (s.candidatesFor B.registry B.catalog t).filter
    (fun c => c.isExplicit && Resolve.isVisible (g.path s.id) c)

/-- The candidates of the first tier of a scope that has any. -/
inductive Offers (B : Build) (s : Scope) (t : Ty) (g : Graph) :
    List Candidate → Graph → Prop
  | explicit :
      g.explicitCandidates B s t ≠ [] →
      Offers B s t g (g.explicitCandidates B s t) g
  | internal :
      g.explicitCandidates B s t = [] →
      Resolve.implicitCandidates B s (g.path s.id) t false ≠ [] →
      Offers B s t g (Resolve.implicitCandidates B s (g.path s.id) t false) g
  | external :
      g.explicitCandidates B s t = [] →
      Resolve.implicitCandidates B s (g.path s.id) t false = [] →
      Resolve.implicitCandidates B s (g.path s.id) t true ≠ [] →
      Offers B s t g (Resolve.implicitCandidates B s (g.path s.id) t true) g
  | framework {chain chain' : Chain} {offered : List Candidate} {g₁ : Graph} :
      g.explicitCandidates B s t = [] →
      Resolve.implicitCandidates B s (g.path s.id) t false = [] →
      Resolve.implicitCandidates B s (g.path s.id) t true = [] →
      Resolve.frameworkCandidates B s (g.path s.id) t
          (s.candidatesFor B.registry B.catalog t) ⟨g, chain⟩
        = .ok offered ⟨g₁, chain'⟩ →
      Offers B s t g offered g₁

/-- A candidate that a scope may offer for a type. -/
inductive Offered (B : Build) (s : Scope) (t : Ty) : Candidate → Prop
  | own {c : Candidate} :
      c ∈ s.candidatesFor B.registry B.catalog t →
      Offered B s t c
  | implicit {e : Entry} {m : Match} :
      e ∈ B.catalog.implicitFor t.classifier →
      B.registry.match? e t s.context = some m →
      Offered B s t (.declaration m)
  | self :
      s.component = some t.nonNull →
      Offered B s t (.self t.nonNull)
  | childComponent {parameters : List Ty} {returns : Ty} :
      t.functionParts? = some (parameters, returns) →
      B.registry.hasFlag returns.classifier .childComponent = true →
      Offered B s t (.childComponent t.nonNull parameters returns.nonNull)
  | map :
      t.isMap = true →
      Offered B s t (.map t.nonNull)

/-- Where a declaration comes from that becomes a node: a scope offers it for a type,
or it is an entry of a collection. -/
inductive Supplied (B : Build) :
    (declaredIn : Option ScopeId) → (key : Option Ty) → Entry → (declared : Declaration) →
      (assisted : Bool) → Prop
  | offered {s : Scope} {t : Ty} {m : Match} :
      Offered B s t (.declaration m) →
      Supplied B m.declaredIn (some t) ⟨m.declaration, m.receivers⟩ m.declared m.assisted
  | entry (e : Entry) :
      Supplied B none none e e.declaration false

/-- Every scope comes after its parent. -/
def Graph.Rooted (g : Graph) : Prop :=
  ∀ (i : Nat) (s : Scope) (parent : ScopeId), g.scopes[i]? = some s →
    s.parent = some parent → parent.index < i

/-- A type has no answer in a scope and nothing is offered for it, there or further
up.  Only a scope that is not there offers nothing of itself. -/
inductive Absent (B : Build) (t : Ty) : Option ScopeId → Graph → Graph → Prop
  | top {g : Graph} : Absent B t none g g
  | unknown {scope : ScopeId} {g : Graph} :
      (g.Rooted → g.scope? scope = none) →
      g.answers.find? scope t = none →
      Absent B t (some scope) g g
  | step {scope : ScopeId} {s : Scope} {g g₁ g₂ : Graph} :
      g.answers.find? scope t = none →
      g.scope? scope = some s →
      Offers B s t g [] g₁ →
      Absent B t s.parent g₁ g₂ →
      Absent B t (some scope) g g₂

/-! ## Nodes of candidates -/

/-- One thing to resolve for a node: a request, or an entry of a collection. -/
inductive Demand where
  | request (r : Request)
  | entry (e : Entry)

/-- The request that a demand stands for. -/
def Demand.asRequest : Demand → Request
  | .request r => r
  | .entry e => e.request

@[simp] theorem map_asRequest_request (rs : List Request) :
    (rs.map Demand.request).map Demand.asRequest = rs := by
  rw [List.map_map]
  exact List.map_id rs

/-- The scope in which the dependencies of a node are resolved. -/
def Node.evaluated (n : Node) : ScopeId :=
  match n.kind with
  | .provider inner _ _ => inner
  | .childComponent inner _ => inner
  | _ => n.owner

/-- Whether the value is a collection, whose entries are not requested by type. -/
def NodeKind.isCollection : NodeKind → Bool
  | .set _ => true
  | .map _ => true
  | _ => false

/-- Whether a new node records the demands that are to be resolved for it, and the scope
in which they are. -/
structure Node.Plans (n : Node) (evaluated : ScopeId) (demands : List Demand) : Prop where
  evaluated : n.evaluated = evaluated
  dependencies : n.dependencies = demands.map Demand.asRequest
  requests : n.kind.isCollection = false → ∃ rs : List Request, demands = rs.map .request
  resolved : n.resolved = []
  interceptors : n.interceptors = []

/-- A node without dependencies. -/
theorem Node.Plans.plain
    {type : Ty}
    {owner : ScopeId}
    {kind : NodeKind}
    (hevaluated : (Node.plain type owner kind).evaluated = owner) :
    (Node.plain type owner kind).Plans owner [] :=
  ⟨hevaluated, rfl, fun _ => ⟨[], rfl⟩, rfl, rfl⟩

theorem Node.ofAlias_plans
    (d : Declaration)
    (type : Ty)
    (owner : ScopeId) :
    (Node.ofAlias d type owner).Plans owner (d.requests.map .request) :=
  ⟨rfl, (map_asRequest_request _).symm, fun _ => ⟨_, rfl⟩, rfl, rfl⟩

theorem Node.ofDeclaration_plans
    (e : Entry)
    (declared : Declaration)
    (type : Ty)
    (assisted : Bool)
    (owner : ScopeId) :
    (Node.ofDeclaration e declared type assisted owner).Plans owner
      (e.declaration.requests.map .request) :=
  ⟨rfl, (map_asRequest_request _).symm, fun _ => ⟨_, rfl⟩, rfl, rfl⟩

/-- The node of a collection with given entries. -/
def Node.ofCollection (kind : Collection.Kind) (type : Ty) (owner : ScopeId)
    (entries : List Entry) : Node :=
  let nodeKind :=
    match kind with
    | .set => NodeKind.set (entries.map Entry.origin)
    | .map => NodeKind.map (entries.filterMap (fun e => e.declaration.mapKey))
  { Node.plain type owner nodeKind with dependencies := entries.map Entry.request }

/-- The scope in which the value of a provider is resolved. -/
def Graph.providerSpec (B : Build) (g : Graph) (scope : ScopeId) (type : Ty)
    (parameters : List Ty) : ScopeSpec :=
  { name := g.scopeName scope ++ "/" ++ type.format B.naming
    kind := .provider
    context := CallContext.ofFunctionType type
    inputs := parameters }

/-- The request for the value of a provider. -/
def Request.provided (r : Request) (returns : Ty) : Request :=
  { type := returns, origin := r.origin, required := true, lazy := true }

/-- The node of a provider. -/
def Node.ofProvider (r : Request) (type : Ty) (owner inner : ScopeId)
    (parameters : List Ty) (returns : Ty) : Node :=
  { Node.plain type owner
      (.provider inner parameters (CallContext.ofFunctionType type)) with
    dependencies := [r.provided returns] }

theorem Node.ofProvider_plans
    (r : Request)
    (type : Ty)
    (owner inner : ScopeId)
    (parameters : List Ty)
    (returns : Ty) :
    (Node.ofProvider r type owner inner parameters returns).Plans inner
      [.request (r.provided returns)] :=
  ⟨rfl, rfl, fun _ => ⟨[_], rfl⟩, rfl, rfl⟩

/-- The requests for the entry points of a component. -/
def Component.requests (c : Component) (origin : QName) : List Request :=
  c.entryPoints.map (fun t => { type := t, origin := origin })

/-- The node of a factory of a child component. -/
def Node.ofChildComponent (c : Component) (origin : QName) (type : Ty)
    (owner inner : ScopeId) (parameters : List Ty) : Node :=
  { Node.plain type owner (.childComponent inner parameters) with
    origin := some origin
    dependencies := c.requests origin }

/-- The new node that a candidate asks for, the scope its dependencies are resolved in,
and what they are. -/
inductive Blueprint (B : Build) (scope : ScopeId) (r : Request) (g : Graph) :
    Candidate → Node → ScopeId → List Demand → Graph → Prop
  | input {index : Nat} {type : Ty} {declaredIn : Option ScopeId} :
      g.answers.find? (declaredIn.getD scope) r.type = none →
      Blueprint B scope r g (.input index type declaredIn)
        (.plain type (declaredIn.getD scope) (.input index)) (declaredIn.getD scope) [] g
  | object {type : Ty} :
      Blueprint B scope r g (.object type) (.plain type scope .object) scope [] g
  | self {type : Ty} :
      Blueprint B scope r g (.self type) (.plain type scope .self) scope [] g
  | funAlias {d : Declaration} {type : Ty} :
      Blueprint B scope r g (.funAlias d type) (.ofAlias d type scope) scope
        (d.requests.map .request) g
  | set {type element : Ty} {merged : Option (List Entry)} {m : Memo} :
      g.memo.merged B.registry B.catalog B.options .set type (g.path scope)
        = (.ok merged, m) →
      Blueprint B scope r g (.set type element)
        (.ofCollection .set type scope (merged.getD [])) scope
        ((merged.getD []).map .entry) (g.withMemo m)
  | map {type : Ty} {merged : Option (List Entry)} {m : Memo} :
      g.memo.merged B.registry B.catalog B.options .map type (g.path scope)
        = (.ok merged, m) →
      Blueprint B scope r g (.map type)
        (.ofCollection .map type scope (merged.getD [])) scope
        ((merged.getD []).map .entry) (g.withMemo m)
  | provider {type returns : Ty} {parameters : List Ty} {inner : ScopeId} {g₁ : Graph} :
      g.pushScope B (some scope) (g.providerSpec B scope type parameters) {}
        = .ok (inner, g₁) →
      Blueprint B scope r g (.provider type parameters returns)
        (.ofProvider r type scope inner parameters returns) inner
        [.request (r.provided returns)] g₁
  | childComponent {type component : Ty} {parameters : List Ty} {c : Component}
      {inner : ScopeId} {g₁ : Graph} :
      B.catalog.component? component.classifier = some c →
      g.addScope B (some scope)
          (Graph.componentSpec B c .childComponent component parameters) c.declarations
        = .ok (inner, g₁) →
      Blueprint B scope r g (.childComponent type parameters component)
        (.ofChildComponent c ((B.registry.name? component.classifier).getD r.origin)
          type scope inner parameters)
        inner
        ((c.requests ((B.registry.name? component.classifier).getD r.origin)).map
          .request) g₁

theorem Blueprint.plans
    {B : Build}
    {scope evaluated : ScopeId}
    {r : Request}
    {c : Candidate}
    {n : Node}
    {demands : List Demand}
    {g g' : Graph}
    (h : Blueprint B scope r g c n evaluated demands g') :
    n.Plans evaluated demands := by
  cases h with
  | input => exact .plain rfl
  | object => exact .plain rfl
  | self => exact .plain rfl
  | funAlias => exact Node.ofAlias_plans _ _ _
  | set =>
      exact ⟨rfl, by simp [Node.ofCollection, Demand.asRequest], (nomatch ·), rfl, rfl⟩
  | map =>
      exact ⟨rfl, by simp [Node.ofCollection, Demand.asRequest], (nomatch ·), rfl, rfl⟩
  | provider => exact Node.ofProvider_plans _ _ _ _ _ _
  | childComponent =>
      exact ⟨rfl, (map_asRequest_request _).symm, fun _ => ⟨_, rfl⟩, rfl, rfl⟩

/-! ## Derivations -/

/-- What a finished part of a search comes to. -/
inductive Judgement where
  /-- A request made in a scope is answered by a node. -/
  | request (scope : ScopeId) (r : Request) (id : NodeId)
  /-- A request for a normalized type is answered by a tier of a scope or of one of
  its ancestors. -/
  | search (scope : ScopeId) (r : Request) (id : NodeId)
  /-- A candidate that a scope chose for a request becomes a node. -/
  | candidate (s : Scope) (r : Request) (c : Candidate) (id : NodeId)
  /-- A declaration becomes a node. -/
  | declaration (scope : ScopeId) (declaredIn : Option ScopeId) (key : Option Ty)
      (e : Entry) (declared : Declaration) (assisted : Bool) (id : NodeId)
  /-- A new node is appended and its dependencies are resolved in a scope. -/
  | node (n : Node) (key : Option Ty) (scope evaluated : ScopeId) (demands : List Demand)
      (id : NodeId)
  /-- Demands are resolved in a scope, in order. -/
  | demands (scope : ScopeId) (demands : List Demand) (ids : List NodeId)
  /-- Interceptors of a type are attached to a node. -/
  | interceptors (id : NodeId) (owner : ScopeId) (t : Ty) (entries : List Entry)
      (attached : List Interceptor)

/-- The interceptor that is attached for an entry, once its dependencies are
resolved. -/
def Interceptor.ofEntry (e : Entry) (t : Ty) (resolved : List NodeId) : Interceptor :=
  let position := e.declaration.factoryPosition t
  { declaration := e.declaration
    receivers := e.receivers
    factoryParameter := position
    dependencies := e.declaration.requestsExcept position
    resolved := resolved }

/-- A part of a search with a stack of open nodes, from one graph to another. -/
inductive Derives (B : Build) : List NodeId → Graph → Judgement → Graph → Prop
  | found {stack : List NodeId} {scope : ScopeId} {r : Request} {id : NodeId}
      {g g' : Graph} :
      Derives B stack g
        (.search scope { r with type := B.registry.normalize r.type } id) g' →
      Derives B stack g (.request scope r id) g'
  | null {stack : List NodeId} {scope : ScopeId} {r : Request} {id : NodeId}
      {g g₁ g' : Graph} :
      Absent B (B.registry.normalize r.type) (some scope) g g₁ →
      (B.registry.normalize r.type).nullable = true →
      Derives B stack g₁
        (.node (.plain (B.registry.normalize r.type) scope .null)
          (some (B.registry.normalize r.type)) scope scope [] id) g' →
      Derives B stack g (.request scope r id) g'
  | missing {stack : List NodeId} {scope : ScopeId} {r : Request} {id : NodeId}
      {g g₁ g' : Graph} :
      Absent B (B.registry.normalize r.type) (some scope) g g₁ →
      (B.registry.normalize r.type).nullable = false →
      r.required = false →
      Derives B stack g₁
        (.node (.plain (B.registry.normalize r.type) scope .missing) none scope scope
          [] id) g' →
      Derives B stack g (.request scope r id) g'
  | recalled {stack : List NodeId} {scope : ScopeId} {r : Request} {id : NodeId}
      {g : Graph} :
      g.answers.find? scope r.type = some id →
      g.Admits stack id →
      Derives B stack g (.search scope r id) g
  | chosen {stack : List NodeId} {scope : ScopeId} {s : Scope} {r : Request}
      {candidates : List Candidate} {c : Candidate} {id : NodeId} {g g₁ g' : Graph} :
      g.answers.find? scope r.type = none →
      g.scope? scope = some s →
      s.id = scope →
      Offers B s r.type g candidates g₁ →
      mostSpecific Candidate.rawType r.type candidates = .chosen c →
      Derives B stack g₁ (.candidate s r c id) g' →
      Derives B stack g (.search scope r id) g'
  | inherited {stack : List NodeId} {scope parent : ScopeId} {s : Scope} {r : Request}
      {id : NodeId} {g g₁ g' : Graph} :
      g.answers.find? scope r.type = none →
      g.scope? scope = some s →
      Offers B s r.type g [] g₁ →
      s.parent = some parent →
      Derives B stack g₁ (.search parent r id) g' →
      Derives B stack g (.search scope r id) (g'.remember scope r.type id)
  | declaration {stack : List NodeId} {s : Scope} {r : Request} {m : Match}
      {id : NodeId} {g g' : Graph} :
      Offered B s r.type (.declaration m) →
      Derives B stack g
        (.declaration s.id m.declaredIn (some r.type) ⟨m.declaration, m.receivers⟩
          m.declared m.assisted id) g' →
      Derives B stack g (.candidate s r (.declaration m) id) g'
  | keptInput {stack : List NodeId} {s : Scope} {r : Request} {index : Nat}
      {type : Ty} {declaredIn : Option ScopeId} {id : NodeId} {g : Graph} :
      Offered B s r.type (.input index type declaredIn) →
      g.answers.find? (declaredIn.getD s.id) r.type = some id →
      Derives B stack g (.candidate s r (.input index type declaredIn) id)
        (g.remember s.id r.type id)
  | aliasAgain {stack : List NodeId} {s : Scope} {r : Request} {d : Declaration}
      {type : Ty} {id : NodeId} {g : Graph} :
      Offered B s r.type (.funAlias d type) →
      id ∈ stack →
      g.IsInstance id d.name type →
      g.Admits stack id →
      Derives B stack g (.candidate s r (.funAlias d type) id) g
  | built {stack : List NodeId} {s : Scope} {evaluated : ScopeId} {r : Request}
      {c : Candidate} {n : Node} {demands : List Demand} {id : NodeId} {g g₁ g' : Graph} :
      Offered B s r.type c →
      Blueprint B s.id r g c n evaluated demands g₁ →
      Derives B stack g₁ (.node n (some r.type) s.id evaluated demands id) g' →
      Derives B stack g (.candidate s r c id) g'
  | again {stack : List NodeId} {scope : ScopeId} {declaredIn : Option ScopeId}
      {key : Option Ty} {e : Entry} {declared : Declaration} {assisted : Bool}
      {id : NodeId} {g : Graph} :
      Supplied B declaredIn key e declared assisted →
      id ∈ stack →
      g.IsInstance id e.declaration.name
        (if assisted then key.getD e.declaration.type else e.declaration.type) →
      g.Admits stack id →
      Derives B stack g (.declaration scope declaredIn key e declared assisted id) g
  | relocated {stack : List NodeId} {scope : ScopeId} {declaredIn : Option ScopeId}
      {t : Ty} {e : Entry} {declared : Declaration} {assisted : Bool} {id : NodeId}
      {g : Graph} :
      Supplied B declaredIn (some t) e declared assisted →
      ownerOf (g.path scope) scope declaredIn e.declaration ≠ scope →
      g.answers.find? (ownerOf (g.path scope) scope declaredIn e.declaration) t
        = some id →
      g.Admits stack id →
      Derives B stack g (.declaration scope declaredIn (some t) e declared assisted id)
        (g.remember scope t id)
  | fresh {stack : List NodeId} {scope owner : ScopeId} {declaredIn : Option ScopeId}
      {key : Option Ty} {e : Entry} {declared : Declaration} {assisted : Bool}
      {n : Node} {entries : List Entry} {attached : List Interceptor} {m : Memo}
      {id : NodeId} {g g₁ g' : Graph} :
      Supplied B declaredIn key e declared assisted →
      ownerOf (g.path scope) scope declaredIn e.declaration = owner →
      (∀ t, key = some t → owner ≠ scope → g.answers.find? owner t = none) →
      Derives B stack g
        (.node
          (.ofDeclaration e declared
            (if assisted then key.getD e.declaration.type else e.declaration.type)
            assisted owner)
          key scope owner (e.declaration.requests.map .request) id) g₁ →
      (g₁.narrowAt B id declared assisted).node? id = some n →
      (g₁.narrowAt B id declared assisted).memo.visible B.registry B.catalog n.type
          ((g₁.narrowAt B id declared assisted).path owner)
        = (entries, m) →
      Derives B (stack ++ [id]) ((g₁.narrowAt B id declared assisted).withMemo m)
        (.interceptors id owner n.type entries attached) g' →
      Derives B stack g (.declaration scope declaredIn key e declared assisted id)
        (g'.change id (fun n => { n with interceptors := attached }))
  | node {stack : List NodeId} {n : Node} {key : Option Ty} {scope evaluated : ScopeId}
      {demands : List Demand} {ids : List NodeId} {g g' : Graph} :
      n.Plans evaluated demands →
      Derives B (stack ++ [g.nextId]) (g.begin n key scope) (.demands evaluated demands ids)
        g' →
      Derives B stack g (.node n key scope evaluated demands g.nextId)
        (g'.change g.nextId (fun n => { n with resolved := ids }))
  | noDemands {stack : List NodeId} {scope : ScopeId} {g : Graph} :
      Derives B stack g (.demands scope [] []) g
  | requestDemand {stack : List NodeId} {scope : ScopeId} {r : Request} {id : NodeId}
      {demands : List Demand} {ids : List NodeId} {g g₁ g' : Graph} :
      Derives B stack g (.request scope r id) g₁ →
      Derives B stack g₁ (.demands scope demands ids) g' →
      Derives B stack g (.demands scope (.request r :: demands) (id :: ids)) g'
  | entryDemand {stack : List NodeId} {scope : ScopeId} {e : Entry} {id : NodeId}
      {demands : List Demand} {ids : List NodeId} {g g₁ g' : Graph} :
      Derives B stack g (.declaration scope none none e e.declaration false id) g₁ →
      Derives B stack g₁ (.demands scope demands ids) g' →
      Derives B stack g (.demands scope (.entry e :: demands) (id :: ids)) g'
  | noInterceptors {stack : List NodeId} {id : NodeId} {owner : ScopeId} {t : Ty}
      {g : Graph} :
      Derives B stack g (.interceptors id owner t [] []) g
  | interceptor {stack : List NodeId} {id : NodeId} {owner : ScopeId} {t : Ty}
      {e : Entry} {entries : List Entry} {ids : List NodeId}
      {attached : List Interceptor} {g g₁ g' : Graph} :
      Derives B stack g
        (.demands owner
          ((e.declaration.requestsExcept (e.declaration.factoryPosition t)).map .request)
          ids) g₁ →
      Derives B stack g₁ (.interceptors id owner t entries attached) g' →
      Derives B stack g
        (.interceptors id owner t (e :: entries) (.ofEntry e t ids :: attached)) g'

/-- A search with a stack of open nodes that stops at an error, from one graph to
another. -/
inductive Fails (B : Build) : List NodeId → Graph → Graph → Prop
  | here {stack : List NodeId} {g : Graph} :
      Fails B stack g g
  | merged {stack : List NodeId} {m : Memo} {g g' : Graph} :
      g.Merges B m →
      Fails B stack (g.withMemo m) g' →
      Fails B stack g g'
  | entered {stack : List NodeId} {s : Scope} {spec : ScopeSpec}
      {found : Contributions} {inner : ScopeId} {g g₁ g' : Graph} :
      g.scope? s.id = some s →
      g.pushScope B (some s.id) spec found = .ok (inner, g₁) →
      Fails B stack g₁ g' →
      Fails B stack g g'
  | after {stack : List NodeId} {scope : ScopeId} {demands : List Demand}
      {ids : List NodeId} {g g₁ g' : Graph} :
      Derives B stack g (.demands scope demands ids) g₁ →
      Fails B stack g₁ g' →
      Fails B stack g g'
  | inside {stack : List NodeId} {n : Node} {key : Option Ty}
      {scope evaluated : ScopeId} {demands : List Demand} {g g' : Graph} :
      n.Plans evaluated demands →
      Fails B (stack ++ [g.nextId]) (g.begin n key scope) g' →
      Fails B stack g g'
  | attaching {stack : List NodeId} {n : Node} {key : Option Ty}
      {scope evaluated : ScopeId} {demands : List Demand} {id : NodeId} {m : Memo}
      {declared : Declaration} {assisted : Bool} {g g₁ g' : Graph} :
      Derives B stack g (.node n key scope evaluated demands id) g₁ →
      (g₁.narrowAt B id declared assisted).Merges B m →
      Fails B (stack ++ [id])
        ((g₁.narrowAt B id declared assisted).withMemo m) g' →
      Fails B stack g g'

end Wiring
