import Wiring.Catalog
import Wiring.Collection.Memo
import Wiring.Plan
import Wiring.Scope.Ancestry

/-!
# The binding graph

The graph of one build consists of the scope tree, the node arena, the answers
found so far, what the scopes have merged so far and the top-level requests.  Scopes
and nodes are only ever appended, so positions stay valid.

An answer is remembered for a scope and a requested type.
-/

namespace Wiring

/-- What does not change during a build. -/
structure Build where
  registry : Registry
  catalog : Catalog := {}
  options : Options := {}

/-- The naming of a build's types. -/
def Build.naming (B : Build) : Naming := .ofRegistry B.registry

/-- The nodes found so far for a scope and a requested type, once each. -/
abbrev Answers := List ((ScopeId × Ty) × NodeId)

namespace Answers

/-- The node that answers requests for a type in a scope. -/
def find? (answers : Answers) (scope : ScopeId) (t : Ty) : Option NodeId :=
  answers.lookup (scope, t)

/-- Remember a node as the answer for a scope and a type. -/
def insert (answers : Answers) (scope : ScopeId) (t : Ty) (id : NodeId) : Answers :=
  ((scope, t), id) :: answers.filter (fun a => a.1 ≠ (scope, t))

/-- Keep the answers that name one of the first nodes and one of the first
scopes. -/
def restrict (answers : Answers) (nodes scopes : Nat) : Answers :=
  answers.filter (fun a => a.2.index < nodes && a.1.1.index < scopes)

end Answers

/-- The scope tree, the node arena, the answers, what the scopes have merged, and the
roots of one build. -/
structure Graph where
  scopes : Array Scope := #[]
  nodes : Array Node := #[]
  answers : Answers := []
  memo : Memo := {}
  roots : List Root := []

namespace Graph

/-- The graph without scopes. -/
def empty : Graph := {}

/-- The scope at a position. -/
def scope? (g : Graph) (id : ScopeId) : Option Scope := g.scopes[id.index]?

/-- The node at a position. -/
def node? (g : Graph) (id : NodeId) : Option Node := g.nodes[id.index]?

/-- A scope and its ancestors, nearest first. -/
def path (g : Graph) (id : ScopeId) : List Scope := ancestry g.scopes id

/-- The name of a scope in messages. -/
def scopeName (g : Graph) (id : ScopeId) : String :=
  ((g.scope? id).map (fun s => s.name)).getD "<unknown scope>"

/-- Whether a cycle through a node is put off until a function is invoked. -/
def breaksCycles (g : Graph) (id : NodeId) : Bool :=
  (g.node? id).any Node.breaksCycles

/-- Several nodes as hops of a reported cycle. -/
def links (g : Graph) (ids : List NodeId) : List Link :=
  ids.filterMap (fun id => (g.node? id).map Node.link)

/-! ## Scopes -/

/-- Append a scope with given contributions. -/
def pushScope (B : Build) (g : Graph) (parent : Option ScopeId) (spec : ScopeSpec)
    (found : Contributions) : Except ResolutionError (ScopeId × Graph) :=
  let id : ScopeId := ⟨g.scopes.size⟩
  let depthOf (p : ScopeId) : Nat := ((g.scope? p).map Scope.depth).getD 0
  match Scope.create B.options id (parent.map (fun p => (p, depthOf p))) spec found with
  | .error e => .error e
  | .ok s =>
      let s :=
        match parent.bind g.scope? with
        | some p => s.inheritFrom p
        | none => s
      .ok (id, { g with scopes := g.scopes.push s })

/-- Append a scope with given declarations; the modules among them are
expanded. -/
def addScope (B : Build) (g : Graph) (parent : Option ScopeId) (spec : ScopeSpec)
    (declarations : List Declaration) : Except ResolutionError (ScopeId × Graph) :=
  match expand B.catalog.module? declarations with
  | .error e => .error e
  | .ok found => g.pushScope B parent spec found

/-- The scope that builds a component. -/
def componentSpec (B : Build) (c : Component) (kind : ScopeKind) (type : Ty)
    (inputs : List Ty) : ScopeSpec :=
  { name := type.format B.naming
    kind := kind
    component := some type
    inputs := inputs
    entryPoints := c.entryPoints }

/-- Append the scope of a component of the catalog. -/
def addComponent (B : Build) (g : Graph) (parent : Option ScopeId) (type : Ty) :
    Except ResolutionError (ScopeId × Graph) :=
  match B.catalog.component? type.classifier with
  | none =>
      .error (.unknownClassifier type.classifier
        ((B.registry.name? type.classifier).getD ⟨"<component>"⟩))
  | some c =>
      let kind := if parent.isSome then ScopeKind.childComponent else .component
      g.addScope B parent (componentSpec B c kind type []) c.declarations

/-! ## Plans -/

/-- What a plan says about a scope. -/
def summary (s : Scope) : ScopeSummary :=
  { id := s.id
    name := s.name
    parent := s.parent
    component := s.component
    context := s.context
    inputs := s.inputs }

/-- The plan that the graph amounts to. -/
def plan (g : Graph) : Plan :=
  { nodes := g.nodes, scopes := g.scopes.toList.map summary, roots := g.roots }

/-- Give up the scopes and nodes after given positions, the answers that name them and
what those scopes have merged. -/
def rollback (g : Graph) (nodes scopes : Nat) : Graph :=
  { g with
    scopes := g.scopes.take scopes
    nodes := g.nodes.take nodes
    answers := g.answers.restrict nodes scopes
    memo := g.memo.restrict scopes }

end Graph
end Wiring
