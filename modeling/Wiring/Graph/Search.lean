import Wiring.Graph
import Wiring.Walk

/-!
# One search for an answer

A search extends the graph while it keeps the chain of what it is in the middle
of: the nodes whose dependencies are being resolved and the requests that are
open, both from the top-level request inwards.  The chain is shared by all scopes
that the search passes through, so a cycle through a nested scope or through a
parent is seen.

A failing search stops where it fails.
-/

namespace Wiring

/-- What a search is in the middle of, outermost first. -/
structure Chain where
  /-- Nodes whose dependencies are being resolved. -/
  nodes : List NodeId := []
  /-- Open requests. -/
  requests : List Request := []
  counter : Walk.Counter

namespace Chain

/-- The chain before the top-level request. -/
def start (options : Options) : Chain :=
  { counter := { maxDepth := options.maxDepth, maxSteps := options.maxSteps } }

/-- The open requests as hops of a reported chain. -/
def links (c : Chain) : List Link := c.requests.map Request.link

/-- Open one more request, under counters that have entered it. -/
def openRequest (c : Chain) (counter : Walk.Counter) (r : Request) : Chain :=
  { c with requests := c.requests ++ [r], counter := counter }

/-- Close the innermost request. -/
def closeRequest (c : Chain) : Chain :=
  { c with requests := c.requests.dropLast, counter := c.counter.leave }

/-- Put one more node on the chain. -/
def pushNode (c : Chain) (id : NodeId) : Chain :=
  { c with nodes := c.nodes ++ [id] }

/-- Take the innermost node off the chain. -/
def popNode (c : Chain) : Chain :=
  { c with nodes := c.nodes.dropLast }

@[simp] theorem popNode_pushNode (c : Chain) (id : NodeId) :
    (c.pushNode id).popNode = c := by
  simp [pushNode, popNode]

end Chain

/-- The graph and the chain of a search. -/
structure Search where
  graph : Graph
  chain : Chain

/-- A step of a search: it ends with an answer or a resolution error, and either
way with the graph and chain as they are then. -/
abbrev Resolve := EStateM ResolutionError Search

namespace Resolve

variable {α : Type}

/-- The graph as it is now. -/
def graph : Resolve Graph := fun s => .ok s.graph s

/-- Change the graph. -/
def modifyGraph (f : Graph → Graph) : Resolve Unit := fun s =>
  .ok () { s with graph := f s.graph }

/-- Run a step that appends to the graph and may fail. -/
def extend (f : Graph → Except ResolutionError (α × Graph)) : Resolve α := fun s =>
  match f s.graph with
  | .ok (a, g) => .ok a { s with graph := g }
  | .error e => .error e s

/-- Run a step between two changes of the chain, the second of which is made
whether the step fails or not. -/
def bracket (before after : Chain → Chain) (step : Resolve α) : Resolve α := fun s =>
  match step { s with chain := before s.chain } with
  | .ok a s => .ok a { s with chain := after s.chain }
  | .error e s => .error e { s with chain := after s.chain }

/-- Run a step with a request open. -/
def withRequest (counter : Walk.Counter) (r : Request) (step : Resolve α) : Resolve α :=
  bracket (fun c => c.openRequest counter r) Chain.closeRequest step

/-- Run a step with a node on the chain. -/
def withNode (id : NodeId) (step : Resolve α) : Resolve α :=
  bracket (fun c => c.pushNode id) Chain.popNode step

/-- The first of two steps that finds something. -/
def orTry (first second : Resolve (Option α)) : Resolve (Option α) := do
  match ← first with
  | some a => pure (some a)
  | none => second

/-! ## Answers and nodes -/

/-- The answer that is remembered for a scope and a type. -/
def answer? (scope : ScopeId) (t : Ty) : Resolve (Option NodeId) := fun s =>
  .ok (s.graph.answers.find? scope t) s

/-- Remember an answer for a scope and a type. -/
def remember (scope : ScopeId) (t : Ty) (id : NodeId) : Resolve Unit :=
  modifyGraph (fun g => { g with answers := g.answers.insert scope t id })

/-- Append a node; its identity becomes its position. -/
def appendNode (n : Node) : Resolve NodeId := fun s =>
  let id : NodeId := ⟨s.graph.nodes.size⟩
  .ok id { s with graph := { s.graph with nodes := s.graph.nodes.push { n with id := id } } }

/-- Append a node and remember it for its owner, if a type is requested. -/
def pushNode (n : Node) (key : Option Ty) : Resolve NodeId := do
  let id ← appendNode n
  match key with
  | some t => remember n.owner t id
  | none => pure ()
  pure id

/-- Change the node at a position. -/
def modifyNode (id : NodeId) (f : Node → Node) : Resolve Unit :=
  modifyGraph (fun g => { g with nodes := g.nodes.modify id.index f })

/-! ## Cycles -/

/-- The nodes on the chain from the first that satisfies `p` to the innermost. -/
def chainFrom (p : NodeId → Bool) : Resolve (List NodeId) := fun s =>
  .ok (s.chain.nodes.dropWhile (fun id => !p id)) s

/-- Ask again for a node that is on the chain, with the nodes inside it.  That is
legal when one of them puts the cycle off. -/
def revisit (repeated : NodeId) (inside : List NodeId) : Resolve NodeId := fun s =>
  if (repeated :: inside).any s.graph.breaksCycles then .ok repeated s
  else .error (.circular (s.graph.links (repeated :: inside ++ [repeated]))) s

/-- Check that a node may be used as an answer: if it is on the chain, the cycle
has to be legal. -/
def checkCycle (id : NodeId) : Resolve Unit := do
  match ← chainFrom (fun n => n = id) with
  | [] => pure ()
  | repeated :: inside =>
      let _ ← revisit repeated inside
      pure ()

end Resolve
end Wiring
