import Wiring.Graph.Construction
import Wiring.Plan.StarMerge
import Wiring.Selection

/-!
# Resolution of requests

A request is answered by the first tier that has a candidate: explicit ones of the
scope, internal and external global declarations, what the shape of the type
offers, and then the same for the parent scope.  Without any candidate a nullable
request is answered by a null node and an optional one by a missing node; anything
else is an error.

Nested requests are resolved by the same function with one level less, down from
the greatest depth that the options allow.
-/

namespace Wiring
namespace Resolve

section Tiers

variable (B : Build) (resolve : ScopeId → Request → Resolve NodeId)

/-- Whether a candidate can be used along an ancestry: a declaration pinned to a
component is only seen below that component. -/
def isVisible (path : List Scope) (c : Candidate) : Bool :=
  match c.component? with
  | some target => (ownerForTarget path target).isSome
  | none => true

/-- Answer a request from the candidates of one tier, if there are any. -/
def tryTier (scope : ScopeId) (r : Request) (tier : Tier) (candidates : List Candidate) :
    Resolve (Option NodeId) :=
  match mostSpecific Candidate.rawType r.type candidates with
  | .absent => pure none
  | .chosen c => do
      let id ← nodeOf B resolve scope r c
      pure (some id)
  | .ambiguous several =>
      throw (.ambiguous r.type tier (several.map Candidate.describe))

/-- The global declarations, external ones or the others, that match a type. -/
def implicitCandidates (s : Scope) (path : List Scope) (t : Ty) (external : Bool) :
    List Candidate :=
  let entries :=
    (B.catalog.implicitFor t.classifier).filter
      (fun e => e.declaration.external == external)
  (entries.filterMap
      (fun e => (B.registry.match? e t s.context).map Candidate.declaration)).filter
    (isVisible path)

/-- Whether what the shape of a type offers can be made in a scope: a set only if it
exists there. -/
def isMakeable (scope : ScopeId) (c : Candidate) : Resolve Bool := do
  match c with
  | .set type _ =>
      let found ← collected B scope .set type
      pure found.isSome
  | _ => pure true

/-- The map of a map type, if it exists in a scope. -/
def mapCandidate (scope : ScopeId) (t : Ty) : Resolve (List Candidate) := do
  if t.isMap then
    let found ← collected B scope .map t.nonNull
    pure (if found.isSome then [Candidate.map t.nonNull] else [])
  else pure []

/-- The component that a scope builds. -/
def selfCandidate (s : Scope) (t : Ty) : List Candidate :=
  if s.component = some t.nonNull then [.self t.nonNull] else []

/-- The factory of a child component that is not built along an ancestry already. -/
def childCandidate (path : List Scope) (t : Ty) : List Candidate :=
  match t.functionParts? with
  | some (parameters, returns) =>
      if B.registry.hasFlag returns.classifier .childComponent
          && !isBuiltIn path returns.classifier then
        [.childComponent t.nonNull parameters returns.nonNull]
      else []
  | none => []

/-- What the shape of a type offers in a scope, sets and maps only if they
exist. -/
def frameworkCandidates (s : Scope) (path : List Scope) (t : Ty) (own : List Candidate) :
    Resolve (List Candidate) := do
  let shaped ← (own.filter (fun c => !c.isExplicit)).filterM (isMakeable B s.id)
  let map ← mapCandidate B s.id t
  pure (shaped ++ selfCandidate s t ++ childCandidate B path t ++ map)

/-- The answer that is remembered for a scope and a type, if it may be used here. -/
def recalled (scope : ScopeId) (t : Ty) : Resolve (Option NodeId) := do
  match ← answer? scope t with
  | some id =>
      checkCycle id
      pure (some id)
  | none => pure none

/-- Search the tiers of a scope and then those of its ancestors, along the ancestry of
the scope.  For a scope that is not there, an answer can only be remembered. -/
def lookup (r : Request) :
    (scope : Option ScopeId) → (path : List Scope) → Resolve (Option NodeId)
  | none, _ => pure none
  | some scope, [] => recalled scope r.type
  | some scope, s :: ancestors => do
      match ← recalled scope r.type with
      | some id => pure (some id)
      | none =>
          let path := (← graph).path s.id
          let own := s.candidatesFor B.registry B.catalog r.type
          let explicit := own.filter (fun c => c.isExplicit && isVisible path c)
          orTry (tryTier B resolve s.id r .explicit explicit) <|
          orTry (tryTier B resolve s.id r .internal
            (implicitCandidates B s path r.type false)) <|
          orTry (tryTier B resolve s.id r .external
            (implicitCandidates B s path r.type true)) <|
          orTry (do
            let offered ← frameworkCandidates B s path r.type own
            tryTier B resolve s.id r .framework offered) <| do
              match ← lookup r s.parent ancestors with
              | some id =>
                  remember s.id r.type id
                  pure (some id)
              | none => pure none

/-- The answer to a request that has no candidate anywhere. -/
def unresolved (scope : ScopeId) (r : Request) : Resolve NodeId := fun s =>
  if r.type.nullable then
    leaf (.plain r.type scope .null) r.type s
  else if !r.required then
    appendNode (.plain r.type scope .missing) s
  else
    .error (.missing r.type (s.graph.scopeName scope) s.chain.links) s

/-- Answer a request that was just opened. -/
def answer (scope : ScopeId) (r : Request) : Resolve NodeId := do
  let r := { r with type := B.registry.normalize r.type }
  let g ← graph
  match ← lookup B resolve r (some scope) (g.path scope) with
  | some id => pure id
  | none => unresolved scope r

end Tiers

/-- Refuse to open a request, under counters that have counted the attempt. -/
def refuse (r : Request) (counter : Walk.Counter)
    (cause : Ty → List Link → ResolutionError) : Resolve NodeId := fun s =>
  let links := s.chain.links ++ [r.link]
  .error (cause r.type links) { s with chain := { s.chain with counter := counter } }

/-- Resolve a request, with at most `levels` requests open below the ones that are
open already. -/
def request (B : Build) : (levels : Nat) → ScopeId → Request → Resolve NodeId
  | levels, scope, r => fun s =>
      match s.chain.counter.enter with
      | (.entered, counter) =>
          match levels with
          | 0 =>
              refuse r counter (fun t => .depthExceeded t counter.maxDepth) s
          | levels + 1 =>
              withRequest counter r (answer B (request B levels) scope r) s
      | (.outOfSteps, counter) =>
          refuse r counter (fun t => .stepBudgetExceeded t counter.maxSteps) s
      | (_, counter) =>
          refuse r counter (fun t => .depthExceeded t counter.maxDepth) s

end Resolve

namespace Graph

/-- Resolve one top-level request.  A failing request leaves no scopes and no nodes
behind. -/
def resolve (B : Build) (g : Graph) (scope : ScopeId) (r : Request) :
    Except ResolutionError NodeId × Graph :=
  match Resolve.request B B.options.maxDepth scope r
      { graph := g, chain := .start B.options } with
  | .ok id s =>
      (.ok id, { s.graph with roots := s.graph.roots ++ [⟨scope, r, id⟩] })
  | .error e s => (.error e, s.graph.rollback g.nodes.size g.scopes.size)

/-- Resolve requests in order, up to the first that fails. -/
def resolveEach (B : Build) (scope : ScopeId) :
    List Request → Graph → Except ResolutionError Unit × Graph
  | [], g => (.ok (), g)
  | r :: rs, g =>
      match g.resolve B scope r with
      | (.error e, g) => (.error e, g)
      | (.ok _, g) => resolveEach B scope rs g

/-- Resolve a batch of requests and merge star-projected instantiations if the
options say so. -/
def resolveAll (B : Build) (g : Graph) (scope : ScopeId) (rs : List Request) :
    Except ResolutionError Plan × Graph :=
  match resolveEach B scope rs g with
  | (.error e, g) => (.error e, g)
  | (.ok _, g) =>
      let g :=
        if B.options.mergeStars then { g with nodes := StarMerge.mergeStars g.nodes }
        else g
      (.ok g.plan, g)

/-- Resolve the entry points of a scope as a batch. -/
def resolveEntryPoints (B : Build) (g : Graph) (scope : ScopeId) :
    Except ResolutionError Plan × Graph :=
  match g.scope? scope with
  | none => (.ok g.plan, g)
  | some s =>
      g.resolveAll B scope (s.entryPoints.map (fun t => { type := t, origin := ⟨s.name⟩ }))

/-- Resolve the entry points of a component, as a root scope of a new graph. -/
def resolveComponent (B : Build) (type : Ty) : Except ResolutionError Plan :=
  match empty.addComponent B none type with
  | .error e => .error e
  | .ok (scope, g) => (g.resolveEntryPoints B scope).1

end Graph
end Wiring
