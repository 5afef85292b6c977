import Mathlib.Data.List.Forall2
import Wiring.Proofs.Choice.Alike

/-!
# Straight answers

What a scope itself chooses says which node answers a request: its kind, its origin, its
owner and its type.  Yet an answer can be one that was remembered for another scope's
sake.  It is straight if its node is that of the scope's own choice, and so are the
answers to what the node asks for, and so on.

The nodes may refer to each other in circles, so this is said with an assumption of
which answers are straight: it holds if some assumption confirms itself.

**Results.**
* `Graph.choice?`: what a scope itself chooses.
* `Graph.Straight`: whether an answer is straight.
* `Graph.Chooses.of_declaration`: a simple case of what is straight.
-/

namespace Wiring

/-! ## Profiles -/

/-- What answers to a request are compared by. -/
structure Profile where
  kind : String
  origin : Option QName := none
  owner : ScopeId
  type : Ty
  deriving DecidableEq

/-- The profile of a node. -/
def Node.profile (n : Node) : Profile :=
  { kind := n.kind.name
    origin := n.origin
    owner := n.owner
    type := n.type }

/-- The profile of a node that invokes a declaration. -/
def Profile.ofDeclaration (d : Declaration) (owner : ScopeId) (type : Ty) : Profile :=
  { kind := "callable"
    origin := some d.name
    owner := owner
    type := type }

/-- The profile that a scope's choice of a candidate asks for. -/
def Candidate.profile (R : Registry) (path : List Scope) (s : Scope) (t : Ty) :
    Candidate → Profile
  | .declaration m =>
      .ofDeclaration m.declaration (ownerOf path s.id m.declaredIn m.declaration)
        (if m.assisted then t else m.declaration.type)
  | .input _ type declaredIn =>
      { kind := "input"
        owner := declaredIn.getD s.id
        type := type }
  | .object type => { kind := "object", owner := s.id, type := type }
  | .self type => { kind := "self", owner := s.id, type := type }
  | .funAlias d type =>
      { kind := "function"
        origin := some d.name
        owner := s.id
        type := type }
  | .set type _ => { kind := "set", owner := s.id, type := type }
  | .map type => { kind := "map", owner := s.id, type := type }
  | .provider type _ _ => { kind := "provider", owner := s.id, type := type }
  | .childComponent type _ component =>
      { kind := "child_component"
        origin := R.name? component.classifier
        owner := s.id
        type := type }

/-- Whether the scope at a position chooses one of its own declarations as it stands. -/
def Pick.isPlain (d : Declaration) (id : ScopeId) : Pick → Bool
  | .chosen s (.declaration m) =>
      s.id = id && m.declaration = d && m.declared = d && m.declaredIn = none && !m.assisted
  | _ => false

/-- The profile of the answer that a scope itself chooses for a type, required or not,
if it can choose one. -/
def Graph.choice? (B : Build) (g : Graph) (scope : ScopeId) (t : Ty) (required : Bool) :
    Option Profile :=
  let t := B.registry.normalize t
  match Pick.along B t (g.path scope) with
  | .chosen s c => some (c.profile B.registry (g.path s.id) s t)
  | .nothing =>
      if t.nullable then some { kind := "null", owner := scope, type := t }
      else if required then none
      else some { kind := "missing", owner := scope, type := t }
  | .refused => none

section

variable {B : Build} {g : Graph} {scope : ScopeId} {t : Ty} {required : Bool}

theorem Graph.choice?_of_chosen
    {s : Scope}
    {c : Candidate}
    (h : Pick.along B (B.registry.normalize t) (g.path scope) = .chosen s c) :
    g.choice? B scope t required
      = some (c.profile B.registry (g.path s.id) s (B.registry.normalize t)) := by
  simp only [Graph.choice?, h]

theorem Graph.choice?_of_nothing
    (h : Pick.along B (B.registry.normalize t) (g.path scope) = .nothing) :
    g.choice? B scope t required =
      if (B.registry.normalize t).nullable then
        some { kind := "null", owner := scope, type := B.registry.normalize t }
      else if required then none
      else some { kind := "missing", owner := scope, type := B.registry.normalize t } := by
  simp only [Graph.choice?, h]

theorem Graph.choice?_of_refused
    (h : Pick.along B (B.registry.normalize t) (g.path scope) = .refused) :
    g.choice? B scope t required = none := by
  simp only [Graph.choice?, h]

end

/-! ## Dependencies -/

/-- Which nodes are assumed to answer requests for a type in a scope, required or not. -/
abbrev Answering := ScopeId → Ty → Bool → NodeId → Prop

/-- Whether nodes are assumed to answer requests in a scope, in order. -/
def Answering.Each (S : Answering) (scope : ScopeId) (rs : List Request)
    (ids : List NodeId) : Prop :=
  List.Forall₂ (fun r id => S scope r.type r.required id) rs ids

/-- Only the types that are requested matter, and whether they are required. -/
theorem Answering.Each.congr
    {S : Answering}
    {scope : ScopeId}
    {rs rs' : List Request}
    {ids : List NodeId}
    (h : S.Each scope rs ids)
    (hrs : rs'.map (fun r => (r.type, r.required)) = rs.map (fun r => (r.type, r.required))) :
    S.Each scope rs' ids := by
  have hmap : ∀ rs : List Request,
      List.Forall₂ (fun (p : Ty × Bool) id => S scope p.1 p.2 id)
        (rs.map (fun r => (r.type, r.required))) ids ↔ S.Each scope rs ids := fun rs =>
    List.forall₂_map_left_iff
  rw [← hmap, hrs, hmap]
  exact h

namespace Graph

/-- Whether what a declaration asks for is assumed to be answered where its node is
owned, and the node has a type that no dependencies narrow. -/
structure Invokes (B : Build) (g : Graph) (S : Answering) (owner : ScopeId) (type : Ty)
    (e : Entry) (declared : Declaration) (assisted : Bool) (n : Node) : Prop where
  firm : assisted = false → ∀ types, B.registry.refine declared type types = type
  resolved : S.Each owner e.declaration.requests n.resolved
  interceptors :
    List.Forall₂
      (fun i a =>
        S.Each owner (i.declaration.requestsExcept (i.declaration.factoryPosition type))
          a.resolved)
      (Interception.visible B.registry B.catalog type (g.path owner)) n.interceptors

/-- Whether nodes invoke the entries of a collection in a scope, in order. -/
def InvokesEach (B : Build) (g : Graph) (S : Answering) (scope : ScopeId)
    (entries : List Entry) (ids : List NodeId) : Prop :=
  List.Forall₂
    (fun e id =>
      let owner := ownerOf (g.path scope) scope none e.declaration
      ∃ n, g.node? id = some n
        ∧ n.profile = .ofDeclaration e.declaration owner e.declaration.type
        ∧ g.Invokes B S owner e.declaration.type e e.declaration false n)
    entries ids

/-- Whether what a candidate asks for is assumed to be answered that a scope chose for a
type. -/
inductive Supports (B : Build) (g : Graph) (S : Answering) (s : Scope) (t : Ty) :
    Candidate → Node → Prop
  | declaration {m : Match} {n : Node} :
      g.Invokes B S (ownerOf (g.path s.id) s.id m.declaredIn m.declaration)
        (if m.assisted then t else m.declaration.type) ⟨m.declaration, m.receivers⟩
        m.declared m.assisted n →
      Supports B g S s t (.declaration m) n
  | input {index : Nat} {type : Ty} {declaredIn : Option ScopeId} {n : Node} :
      Supports B g S s t (.input index type declaredIn) n
  | object {type : Ty} {n : Node} :
      Supports B g S s t (.object type) n
  | self {type : Ty} {n : Node} :
      Supports B g S s t (.self type) n
  | funAlias {d : Declaration} {type : Ty} {n : Node} :
      S.Each s.id d.requests n.resolved →
      Supports B g S s t (.funAlias d type) n
  | set {type element : Ty} {found : Option (List Entry)} {n : Node} :
      Collection.merged B.registry B.catalog B.options .set type (g.path s.id)
        = .ok found →
      g.InvokesEach B S s.id (found.getD []) n.resolved →
      Supports B g S s t (.set type element) n
  | map {type : Ty} {found : Option (List Entry)} {n : Node} :
      Collection.merged B.registry B.catalog B.options .map type (g.path s.id)
        = .ok found →
      g.InvokesEach B S s.id (found.getD []) n.resolved →
      Supports B g S s t (.map type) n
  | provider {type returns : Ty} {parameters : List Ty} {r : Request} {inner : ScopeId}
      {n : Node} :
      g.Opens B s (g.providerSpec B s.id type parameters) {} inner →
      S.Each inner [r.provided returns] n.resolved →
      Supports B g S s t (.provider type parameters returns) n
  | childComponent {type component : Ty} {parameters : List Ty} {c : Component}
      {found : Contributions} {origin : QName} {inner : ScopeId} {n : Node} :
      B.catalog.component? component.classifier = some c →
      expand B.catalog.module? c.declarations = .ok found →
      g.Opens B s (componentSpec B c .childComponent component parameters) found inner →
      S.Each inner (c.requests origin) n.resolved →
      Supports B g S s t (.childComponent type parameters component) n

/-- Whether a node answers a request for a type as the scope itself chooses, if what the
node asks for is answered as assumed. -/
def Chooses (B : Build) (g : Graph) (S : Answering) (scope : ScopeId) (t : Ty)
    (required : Bool) (id : NodeId) : Prop :=
  ∃ n, g.node? id = some n
    ∧ g.choice? B scope t required = some n.profile
    ∧ ∀ s c, Pick.along B (B.registry.normalize t) (g.path scope) = .chosen s c →
      g.Supports B S s (B.registry.normalize t) c n

/-- Whether an assumption confirms itself. -/
def Confirms (B : Build) (g : Graph) (S : Answering) : Prop :=
  ∀ scope t required id, S scope t required id → g.Chooses B S scope t required id

/-- Whether a request is answered by what the scope itself chooses, and so is what that
asks for, and so on. -/
def Straight (B : Build) (g : Graph) (scope : ScopeId) (r : Request) (id : NodeId) : Prop :=
  ∃ S, g.Confirms B S ∧ S scope r.type r.required id

/-- A declaration whose type is not star-projected and that no interceptors see is
chosen if what it takes is. -/
theorem Chooses.of_declaration
    {B : Build}
    {g : Graph}
    {S : Answering}
    {scope : ScopeId}
    {d : Declaration}
    {required : Bool}
    {id : NodeId}
    {ids : List NodeId}
    (hpick : (Pick.along B (B.registry.normalize d.type) (g.path scope)).isPlain d scope
      = true)
    (hcomponent : d.component = none)
    (htype : d.type.starCount = 0)
    (hvisible : Interception.visible B.registry B.catalog d.type (g.path scope) = [])
    (hchoice : g.choice? B scope d.type required = (g.node? id).map Node.profile)
    (hresolved : (g.node? id).map Node.resolved = some ids)
    (hinterceptors : (g.node? id).map Node.interceptors = some [])
    (hS : S.Each scope d.requests ids) :
    g.Chooses B S scope d.type required id := by
  obtain ⟨n, hn, rfl⟩ := Option.map_eq_some_iff.mp hresolved
  rw [hn] at hchoice hinterceptors
  refine ⟨n, hn, hchoice, fun s c hc => ?_⟩
  rw [hc] at hpick
  cases c with
  | declaration m =>
      obtain ⟨declaration, declared, receivers, rawType, assisted, declaredIn⟩ := m
      simp only [Pick.isPlain, Bool.and_eq_true, decide_eq_true_eq, Bool.not_eq_true']
        at hpick
      obtain ⟨⟨⟨⟨rfl, rfl⟩, rfl⟩, rfl⟩, rfl⟩ := hpick
      refine .declaration ?_
      unfold ownerOf
      dsimp only
      rw [hcomponent, if_neg Bool.false_ne_true]
      dsimp only [Option.getD_none]
      refine
        { firm := fun _ types => ?_
          resolved := hS
          interceptors := ?_ }
      · unfold Registry.refine
        simp [htype]
      · rw [hvisible, Option.some.inj hinterceptors]
        exact .nil
  | _ => cases hpick

/-! ## An answer that is straight -/

/-- Two classes. -/
def carBuild : Build where
  registry :=
    { Registry.initial with registered := #[{ name := ⟨"Engine"⟩ }, { name := ⟨"Car"⟩ }] }

/-- A declaration of the first class. -/
def engine : Declaration := { name := ⟨"app.engine"⟩, type := .of ⟨16⟩ }

/-- A declaration of the second class, which takes the first one. -/
def car : Declaration :=
  { name := ⟨"app.car"⟩
    type := .of ⟨17⟩
    parameters := [{ name := "engine", type := .of ⟨16⟩ }] }

/-- The graph after the second class was asked for. -/
def carGraph : Graph :=
  ((Graph.empty.withScope carBuild none { name := "App" } [engine, car]).resolve carBuild
    ⟨0⟩ { type := .of ⟨17⟩, origin := ⟨"app"⟩ }).2

/-- The answer is straight, and it takes another one. -/
theorem carGraph_straight :
    carGraph.Straight carBuild ⟨0⟩ { type := .of ⟨17⟩, origin := ⟨"app"⟩ } ⟨0⟩ := by
  refine ⟨fun scope t _ id => scope = ⟨0⟩ ∧
    ((t = car.type ∧ id = ⟨0⟩) ∨ (t = engine.type ∧ id = ⟨1⟩)), ?_, rfl, .inl ⟨rfl, rfl⟩⟩
  have hcar : (carGraph.node? ⟨0⟩).map Node.resolved = some [⟨1⟩] := by decide +kernel
  have hengine : (carGraph.node? ⟨1⟩).map Node.resolved = some [] := by decide +kernel
  rintro scope t required id ⟨rfl, ⟨rfl, rfl⟩ | ⟨rfl, rfl⟩⟩
  · refine Chooses.of_declaration (by decide +kernel) rfl (by decide +kernel)
      (by decide +kernel) ?_ hcar (by decide +kernel) ?_
    · cases required <;> decide +kernel
    · exact .cons ⟨rfl, .inr ⟨rfl, rfl⟩⟩ .nil
  · refine Chooses.of_declaration (by decide +kernel) rfl (by decide +kernel)
      (by decide +kernel) ?_ hengine (by decide +kernel) .nil
    cases required <;> decide +kernel

end Graph
end Wiring
