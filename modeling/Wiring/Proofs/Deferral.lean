import Wiring.Execution.Interpreter
import Wiring.Proofs.Completion

/-!
# Deferred evaluation

A cycle of dependencies is legal if one of its nodes puts it off: a provider, or any other
node of a function type.  When the plan is run, it is the kind of a node that decides.  A
provider, a factory of a component, a function alias and a declaration with assisted
parameters become functions that are left with their dependencies.  Any other declaration
is called at once, also if it returns a function, and for the call its dependencies are
evaluated.

**Results.**
* `Graph.Batched.deferred_iff`: all nodes that put cycles off become functions before
  anything is evaluated for them exactly if each of them is of one of those kinds, or is
  handed over by the host program, or depends on nothing, and its interceptors do not either.
-/

namespace Wiring

/-! ## What is put off -/

/-- The nodes that a function evaluates, or hands out as entry points, when it is
invoked. -/
def FunctionBody.demands {κ : Type} (p : Plan) : FunctionBody κ → List NodeId
  | .alias _ _ dependencies => dependencies
  | .provider _ _ target => [target]
  | .component _ _ entryPoints => entryPoints.map Prod.snd
  | .assisted _ id => ((p.node? id).map Node.resolved).getD []
  | .bare _ id => ((p.node? id).map Node.resolved).getD []
  | .hosted .. => []

/-- Whether a declaration has a factory that returns a function and invokes none. -/
def Program.ReturnsFunction {σ κ : Type} (P : Program σ κ) (origin : QName) : Prop :=
  ∃ code, P.factories.factory? origin = some code
    ∧ ∀ arguments state, ∃ state' f,
      P.host.factory code arguments state = .finish state' (.ok (Function.toValue f))

/-- Whether the host program gives functions wherever a node takes a value from it.  If the
node has interceptors, that goes for invoking the function that the last of them returns. -/
structure Program.Supplies {σ κ : Type} (P : Program σ κ)
    (invoked : Function κ → Eval σ κ (Value κ)) (s : ScopeInstance κ) (n : Node) : Prop where
  input {index : Nat} :
    n.kind = .input index → ∃ f : Function κ, s.inputs[index]? = some f.toValue
  object : n.kind = .object → ∃ f : Function κ, P.factories.object? n.type = some f.toValue
  factory {d : Declaration} {receivers : List QName} :
    n.kind = .callable d receivers [] → P.ReturnsFunction d.name
  interceptors : ∀ ic ∈ n.interceptors, P.ReturnsFunction ic.declaration.name
  outermost : n.interceptors ≠ [] → ∀ (f : Function κ) (r : Run σ κ),
    ∃ (g : Function κ) (r' : Run σ κ), invoked f r = .ok g.toValue r'

/-- Whether a node of a plan becomes a function in an instance of its owner whatever
evaluating other nodes would come to, with the answers to its dependencies left to the
function.  Interceptors may be called for that, as long as they depend on no node. -/
def Node.Deferred (p : Plan) (n : Node) : Prop :=
  ∀ (σ κ : Type) (P : Program σ κ) (invoked : Function κ → Eval σ κ (Value κ))
    (i : InstanceId) (s : ScopeInstance κ) (r : Run σ κ),
    P.plan = p → r.instances[i.index]? = some s → s.scope = n.owner →
    P.Supplies invoked s n →
    ∃ (f : Function κ) (r' : Run σ κ),
      (∀ recur, (∀ g, recur (.invoke g []) = invoked g) →
        Eval.compute P recur i n r = .ok f.toValue r')
        ∧ ∀ d ∈ n.resolved, d ∈ f.body.demands p

/-- Whether all nodes that put cycles off do so when the plan is run. -/
def Graph.CyclesDeferred (g : Graph) : Prop :=
  ∀ {id : NodeId} {n : Node}, g.node? id = some n → n.breaksCycles = true →
    n.Deferred g.plan

/-- Whether a node becomes a function without evaluating anything: it is made into one, it
is given one, or it is the call of a declaration that depends on nothing, and neither do its
interceptors. -/
def Node.isReady (n : Node) : Bool :=
  match n.kind with
  | .callable _ _ [] =>
      n.resolved.isEmpty && n.interceptors.all (fun ic => ic.resolved.isEmpty)
  | .callable .. => true
  | .function _ => true
  | .provider .. => true
  | .childComponent .. => true
  | .input _ => true
  | .object => true
  | _ => false

/-- How many dependencies a node has that provides a value or is given one. -/
def NodeKind.arity? : NodeKind → Option Nat
  | .provider .. => some 1
  | .input _ => some 0
  | .object => some 0
  | _ => none

/-- A provider has one dependency, the value it provides; inputs and objects have none. -/
theorem Graph.Batched.arity
    {B : Build}
    {g : Graph}
    (h : Batched B g) :
    g.Every (fun _ n => ∀ k, n.kind.arity? = some k → n.dependencies.length = k) := by
  refine h.every ?_ (fun _ hn => hn) (fun _ hn => hn) (fun _ hn => hn) ?_
  · intro id n hnew
    cases hnew with
    | null | missing | declaration => exact fun k hk => nomatch hk
    | candidate hblueprint =>
        cases hblueprint with
        | provider | input | object => exact fun k hk => Option.some.inj hk
        | self | funAlias | set | map | childComponent => exact fun k hk => nomatch hk
  · intro id nodes n n' houtcome hn
    cases houtcome with
    | kept => exact hn
    | canonical => exact hn
    | delegate => exact fun k hk => nomatch hk

namespace Eval

theorem bind_eq_ok
    {σ κ α β : Type}
    {step : Eval σ κ α}
    {next : α → Eval σ κ β}
    {b : β}
    {r r' : Run σ κ} :
    (step >>= next) r = .ok b r' ↔ ∃ a r₁, step r = .ok a r₁ ∧ next a r₁ = .ok b r' := by
  change EStateM.bind step next r = .ok b r' ↔ _
  unfold EStateM.bind
  cases step r <;> simp

/-- A step and what follows it, by what the step comes to. -/
theorem bind_apply
    {σ κ α β : Type}
    (step : Eval σ κ α)
    (next : α → Eval σ κ β)
    (r : Run σ κ) :
    (step >>= next) r
      = match step r with
        | .ok a r₁ => next a r₁
        | .error e r₁ => .error e r₁ := by
  change EStateM.bind step next r = _
  unfold EStateM.bind
  cases step r <;> rfl

/-- As many values as nodes. -/
theorem length_of_nodes
    {σ κ : Type}
    {recur : Task κ → Eval σ κ (Value κ)}
    {i : InstanceId}
    {ids : List NodeId}
    {values : List (Value κ)}
    {r r' : Run σ κ}
    (h : nodes recur i ids r = .ok values r') :
    values.length = ids.length := by
  induction ids generalizing values r with
  | nil =>
      cases h
      rfl
  | cons id ids ih =>
      unfold nodes at h
      rw [List.mapM_cons] at h
      obtain ⟨v, r₁, -, h⟩ := bind_eq_ok.mp h
      obtain ⟨rest, r₂, hrest, h⟩ := bind_eq_ok.mp h
      cases h
      exact congrArg (· + 1) (ih hrest)

/-- Whether a step comes to a value. -/
def succeeds {σ κ α : Type} (step : Eval σ κ α) (r : Run σ κ) : Bool :=
  match step r with
  | .ok _ _ => true
  | .error _ _ => false

theorem exists_ok_of_succeeds
    {σ κ α : Type}
    {step : Eval σ κ α}
    {r : Run σ κ}
    (h : succeeds step r = true) :
    ∃ a r', step r = .ok a r' := by
  unfold succeeds at h
  split at h
  · exact ⟨_, _, by assumption⟩
  · cases h

end Eval

/-- Calling a factory that returns a function. -/
theorem Program.ReturnsFunction.call
    {σ κ : Type}
    {P : Program σ κ}
    {origin : QName}
    (h : P.ReturnsFunction origin)
    (arguments : List (Value κ))
    (r : Run σ κ) :
    ∃ f r', ∀ recur, Eval.callFactory P recur origin arguments r
      = .ok (Function.toValue f) r' := by
  obtain ⟨code, hcode, hreturns⟩ := h
  obtain ⟨state, f, hscript⟩ := hreturns arguments r.host
  refine ⟨f, { r with host := state }, fun recur => ?_⟩
  simp only [Eval.callFactory, hcode]
  refine Eval.bind_eq_ok.mpr ⟨r, r, rfl, Eval.bind_eq_ok.mpr ⟨.ok f.toValue, _, ?_, rfl⟩⟩
  rw [hscript]
  rfl

section Wrapped

variable {σ κ : Type} {P : Program σ κ}

/-- An interceptor that depends on no node wraps a function without evaluating any. -/
theorem Interceptor.wrap_of_free
    {ic : Interceptor}
    (hfree : ic.resolved = [])
    (hreturns : P.ReturnsFunction ic.declaration.name)
    (i : InstanceId)
    (inner : Function κ)
    (r : Run σ κ) :
    ∃ outer r', ∀ recur, Eval.wrap P recur i inner ic r = .ok outer r' := by
  obtain ⟨outer, r', hcall⟩ := hreturns.call
    (Eval.placeFactory ic.factoryParameter inner.toValue 0 ic.declaration.parameters []) r
  refine ⟨outer, r', fun recur => ?_⟩
  unfold Eval.wrap
  rw [hfree]
  exact Eval.bind_eq_ok.mpr ⟨[], r, rfl, Eval.bind_eq_ok.mpr ⟨_, r', hcall recur, rfl⟩⟩

/-- So do several of them, one after the other. -/
theorem Interceptor.foldlM_of_free
    {ics : List Interceptor}
    (hfree : ∀ ic ∈ ics, ic.resolved = [])
    (hreturns : ∀ ic ∈ ics, P.ReturnsFunction ic.declaration.name)
    (i : InstanceId)
    (inner : Function κ)
    (r : Run σ κ) :
    ∃ outermost r', ∀ recur,
      ics.foldlM (Eval.wrap P recur i) inner r = .ok outermost r' := by
  induction ics generalizing inner r with
  | nil => exact ⟨inner, r, fun _ => rfl⟩
  | cons ic ics ih =>
      obtain ⟨hic, hics⟩ := List.forall_mem_cons.mp hfree
      obtain ⟨hfirst, hrest⟩ := List.forall_mem_cons.mp hreturns
      obtain ⟨outer, r₁, hwrap⟩ := wrap_of_free hic hfirst i inner r
      obtain ⟨outermost, r', hfold⟩ := ih hics hrest outer r₁
      refine ⟨outermost, r', fun recur => ?_⟩
      rw [List.foldlM_cons]
      exact Eval.bind_eq_ok.mpr ⟨outer, r₁, hwrap recur, hfold recur⟩

/-- A declaration that depends on nothing is called at once, through its interceptors if it
has any, and no node is evaluated for that. -/
theorem Node.compute_of_free
    {n : Node}
    {d : Declaration}
    {receivers : List QName}
    (hk : n.kind = .callable d receivers [])
    (hresolved : n.resolved = [])
    (hfree : ∀ ic ∈ n.interceptors, ic.resolved = [])
    {invoked : Function κ → Eval σ κ (Value κ)}
    {s : ScopeInstance κ}
    (hsupplies : P.Supplies invoked s n)
    (i : InstanceId)
    (r : Run σ κ) :
    ∃ (f : Function κ) (r' : Run σ κ), ∀ recur, (∀ g, recur (.invoke g []) = invoked g) →
      Eval.compute P recur i n r = .ok f.toValue r' := by
  by_cases hnone : n.interceptors = []
  · obtain ⟨f, r', hcall⟩ := (hsupplies.factory hk).call [] r
    refine ⟨f, r', fun recur _ => ?_⟩
    simp only [Eval.compute, hk, hresolved, hnone]
    exact hcall recur
  · obtain ⟨outermost, r₁, hfold⟩ :=
      Interceptor.foldlM_of_free hfree hsupplies.interceptors i ⟨0, .bare i n.id⟩ r
    obtain ⟨f, r', hf⟩ := hsupplies.outermost hnone outermost r₁
    refine ⟨f, r', fun recur hinvoked => ?_⟩
    simp only [Eval.compute, hk]
    rw [if_neg (by simpa using hnone)]
    exact Eval.bind_eq_ok.mpr ⟨outermost, r₁, hfold recur, by rw [hinvoked, hf]⟩

end Wrapped

/-- A node that is ready, and complete, is deferred. -/
theorem Node.deferred
    {p : Plan}
    {n : Node}
    (hnode : p.node? n.id = some n)
    (hcomplete : n.IsComplete)
    (harity : ∀ k, n.kind.arity? = some k → n.dependencies.length = k)
    (hready : n.isReady = true) :
    n.Deferred p := by
  intro σ κ P invoked i s r _ hlive _ hsupplies
  have hlength := hcomplete.dependencies
  have hnone : n.kind.arity? = some 0 → n.resolved = [] := by
    intro hkind
    rw [harity 0 hkind] at hlength
    exact List.length_eq_zero_iff.mp hlength
  cases hk : n.kind with
  | callable d receivers assisted =>
      cases assisted with
      | nil =>
          have hfree : n.resolved = [] ∧ ∀ ic ∈ n.interceptors, ic.resolved = [] := by
            simpa [Node.isReady, hk] using hready
          obtain ⟨f, r', hcompute⟩ := Node.compute_of_free hk hfree.1 hfree.2 hsupplies i r
          exact ⟨f, r', hcompute, by simp [hfree.1]⟩
      | cons a rest =>
          refine ⟨⟨(a :: rest).length, .assisted i n.id⟩, r, fun recur _ => ?_, ?_⟩
          · simp only [Eval.compute, hk]
            rfl
          · simp [FunctionBody.demands, hnode]
  | function d =>
      refine ⟨⟨0, .alias i d.name n.resolved⟩, r, fun recur _ => ?_, fun d hd => hd⟩
      simp only [Eval.compute, hk]
      rfl
  | provider scope parameters context =>
      obtain ⟨target, hresolved⟩ : ∃ target, n.resolved = [target] := by
        rw [harity 1 (by rw [hk]; rfl)] at hlength
        exact List.length_eq_one_iff.mp hlength
      refine ⟨⟨parameters.length, .provider i scope target⟩, r, fun recur _ => ?_, ?_⟩
      · simp only [Eval.compute, hk, hresolved]
        rfl
      · simp [FunctionBody.demands, hresolved]
  | childComponent scope parameters =>
      refine ⟨⟨parameters.length, .component i scope
        ((n.dependencies.map Request.type).zip n.resolved)⟩, r, fun recur _ => ?_, ?_⟩
      · simp only [Eval.compute, hk]
        rfl
      · rw [FunctionBody.demands, List.map_snd_zip (by simp [hlength])]
        exact fun d hd => hd
  | input index =>
      obtain ⟨f, hf⟩ := hsupplies.input hk
      refine ⟨f, r, fun recur _ => ?_, by simp [hnone (by rw [hk]; rfl)]⟩
      simp only [Eval.compute, hk]
      refine Eval.bind_eq_ok.mpr ⟨some s, r, by simp [Eval.live?, hlive], ?_⟩
      simp only [Option.bind_some, hf]
      rfl
  | object =>
      obtain ⟨f, hf⟩ := hsupplies.object hk
      refine ⟨f, r, fun recur _ => ?_, by simp [hnone (by rw [hk]; rfl)]⟩
      simp only [Eval.compute, hk, hf]
      rfl
  | self | set | map | delegate | null | missing => simp [Node.isReady, hk] at hready

/-! ## What is not -/

namespace Eval

variable {σ κ : Type}

/-- No node can be evaluated, and functions are invoked in a given way. -/
def isolated (invoked : Function κ → Eval σ κ (Value κ)) : Task κ → Eval σ κ (Value κ)
  | .node _ _ => throw .outOfFuel
  | .invoke f _ => invoked f

section Isolated

variable {invoked : Function κ → Eval σ κ (Value κ)} {P : Program σ κ} {i : InstanceId}

theorem nodes_isolated_eq_ok
    {ids : List NodeId}
    {values : List (Value κ)}
    {r r' : Run σ κ}
    (h : nodes (isolated invoked) i ids r = .ok values r') :
    ids = [] := by
  cases ids with
  | nil => rfl
  | cons id ids => cases h

theorem foldlM_isolated_eq_ok
    {ics : List Interceptor}
    {inner outermost : Function κ}
    {r r' : Run σ κ}
    (h : ics.foldlM (wrap P (isolated invoked) i) inner r = .ok outermost r') :
    ∀ ic ∈ ics, ic.resolved = [] := by
  induction ics generalizing inner r with
  | nil => exact fun ic hic => nomatch hic
  | cons ic ics ih =>
      rw [List.foldlM_cons] at h
      obtain ⟨outer, r₁, hwrap, hrest⟩ := bind_eq_ok.mp h
      obtain ⟨dependencies, r₂, hnodes, -⟩ := bind_eq_ok.mp hwrap
      exact List.forall_mem_cons.mpr ⟨nodes_isolated_eq_ok hnodes, ih hrest⟩

/-- If no node can be evaluated, only nodes that are ready become functions to which the
answers to their dependencies are left. -/
theorem isReady_of_compute
    {n : Node}
    {f : Function κ}
    {r r' : Run σ κ}
    (h : compute P (isolated invoked) i n r = .ok f.toValue r')
    (hleft : ∀ {d receivers}, n.kind = .callable d receivers [] → n.interceptors ≠ [] →
      n.resolved = []) :
    n.isReady = true := by
  cases hk : n.kind with
  | callable d receivers assisted =>
      cases assisted with
      | cons a rest => simp [Node.isReady, hk]
      | nil =>
          simp only [compute, hk] at h
          split at h
          · rename_i hnone
            obtain ⟨values, r₁, hvalues, -⟩ := bind_eq_ok.mp h
            simp [Node.isReady, hk, nodes_isolated_eq_ok hvalues, List.isEmpty_iff.mp hnone]
          · rename_i hsome
            obtain ⟨outermost, r₁, hfold, -⟩ := bind_eq_ok.mp h
            simpa [Node.isReady, hk, hleft hk (by simpa using hsome)]
              using foldlM_isolated_eq_ok hfold
  | function | provider | childComponent | input | object => simp [Node.isReady, hk]
  | set | map =>
      simp only [compute, hk] at h
      obtain ⟨values, r₁, -, hpure⟩ := bind_eq_ok.mp h
      cases hpure
  | delegate target =>
      simp only [compute, hk] at h
      cases h
  | self | null | missing =>
      simp only [compute, hk] at h
      cases h

end Isolated

end Eval

/-! ## A program for any node -/

/-- A function of the host program. -/
def Function.given : Function Unit := ⟨0, .hosted () []⟩

/-- The declarations that are called for a node. -/
def Node.called (n : Node) : List QName :=
  match n.kind with
  | .callable d _ _ => d.name :: n.interceptors.map (fun ic => ic.declaration.name)
  | _ => n.interceptors.map (fun ic => ic.declaration.name)

/-- A program of a plan that gives a node functions wherever it takes a value from the
host. -/
def Plan.supplying (p : Plan) (n : Node) : Program Unit Unit where
  plan := p
  factories :=
    { factories := n.called.map (fun name => (name, ()))
      objects := [(n.type, Function.given.toValue)] }
  host :=
    { factory := fun _ _ state => .finish state (.ok Function.given.toValue)
      function := fun _ _ _ state => .finish state (.ok .absent) }

/-- An instance of a node's owner, with functions as inputs as far as the node needs
them. -/
def Node.ownerInstance (n : Node) : ScopeInstance Unit where
  scope := n.owner
  lineage := [(n.owner, ⟨0⟩)]
  inputs :=
    match n.kind with
    | .input index => List.replicate (index + 1) Function.given.toValue
    | _ => []

theorem Plan.supplying_returnsFunction
    (p : Plan)
    (n : Node)
    {name : QName}
    (h : name ∈ n.called) :
    (p.supplying n).ReturnsFunction name := by
  refine ⟨(), ?_, fun _ state => ⟨state, Function.given, rfl⟩⟩
  simp only [FactoryTable.factory?, Plan.supplying]
  generalize n.called = names at h
  induction names with
  | nil => cases h
  | cons first rest ih =>
      rw [List.map_cons, List.lookup_cons]
      split
      · rfl
      · rename_i hne
        rcases List.mem_cons.mp h with rfl | h
        · simp at hne
        · exact ih h

theorem Plan.supplying_supplies
    (p : Plan)
    (n : Node) :
    (p.supplying n).Supplies (fun _ => pure Function.given.toValue) n.ownerInstance n where
  input := fun hk => ⟨Function.given, by simp [Node.ownerInstance, hk]⟩
  object := fun _ => ⟨Function.given, by simp [Plan.supplying, FactoryTable.object?]⟩
  factory := fun hk => p.supplying_returnsFunction n (by simp [Node.called, hk])
  interceptors := fun ic hic => by
    refine p.supplying_returnsFunction n ?_
    have hname : ic.declaration.name ∈ n.interceptors.map (fun ic => ic.declaration.name) :=
      List.mem_map_of_mem hic
    unfold Node.called
    split
    · exact List.mem_cons_of_mem _ hname
    · exact hname
  outermost := fun _ _ r => ⟨Function.given, r, rfl⟩

/-- A node that is deferred is ready. -/
theorem Node.Deferred.isReady
    {p : Plan}
    {n : Node}
    (h : n.Deferred p) :
    n.isReady = true := by
  obtain ⟨⟨arity, body⟩, r', hcompute, hleft⟩ := h Unit Unit (p.supplying n)
    (fun _ => pure Function.given.toValue) ⟨0⟩ n.ownerInstance
    { instances := #[n.ownerInstance], host := () } rfl rfl rfl (p.supplying_supplies n)
  have halone := hcompute (Eval.isolated fun _ => pure Function.given.toValue) fun _ => rfl
  refine Eval.isReady_of_compute halone fun {d receivers} hk hsome => ?_
  -- the function that comes out is the host's, to which no node is left
  simp only [Eval.compute, hk] at halone
  rw [if_neg (by simpa using hsome)] at halone
  obtain ⟨outermost, r₁, -, hinvoked⟩ := Eval.bind_eq_ok.mp halone
  cases hinvoked
  exact List.eq_nil_iff_forall_not_mem.mpr fun id hid =>
    absurd (hleft id hid) List.not_mem_nil

namespace Graph

/-- In a graph that calls and batches reach, all nodes that put cycles off do so when the
plan is run exactly if they become functions without evaluating anything. -/
theorem Batched.deferred_iff
    {B : Build}
    {g : Graph}
    (h : Batched B g) :
    g.CyclesDeferred ↔
      ∀ {id : NodeId} {n : Node}, g.node? id = some n → n.breaksCycles = true →
        n.isReady = true := by
  constructor
  · intro hdeferred id n hn hbreaks
    exact (hdeferred hn hbreaks).isReady
  · intro hready id n hn hbreaks
    exact Node.deferred (h.plan_node? hn) (h.complete hn) (h.arity hn) (hready hn hbreaks)

/-! ## A function that is made at once -/

/-- Two classes, `Bar` and `Foo`. -/
def listeners : Build where
  registry :=
    { Registry.initial with
      registered := #[{ name := ⟨"Bar"⟩ }, { name := ⟨"Foo"⟩ }] }

/-- A declaration of a function that takes another declaration's value. -/
def listenerDeclarations : List Declaration :=
  [ { name := ⟨"app.bar"⟩
      type := .of ⟨16⟩ },
    { name := ⟨"app.f"⟩
      type := .function [] (.of ⟨17⟩)
      parameters := [{ name := "bar", type := .of ⟨16⟩ }] } ]

/-- The graph after the function was asked for. -/
def listenerGraph : Graph :=
  ((Graph.empty.withScope listeners none { name := "App" } listenerDeclarations).resolve
    listeners ⟨0⟩ { type := .function [] (.of ⟨17⟩), origin := ⟨"app"⟩ }).2

theorem listenerGraph_batched : Batched listeners listenerGraph :=
  .resolve _ _ (Batched.empty.withScope _ _ _)

theorem listenerGraph_deferred_iff :
    listenerGraph.CyclesDeferred ↔
      ∀ {id : NodeId} {n : Node}, listenerGraph.node? id = some n →
        n.breaksCycles = true → n.isReady = true :=
  Batched.deferred_iff listenerGraph_batched

/-- The declaration is taken to put cycles off, but it is called at once. -/
theorem listenerGraph_not_deferred :
    Batched listeners listenerGraph ∧ ¬ listenerGraph.CyclesDeferred := by
  refine ⟨listenerGraph_batched, fun hdeferred => ?_⟩
  have hnode : (listenerGraph.node? ⟨0⟩).any (fun n => decide
      (n.breaksCycles = true ∧ n.isReady = false)) = true := by
    decide +kernel
  obtain ⟨n, hn, hfacts⟩ := (Option.any_eq_true _ _).mp hnode
  obtain ⟨hbreaks, hready⟩ := of_decide_eq_true hfacts
  exact absurd (hdeferred hn hbreaks).isReady (by simp [hready])

end Graph
end Wiring
