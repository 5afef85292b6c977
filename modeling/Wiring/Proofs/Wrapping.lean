import Wiring.Proofs.Assistance
import Wiring.Proofs.Interception

/-!
# Interceptors that are applied

A node with interceptors is computed from the inside out.  The factory of its own
declaration is handed to the first interceptor, the function that this returns to the
second, and so on, and the function that the last one returns is invoked.  If an interceptor
fails, the node fails with it, and the later ones are not called.

A node with assisted parameters is not computed this way.  It becomes a function that calls
its own declaration, and its interceptors are attached for nothing.

An interceptor without parameters is called, but nothing is handed to it.  If it is the
first one, the node's own factory is not called either, and nothing is missed.  Behind
another one it is passed by: the earlier one may have kept what it was handed where the host
program finds it later.

**Results.**
* `Eval.wraps_of_foldlM`: wrapping calls the interceptors one after the other.
* `Graph.Batched.interceptorsApplied_iff`: whenever the own factory of a node is called, the
  node's interceptors are applied, exactly if none is attached to a node with assisted
  parameters, and none without parameters comes behind a first one that has some.
-/

namespace Wiring

/-! ## Wrapping a function -/

/-- A call of the factory of a declaration. -/
structure FactoryCall (κ : Type) where
  origin : QName
  arguments : List (Value κ)

/-- Whether an interceptor is handed a function in the place of its factory parameter, and
the values of its dependencies in the others, in order. -/
structure Interceptor.Handed {κ : Type} (ic : Interceptor) (inner : Function κ)
    (dependencies arguments : List (Value κ)) : Prop where
  count : arguments.length = ic.declaration.parameters.length
  factory : arguments[ic.factoryParameter]? = some inner.toValue
  others : arguments.eraseIdx ic.factoryParameter = dependencies

namespace Eval

variable {σ κ : Type}

/-- A function is wrapped in interceptors, the first one innermost: which factories are
called for that, in order, and what it comes to. -/
inductive Wraps (P : Program σ κ) (recur : Task κ → Eval σ κ (Value κ)) (i : InstanceId) :
    Function κ → List Interceptor → Run σ κ → List (FactoryCall κ) →
    EStateM.Result Halt (Run σ κ) (Function κ) → Prop
  | done {inner : Function κ} {r : Run σ κ} :
      Wraps P recur i inner [] r [] (.ok inner r)
  | unanswered {inner : Function κ} {ic : Interceptor} {ics : List Interceptor}
      {e : Halt} {r r' : Run σ κ} :
      nodes recur i ic.resolved r = .error e r' →
      Wraps P recur i inner (ic :: ics) r [] (.error e r')
  | failed {inner : Function κ} {ic : Interceptor} {ics : List Interceptor}
      {dependencies arguments : List (Value κ)} {e : Halt} {r r₁ r' : Run σ κ} :
      nodes recur i ic.resolved r = .ok dependencies r₁ →
      ic.Handed inner dependencies arguments →
      callFactory P recur ic.declaration.name arguments r₁ = .error e r' →
      Wraps P recur i inner (ic :: ics) r [⟨ic.declaration.name, arguments⟩] (.error e r')
  | stray {inner : Function κ} {ic : Interceptor} {ics : List Interceptor}
      {dependencies arguments : List (Value κ)} {v : Value κ} {r r₁ r' : Run σ κ} :
      nodes recur i ic.resolved r = .ok dependencies r₁ →
      ic.Handed inner dependencies arguments →
      callFactory P recur ic.declaration.name arguments r₁ = .ok v r' →
      v.function? = none →
      Wraps P recur i inner (ic :: ics) r [⟨ic.declaration.name, arguments⟩]
        (.error (.failed (.mismatch (.notWrapper ic.declaration.name))) r')
  | wrapped {inner outer : Function κ} {ic : Interceptor} {ics : List Interceptor}
      {dependencies arguments : List (Value κ)} {v : Value κ} {calls : List (FactoryCall κ)}
      {outcome : EStateM.Result Halt (Run σ κ) (Function κ)} {r r₁ r₂ : Run σ κ} :
      nodes recur i ic.resolved r = .ok dependencies r₁ →
      ic.Handed inner dependencies arguments →
      callFactory P recur ic.declaration.name arguments r₁ = .ok v r₂ →
      v.function? = some outer →
      Wraps P recur i outer ics r₂ calls outcome →
      Wraps P recur i inner (ic :: ics) r (⟨ic.declaration.name, arguments⟩ :: calls) outcome

section Steps

variable {P : Program σ κ} {recur : Task κ → Eval σ κ (Value κ)} {i : InstanceId}

/-- If wrapping succeeds, every interceptor has been called once, in order. -/
theorem Wraps.origins_eq
    {inner outermost : Function κ}
    {ics : List Interceptor}
    {r r' : Run σ κ}
    {calls : List (FactoryCall κ)}
    (h : Wraps P recur i inner ics r calls (.ok outermost r')) :
    calls.map FactoryCall.origin = ics.map (fun ic => ic.declaration.name) := by
  generalize houtcome : EStateM.Result.ok outermost r' = outcome at h
  induction h with
  | done => rfl
  | unanswered | failed | stray => cases houtcome
  | wrapped _ _ _ _ _ ih => exact congrArg (_ :: ·) (ih houtcome)

/-! ## Arguments of an interceptor -/

/-- Behind the place of the factory the dependencies are left. -/
theorem placeFactory_of_lt
    {factoryParameter position : Nat}
    (hlt : factoryParameter < position)
    (factory : Value κ)
    {ps : List Parameter}
    {dependencies : List (Value κ)}
    (hlength : dependencies.length = ps.length) :
    placeFactory factoryParameter factory position ps dependencies = dependencies := by
  induction ps generalizing position dependencies with
  | nil => rw [placeFactory, List.length_eq_zero_iff.mp hlength]
  | cons p ps ih =>
      cases dependencies with
      | nil => cases hlength
      | cons v rest =>
          rw [placeFactory, if_neg (Nat.ne_of_gt hlt)]
          exact congrArg (v :: ·) (ih (Nat.lt_succ_of_lt hlt) (Nat.succ.inj hlength))

/-- The factory is in its place, and the dependencies are in the others. -/
theorem placeFactory_spec
    (start : Nat)
    (factory : Value κ)
    {place : Nat}
    {ps : List Parameter}
    {dependencies : List (Value κ)}
    (hplace : place < ps.length)
    (hlength : dependencies.length + 1 = ps.length) :
    (placeFactory (start + place) factory start ps dependencies).length = ps.length
      ∧ (placeFactory (start + place) factory start ps dependencies)[place]? = some factory
      ∧ (placeFactory (start + place) factory start ps dependencies).eraseIdx place
        = dependencies := by
  induction ps generalizing start place dependencies with
  | nil => cases hplace
  | cons p ps ih =>
      cases place with
      | zero =>
          have hrest : placeFactory start factory (start + 1) ps dependencies
              = dependencies :=
            placeFactory_of_lt (Nat.lt_succ_self start) factory (Nat.succ.inj hlength)
          have hstep : placeFactory (start + 0) factory start (p :: ps) dependencies
              = factory :: dependencies := by
            rw [Nat.add_zero, placeFactory.eq_def]
            dsimp only
            rw [if_pos rfl, hrest]
          rw [hstep]
          exact ⟨hlength, rfl, rfl⟩
      | succ place =>
          cases dependencies with
          | nil =>
              simp only [List.length_nil, List.length_cons] at hplace hlength
              omega
          | cons v rest =>
              obtain ⟨hcount, hfactory, hothers⟩ := ih (start + 1)
                (Nat.lt_of_succ_lt_succ hplace) (Nat.succ.inj hlength)
              have hstep : placeFactory (start + (place + 1)) factory start (p :: ps) (v :: rest)
                  = v :: placeFactory (start + 1 + place) factory (start + 1) ps rest := by
                have hshift : start + (place + 1) = start + 1 + place := by omega
                rw [hshift, placeFactory, if_neg (by omega)]
              rw [hstep]
              refine ⟨congrArg (· + 1) hcount, hfactory, ?_⟩
              rw [List.eraseIdx_cons_succ, hothers]

end Steps

end Eval

/-- There is a parameter at the position for the factory, if there are any. -/
theorem Declaration.factoryPosition_lt
    (d : Declaration)
    {t : Ty}
    (h : d.parameters ≠ []) :
    d.factoryPosition t < d.parameters.length := by
  unfold factoryPosition
  generalize hposition : d.parameters.findIdx? _ = position
  cases position with
  | none => exact List.length_pos_iff.mpr h
  | some k => exact (List.findIdx?_eq_some_iff_findIdx_eq.mp hposition).1

namespace Interceptor

/-- Whether an interceptor has a parameter for the factory, and an answer for each of the
others. -/
structure IsComplete (ic : Interceptor) : Prop where
  place : ic.factoryParameter < ic.declaration.parameters.length
  answers : ic.resolved.length + 1 = ic.declaration.parameters.length

end Interceptor

namespace Eval

variable {σ κ : Type} {P : Program σ κ} {recur : Task κ → Eval σ κ (Value κ)}
  {i : InstanceId}

theorem handed_placeFactory
    {ic : Interceptor}
    (hic : ic.IsComplete)
    (inner : Function κ)
    {dependencies : List (Value κ)}
    (hlength : dependencies.length = ic.resolved.length) :
    ic.Handed inner dependencies
      (placeFactory ic.factoryParameter inner.toValue 0 ic.declaration.parameters
        dependencies) := by
  have hspec := placeFactory_spec 0 inner.toValue hic.place (hlength ▸ hic.answers)
  rw [Nat.zero_add] at hspec
  exact ⟨hspec.1, hspec.2.1, hspec.2.2⟩

/-- What wrapping a function in one interceptor comes to. -/
theorem wrap_eq
    (inner : Function κ)
    (ic : Interceptor)
    (r : Run σ κ) :
    wrap P recur i inner ic r
      = match nodes recur i ic.resolved r with
        | .error e r' => .error e r'
        | .ok dependencies r₁ =>
            match callFactory P recur ic.declaration.name
                (placeFactory ic.factoryParameter inner.toValue 0 ic.declaration.parameters
                  dependencies) r₁ with
            | .error e r' => .error e r'
            | .ok v r₂ =>
                match v.function? with
                | some outer => .ok outer r₂
                | none => .error (.failed (.mismatch (.notWrapper ic.declaration.name))) r₂ := by
  unfold wrap
  rw [bind_apply]
  cases nodes recur i ic.resolved r with
  | error e r' => rfl
  | ok dependencies r₁ =>
      dsimp only
      rw [bind_apply]
      cases callFactory P recur ic.declaration.name
          (placeFactory ic.factoryParameter inner.toValue 0 ic.declaration.parameters
            dependencies) r₁ with
      | error e r' => rfl
      | ok v r₂ =>
          dsimp only
          cases v.function? <;> rfl

/-- Wrapping calls the interceptors one after the other. -/
theorem wraps_of_foldlM
    {ics : List Interceptor}
    (hcomplete : ∀ ic ∈ ics, ic.IsComplete)
    (inner : Function κ)
    (r : Run σ κ) :
    ∃ calls, Wraps P recur i inner ics r calls (ics.foldlM (wrap P recur i) inner r) := by
  induction ics generalizing inner r with
  | nil => exact ⟨[], .done⟩
  | cons ic ics ih =>
      obtain ⟨hic, hics⟩ := List.forall_mem_cons.mp hcomplete
      rw [List.foldlM_cons, bind_apply, wrap_eq]
      cases hnodes : nodes recur i ic.resolved r with
      | error e r' => exact ⟨_, .unanswered hnodes⟩
      | ok dependencies r₁ =>
          have hhanded := handed_placeFactory hic inner (length_of_nodes hnodes)
          dsimp only
          cases hcall : callFactory P recur ic.declaration.name
              (placeFactory ic.factoryParameter inner.toValue 0 ic.declaration.parameters
                dependencies) r₁ with
          | error e r' => exact ⟨_, .failed hnodes hhanded hcall⟩
          | ok v r₂ =>
              dsimp only
              cases hfunction : v.function? with
              | none => exact ⟨_, .stray hnodes hhanded hcall hfunction⟩
              | some outer =>
                  obtain ⟨calls, hcalls⟩ := ih hics outer r₂
                  exact ⟨_, .wrapped hnodes hhanded hcall hfunction hcalls⟩

/-! ## Nodes -/

/-- Evaluate a node for a value of its declaration: compute it and, if that makes a function
of the assisted parameters, invoke the function. -/
def produce (P : Program σ κ) (recur : Task κ → Eval σ κ (Value κ)) (i : InstanceId)
    (n : Node) (arguments : List (Value κ)) : Eval σ κ (Value κ) :=
  match n.kind with
  | .callable _ _ (_ :: _) => do
      let v ← compute P recur i n
      let f ← ofExcept v.toFunction
      invoke P recur f arguments
  | _ => compute P recur i n

end Eval

/-- The function that calls the declaration of a node, the arguments being its assisted
parameters. -/
def Node.ownFactory {κ : Type} (n : Node) (i : InstanceId) : List Nat → Function κ
  | [] => ⟨0, .bare i n.id⟩
  | assisted => ⟨assisted.length, .assisted i n.id⟩

/-- Whether every value that a function comes to is made by the factory of a declaration. -/
def Function.Calls {σ κ : Type} (P : Program σ κ) (recur : Task κ → Eval σ κ (Value κ))
    (origin : QName) (f : Function κ) : Prop :=
  ∀ {arguments : List (Value κ)} {v : Value κ} {r r' : Run σ κ},
    Eval.invoke P recur f arguments r = .ok v r' →
    ∃ values r₁, Eval.callFactory P recur origin values r₁ = .ok v r'

/-- Whether evaluating a node, and invoking the function that it yields if it has assisted
parameters, gets to the factory of the node's own declaration.  Without assisted parameters
that factory is wrapped, and host code can only invoke what it was handed: it is not called
unless what wrapping comes to depends on it. -/
def Node.ReachesFactory {σ κ : Type} (P : Program σ κ) (recur : Task κ → Eval σ κ (Value κ))
    (i : InstanceId) (n : Node) (d : Declaration) (arguments : List (Value κ))
    (r : Run σ κ) : List Nat → Prop
  | [] => ∃ other, n.interceptors.foldlM (Eval.wrap P recur i) other r
      ≠ n.interceptors.foldlM (Eval.wrap P recur i) (n.ownFactory i []) r
  | _ :: _ => ∃ values r₁,
      Eval.produce P recur i n arguments r = Eval.callFactory P recur d.name values r₁

/-- Whether all interceptors of a node are applied whenever evaluating it gets to the factory
of its declaration, whatever evaluating other nodes and invoking functions comes to.  The
first one wraps that factory, each later one the function that the one before returned, and
unless that fails, each of them is called once, in order, and the outermost function is
invoked. -/
def Node.AppliesInterceptors (p : Plan) (n : Node) (d : Declaration) (assisted : List Nat) :
    Prop :=
  ∀ (σ κ : Type) (P : Program σ κ) (recur : Task κ → Eval σ κ (Value κ)) (i : InstanceId)
    (r : Run σ κ) (arguments : List (Value κ)),
    P.plan = p → arguments.length = assisted.length →
    (n.ownFactory i assisted).Calls P recur d.name
      ∧ (n.ReachesFactory P recur i d arguments r assisted →
        ∃ calls outcome,
          Eval.Wraps P recur i (n.ownFactory i assisted) n.interceptors r calls outcome
          ∧ (∀ outermost r', outcome = .ok outermost r' →
            calls.map FactoryCall.origin = n.interceptors.map (fun ic => ic.declaration.name))
          ∧ Eval.produce P recur i n arguments r
            = match outcome with
              | .ok outermost r' => recur (.invoke outermost arguments) r'
              | .error e r' => .error e r')

/-- Whether all interceptors that are attached to nodes are applied. -/
def Graph.InterceptorsApplied (g : Graph) : Prop :=
  ∀ {id : NodeId} {n : Node} {d : Declaration} {receivers : List QName}
    {assisted : List Nat}, g.node? id = some n → n.kind = .callable d receivers assisted →
    n.interceptors ≠ [] → n.AppliesInterceptors g.plan d assisted

section Applied

variable {p : Plan} {n : Node} {d : Declaration} {receivers : List QName}

/-- The factory of a node's own declaration calls it. -/
theorem Node.calls_ownFactory
    {σ κ : Type}
    {P : Program σ κ}
    (hnode : P.plan.node? n.id = some n)
    (hk : n.kind = .callable d receivers [])
    (recur : Task κ → Eval σ κ (Value κ))
    (i : InstanceId) :
    (n.ownFactory i [] : Function κ).Calls P recur d.name := by
  intro arguments v r r' h
  unfold Eval.invoke at h
  split at h
  · simp only [Node.ownFactory, Eval.apply] at h
    obtain ⟨⟨d', dependencies⟩, r₁, hinvocable, h⟩ := Eval.bind_eq_ok.mp h
    obtain ⟨values, r₂, -, hcall⟩ := Eval.bind_eq_ok.mp h
    unfold Eval.invocable at hinvocable
    rw [hnode] at hinvocable
    simp only [hk] at hinvocable
    cases hinvocable
    exact ⟨values, r₂, hcall⟩
  · cases h

/-- With assisted parameters, the function of the node's own declaration is invoked. -/
theorem Eval.produce_assisted
    {σ κ : Type}
    {a : Nat}
    {rest : List Nat}
    (hk : n.kind = .callable d receivers (a :: rest))
    (P : Program σ κ)
    (recur : Task κ → Eval σ κ (Value κ))
    (i : InstanceId)
    (arguments : List (Value κ))
    (r : Run σ κ) :
    Eval.produce P recur i n arguments r
      = Eval.invoke P recur ⟨(a :: rest).length, .assisted i n.id⟩ arguments r := by
  simp only [Eval.produce, Eval.compute, hk]
  rfl

/-- Without assisted parameters, a node with interceptors is wrapped and the outermost
function is invoked. -/
theorem Eval.produce_eq
    {σ κ : Type}
    {P : Program σ κ}
    {recur : Task κ → Eval σ κ (Value κ)}
    {i : InstanceId}
    (hk : n.kind = .callable d receivers [])
    (hsome : n.interceptors ≠ [])
    (arguments : List (Value κ))
    (r : Run σ κ) :
    Eval.produce P recur i n arguments r
      = match n.interceptors.foldlM (Eval.wrap P recur i) (n.ownFactory i []) r with
        | .ok outermost r₁ => recur (.invoke outermost []) r₁
        | .error e r₁ => .error e r₁ := by
  have hempty : n.interceptors.isEmpty = false := by simpa using hsome
  simp only [Eval.produce, Eval.compute, hk, hempty, Node.ownFactory]
  rw [if_neg Bool.false_ne_true, Eval.bind_apply]
  cases n.interceptors.foldlM (Eval.wrap P recur i) ⟨0, .bare i n.id⟩ r <;> rfl

/-- An interceptor without parameters comes to the same whatever it is to wrap. -/
theorem Eval.wrap_of_parameters_eq_nil
    {σ κ : Type}
    {ic : Interceptor}
    (h : ic.declaration.parameters = [])
    (P : Program σ κ)
    (recur : Task κ → Eval σ κ (Value κ))
    (i : InstanceId)
    (inner other : Function κ) :
    Eval.wrap P recur i inner ic = Eval.wrap P recur i other ic := by
  unfold Eval.wrap
  rw [h]
  rfl

/-- If wrapping depends on what is wrapped, the first interceptor has parameters. -/
theorem Node.ReachesFactory.first
    {σ κ : Type}
    {P : Program σ κ}
    {recur : Task κ → Eval σ κ (Value κ)}
    {i : InstanceId}
    {arguments : List (Value κ)}
    {r : Run σ κ}
    (h : n.ReachesFactory P recur i d arguments r []) :
    ∀ ic ∈ n.interceptors.head?, ic.declaration.parameters ≠ [] := by
  intro ic hic hnone
  obtain ⟨other, hother⟩ := h
  obtain ⟨ics, hics⟩ := List.head?_eq_some_iff.mp hic
  rw [hics, List.foldlM_cons, List.foldlM_cons,
    Eval.wrap_of_parameters_eq_nil hnone P recur i other (n.ownFactory i [])] at hother
  exact hother rfl

/-- Without assisted parameters, interceptors that have parameters are applied. -/
theorem Node.appliesInterceptors
    (hnode : p.node? n.id = some n)
    (hk : n.kind = .callable d receivers [])
    (hsome : n.interceptors ≠ [])
    (hcomplete : (∀ ic ∈ n.interceptors.head?, ic.declaration.parameters ≠ []) →
      ∀ ic ∈ n.interceptors, ic.IsComplete) :
    n.AppliesInterceptors p d [] := by
  rintro σ κ P recur i r arguments rfl hlength
  obtain rfl := List.length_eq_zero_iff.mp hlength
  refine ⟨n.calls_ownFactory hnode hk recur i, fun hreaches => ?_⟩
  obtain ⟨calls, hcalls⟩ : ∃ calls, Eval.Wraps P recur i (n.ownFactory i []) n.interceptors r
      calls (n.interceptors.foldlM (Eval.wrap P recur i) (n.ownFactory i []) r) :=
    Eval.wraps_of_foldlM (hcomplete hreaches.first) _ r
  refine ⟨calls, _, hcalls, fun outermost r' hok => (hok ▸ hcalls).origins_eq, ?_⟩
  rw [Eval.produce_eq hk hsome]

end Applied

/-! ## Interceptors that are not applied -/

namespace Eval

variable {σ κ : Type}

/-- Every node comes to nothing, and invoking a function is out of reach. -/
def unreached : Task κ → Eval σ κ (Value κ)
  | .node _ _ => pure .absent
  | .invoke _ _ => throw .outOfFuel

theorem nodes_unreached
    (i : InstanceId)
    (ids : List NodeId)
    (r : Run σ κ) :
    nodes unreached i ids r = .ok (ids.map fun _ => .absent) r := by
  induction ids generalizing r with
  | nil => rfl
  | cons id ids ih =>
      unfold nodes at ih ⊢
      rw [List.mapM_cons]
      exact bind_eq_ok.mpr ⟨.absent, r, rfl, bind_eq_ok.mpr ⟨_, r, ih r, rfl⟩⟩

end Eval

/-- A program of a plan with factories for the declarations that are called for a node.  All
of them return a function, and the host program keeps what they are handed. -/
def Plan.keeping (p : Plan) (n : Node) : Program (List (Value Unit)) Unit where
  plan := p
  factories := (p.supplying n).factories
  host :=
    { factory := fun _ arguments kept =>
        .finish (kept ++ arguments) (.ok Function.given.toValue)
      function := fun _ _ _ kept => .finish kept (.ok .absent) }

/-- A run whose host program keeps some more values. -/
def Run.keep {κ : Type} (r : Run (List (Value κ)) κ) (values : List (Value κ)) :
    Run (List (Value κ)) κ :=
  { r with host := r.host ++ values }

/-- What an interceptor is handed if its dependencies come to nothing. -/
def Interceptor.placed {κ : Type} (ic : Interceptor) (inner : Function κ) : List (Value κ) :=
  Eval.placeFactory ic.factoryParameter inner.toValue 0 ic.declaration.parameters
    (ic.resolved.map fun _ => .absent)

section Keeping

variable {p : Plan} {n : Node} {i : InstanceId}

theorem Plan.keeping_call
    (origin : QName)
    (arguments : List (Value Unit))
    (r : Run (List (Value Unit)) Unit) :
    Eval.callFactory (p.keeping n) Eval.unreached origin arguments r
      = if ((p.keeping n).factories.factory? origin).isSome then
          .ok Function.given.toValue (r.keep arguments)
        else .error (.failed (.missingFactory origin)) r := by
  unfold Eval.callFactory
  cases (p.keeping n).factories.factory? origin <;> rfl

theorem Plan.keeping_call_interceptor
    {ic : Interceptor}
    (hic : ic ∈ n.interceptors)
    (arguments : List (Value Unit))
    (r : Run (List (Value Unit)) Unit) :
    Eval.callFactory (p.keeping n) Eval.unreached ic.declaration.name arguments r
      = .ok Function.given.toValue (r.keep arguments) := by
  obtain ⟨code, hcode, -⟩ := (p.supplying_supplies n).interceptors ic hic
  have hsome : ((p.keeping n).factories.factory? ic.declaration.name).isSome = true := by
    change ((p.supplying n).factories.factory? ic.declaration.name).isSome = true
    rw [hcode]
    rfl
  rw [keeping_call, if_pos hsome]

/-- Wrapping succeeds, and all interceptors are handed something. -/
theorem Plan.keeping_wraps
    {inner : Function Unit}
    {ics : List Interceptor}
    {r : Run (List (Value Unit)) Unit}
    {calls : List (FactoryCall Unit)}
    {outcome : EStateM.Result Halt (Run (List (Value Unit)) Unit) (Function Unit)}
    (h : Eval.Wraps (p.keeping n) Eval.unreached i inner ics r calls outcome)
    (hics : ∀ ic ∈ ics, ic ∈ n.interceptors) :
    (∀ ic ∈ ics, ic.declaration.parameters ≠ [])
      ∧ ∃ outermost r', outcome = .ok outermost r' := by
  induction h with
  | done => exact ⟨fun ic hic => (nomatch hic), _, _, rfl⟩
  | unanswered hnodes =>
      rw [Eval.nodes_unreached] at hnodes
      cases hnodes
  | failed _ _ hfailed =>
      rw [keeping_call_interceptor (hics _ List.mem_cons_self)] at hfailed
      cases hfailed
  | stray _ _ hstray hnone =>
      rw [keeping_call_interceptor (hics _ List.mem_cons_self)] at hstray
      cases hstray
      cases hnone
  | wrapped _ hhanded _ _ _ ih =>
      obtain ⟨hrest, houtcome⟩ := ih fun ic hic => hics ic (List.mem_cons_of_mem _ hic)
      refine ⟨List.forall_mem_cons.mpr ⟨fun hnone => ?_, hrest⟩, houtcome⟩
      have hcount := hhanded.count
      rw [hnone] at hcount
      have hfactory := hhanded.factory
      rw [List.length_eq_zero_iff.mp hcount] at hfactory
      cases hfactory

theorem Plan.keeping_wrap
    {ic : Interceptor}
    (hic : ic ∈ n.interceptors)
    (inner : Function Unit)
    (r : Run (List (Value Unit)) Unit) :
    Eval.wrap (p.keeping n) Eval.unreached i inner ic r
      = .ok Function.given (r.keep (ic.placed inner)) := by
  rw [Eval.wrap_eq, Eval.nodes_unreached]
  dsimp only
  rw [keeping_call_interceptor hic]
  rfl

/-- What the later interceptors add to what is kept is always the same. -/
theorem Plan.keeping_foldlM
    {ics : List Interceptor}
    (hics : ∀ ic ∈ ics, ic ∈ n.interceptors) :
    ∃ added, ∀ r, ics.foldlM (Eval.wrap (p.keeping n) Eval.unreached i) Function.given r
      = .ok Function.given (r.keep added) := by
  induction ics with
  | nil => exact ⟨[], fun r => by rw [Run.keep, List.append_nil]; rfl⟩
  | cons ic ics ih =>
      obtain ⟨hic, hrest⟩ := List.forall_mem_cons.mp hics
      obtain ⟨added, hadded⟩ := ih hrest
      refine ⟨ic.placed Function.given ++ added, fun r => ?_⟩
      rw [List.foldlM_cons, Eval.bind_apply, keeping_wrap hic]
      dsimp only
      rw [hadded, Run.keep, Run.keep, Run.keep, List.append_assoc]

/-- If the first interceptor has a place for the factory, the factory is kept. -/
theorem Plan.keeping_reaches
    {d : Declaration}
    {ic : Interceptor}
    {ics : List Interceptor}
    (hics : n.interceptors = ic :: ics)
    (hic : ic.IsComplete)
    (arguments : List (Value Unit))
    (r : Run (List (Value Unit)) Unit) :
    n.ReachesFactory (p.keeping n) Eval.unreached i d arguments r [] := by
  have hmem : ∀ ic' ∈ ic :: ics, ic' ∈ n.interceptors := fun ic' h => hics ▸ h
  obtain ⟨added, hadded⟩ := Plan.keeping_foldlM (p := p) (n := n) (i := i)
    fun ic' h => hmem ic' (List.mem_cons_of_mem ic h)
  have hfold : ∀ inner : Function Unit,
      n.interceptors.foldlM (Eval.wrap (p.keeping n) Eval.unreached i) inner r
        = .ok Function.given ((r.keep (ic.placed inner)).keep added) := by
    intro inner
    rw [hics, List.foldlM_cons, Eval.bind_apply,
      Plan.keeping_wrap (hmem ic List.mem_cons_self)]
    exact hadded _
  have hplaced : ∀ inner : Function Unit,
      (ic.placed inner)[ic.factoryParameter]? = some inner.toValue :=
    fun inner => (Eval.handed_placeFactory hic inner (List.length_map _)).factory
  refine ⟨Function.given, fun hsame => ?_⟩
  rw [hfold, hfold] at hsame
  injection hsame with _ hrun
  have hargs : ic.placed Function.given = ic.placed (n.ownFactory i []) :=
    List.append_cancel_left (List.append_cancel_right (congrArg Run.host hrun))
  have hinner := hplaced Function.given
  rw [hargs, hplaced] at hinner
  cases hinner

end Keeping

/-- If the factory of a node that applies its interceptors is reached in the program that
keeps everything, all interceptors have parameters, and the outermost function is invoked. -/
theorem Node.AppliesInterceptors.keeping
    {p : Plan}
    {n : Node}
    {d : Declaration}
    {assisted : List Nat}
    (h : n.AppliesInterceptors p d assisted)
    {i : InstanceId}
    {arguments : List (Value Unit)}
    (hlength : arguments.length = assisted.length)
    {r : Run (List (Value Unit)) Unit}
    (hreaches : n.ReachesFactory (p.keeping n) Eval.unreached i d arguments r assisted) :
    (∀ ic ∈ n.interceptors, ic.declaration.parameters ≠ [])
      ∧ ∃ r', Eval.produce (p.keeping n) Eval.unreached i n arguments r
        = .error .outOfFuel r' := by
  obtain ⟨-, happlied⟩ := h _ _ (p.keeping n) Eval.unreached i r arguments rfl hlength
  obtain ⟨calls, outcome, hcalls, -, hproduce⟩ := happlied hreaches
  obtain ⟨hparameters, outermost, r', rfl⟩ := Plan.keeping_wraps hcalls fun _ hic => hic
  exact ⟨hparameters, r', hproduce⟩

namespace Graph

/-- Attached interceptors with parameters have one for the factory, and an answer for each of
the others. -/
theorem Batched.interceptor_complete
    {B : Build}
    {g : Graph}
    (h : Batched B g)
    {id : NodeId}
    {n : Node}
    (hn : g.node? id = some n)
    {ic : Interceptor}
    (hic : ic ∈ n.interceptors)
    (hparameters : ic.declaration.parameters ≠ []) :
    ic.IsComplete := by
  have hattached := h.intercepted hn ic hic
  have hplace : ic.factoryParameter < ic.declaration.parameters.length := by
    obtain ⟨e, resolved, rfl⟩ := hattached
    exact e.declaration.factoryPosition_lt hparameters
  refine ⟨hplace, ?_⟩
  rw [(h.complete hn).interceptors ic hic, hattached.dependencies, List.length_map,
    List.length_eraseIdx_of_lt hplace]
  omega

/-- A node that applies its interceptors has no assisted parameters, and if the first of
them has parameters, all of them have. -/
theorem Batched.wrappable
    {B : Build}
    {g : Graph}
    (h : Batched B g)
    {id : NodeId}
    {n : Node}
    (hn : g.node? id = some n)
    {d : Declaration}
    {receivers : List QName}
    {assisted : List Nat}
    (hk : n.kind = .callable d receivers assisted)
    (hsome : n.interceptors ≠ [])
    (happlied : n.AppliesInterceptors g.plan d assisted) :
    assisted = []
      ∧ ((∀ ic ∈ n.interceptors.head?, ic.declaration.parameters ≠ []) →
        ∀ ic ∈ n.interceptors, ic.declaration.parameters ≠ []) := by
  cases assisted with
  | nil =>
      refine ⟨rfl, fun hfirst => ?_⟩
      obtain ⟨ic, ics, hics⟩ := List.exists_cons_of_ne_nil hsome
      have hic : ic.IsComplete :=
        h.interceptor_complete hn (hics ▸ List.mem_cons_self) (hfirst ic (by simp [hics]))
      have hreaches : n.ReachesFactory (g.plan.keeping n) Eval.unreached ⟨0⟩ d []
          { host := [] } [] := Plan.keeping_reaches hics hic _ _
      exact (happlied.keeping rfl hreaches).1
  | cons a rest =>
      exfalso
      obtain ⟨hpositions, hrequests⟩ :=
        h.assisted_split hn d receivers (a :: rest) hk (List.cons_ne_nil a rest)
      let arguments : List (Value Unit) := (a :: rest).map fun _ => .absent
      let provided : List (Value Unit) := n.resolved.map fun _ => .absent
      have hlength : arguments.length = (a :: rest).length := List.length_map _
      have hprovided : provided.length = d.requests.length := by
        rw [List.length_map, (h.complete hn).dependencies, hrequests]
      obtain ⟨values, hplace, -⟩ := Declaration.exists_places
        (hlength.trans (congrArg List.length hpositions)) hprovided
      have hcalls : Eval.produce (g.plan.keeping n) Eval.unreached ⟨0⟩ n arguments
            { host := [] }
          = Eval.callFactory (g.plan.keeping n) Eval.unreached d.name values
            { host := [] } := by
        rw [Eval.produce_assisted hk, Eval.invoke_assisted _ (h.plan_node? hn) hk _ hlength,
          Eval.nodes_unreached]
        dsimp only
        rw [hplace]
      obtain ⟨-, r', hproduce⟩ := happlied.keeping hlength ⟨values, _, hcalls⟩
      rw [hcalls, Plan.keeping_call] at hproduce
      split at hproduce <;> cases hproduce

/-- In a graph that calls and batches reach, all attached interceptors are applied whenever
the factory of a node's own declaration is called, exactly if no node with assisted
parameters has any, and where the first one has parameters, all of them have. -/
theorem Batched.interceptorsApplied_iff
    {B : Build}
    {g : Graph}
    (h : Batched B g) :
    g.InterceptorsApplied ↔
      ∀ {id : NodeId} {n : Node} {d : Declaration} {receivers : List QName}
        {assisted : List Nat}, g.node? id = some n →
        n.kind = .callable d receivers assisted → n.interceptors ≠ [] →
        assisted = []
          ∧ ((∀ ic ∈ n.interceptors.head?, ic.declaration.parameters ≠ []) →
            ∀ ic ∈ n.interceptors, ic.declaration.parameters ≠ []) := by
  constructor
  · intro happlied id n d receivers assisted hn hk hsome
    exact h.wrappable hn hk hsome (happlied hn hk hsome)
  · intro hwrappable id n d receivers assisted hn hk hsome
    obtain ⟨rfl, hparameters⟩ := hwrappable hn hk hsome
    exact n.appliesInterceptors (h.plan_node? hn) hk hsome fun hfirst ic hic =>
      h.interceptor_complete hn hic (hparameters hfirst ic hic)

/-! ## An interceptor of a factory -/

/-- Two classes, `A` and `Foo`. -/
def makers : Build where
  registry :=
    { Registry.initial with
      registered := #[{ name := ⟨"A"⟩ }, { name := ⟨"Foo"⟩ }] }

/-- A declaration with an assisted parameter, and an interceptor for functions that take one
and return what it makes. -/
def makerDeclarations : List Declaration :=
  let maker : Ty := .function [.of ⟨16⟩] (.of ⟨17⟩)
  [ { name := ⟨"app.make"⟩
      type := .of ⟨17⟩
      parameters := [{ name := "a", type := .of ⟨16⟩, assisted := true }] },
    { name := ⟨"app.audit"⟩
      type := .function [] maker
      parameters := [{ name := "make", type := .function [] maker }]
      role := .interceptor } ]

/-- The graph after such a function was asked for. -/
def makerGraph : Graph :=
  ((Graph.empty.withScope makers none { name := "App" } makerDeclarations).resolve
    makers ⟨0⟩ { type := .function [.of ⟨16⟩] (.of ⟨17⟩), origin := ⟨"app"⟩ }).2

/-- The plan with factories that write down that they are called. -/
def makerProgram : Program (List QName) QName where
  plan := makerGraph.plan
  factories := { factories := makerDeclarations.map (fun d => (d.name, d.name)) }
  host :=
    { factory := fun name _ called => .finish (called ++ [name]) (.ok .absent)
      function := fun _ _ _ called => .finish called (.ok .absent) }

/-- Evaluate the node and invoke the function that it yields. -/
def makerRun : Eval (List QName) QName (Value QName) := do
  let app ← makerProgram.instantiate 4 ⟨0⟩ []
  let v ← Eval.task makerProgram 4 (.node app ⟨0⟩)
  let make ← Eval.ofExcept v.toFunction
  Eval.task makerProgram 4 (.invoke make [.absent])

theorem makerGraph_batched : Batched makers makerGraph :=
  .resolve _ _ (Batched.empty.withScope _ _ _)

theorem makerGraph_interceptorsApplied_iff :
    makerGraph.InterceptorsApplied ↔
      ∀ {id : NodeId} {n : Node} {d : Declaration} {receivers : List QName}
        {assisted : List Nat}, makerGraph.node? id = some n →
        n.kind = .callable d receivers assisted → n.interceptors ≠ [] →
        assisted = []
          ∧ ((∀ ic ∈ n.interceptors.head?, ic.declaration.parameters ≠ []) →
            ∀ ic ∈ n.interceptors, ic.declaration.parameters ≠ []) :=
  Batched.interceptorsApplied_iff makerGraph_batched

/-- The interceptor is attached, and only the declaration is called. -/
theorem makerGraph_not_interceptorsApplied :
    Batched makers makerGraph
      ∧ (makerGraph.node? ⟨0⟩).map
          (fun n => n.interceptors.map (fun ic => ic.declaration.name))
        = some [⟨"app.audit"⟩]
      ∧ (match makerRun { host := [] } with
        | .ok _ r => some r.host
        | .error _ _ => none) = some [⟨"app.make"⟩]
      ∧ ¬ makerGraph.InterceptorsApplied := by
  refine ⟨makerGraph_batched, by decide +kernel, by decide +kernel, fun happlied => ?_⟩
  have hnode : (makerGraph.node? ⟨0⟩).any (fun n =>
      match n.kind with
      | .callable _ _ (_ :: _) => !n.interceptors.isEmpty
      | _ => false) = true := by
    decide +kernel
  obtain ⟨n, hn, hfacts⟩ := (Option.any_eq_true _ _).mp hnode
  split at hfacts
  · rename_i d receivers a rest hk
    have hsome : n.interceptors ≠ [] := by simpa using hfacts
    exact absurd (makerGraph_batched.wrappable hn hk hsome (happlied hn hk hsome)).1
      (List.cons_ne_nil a rest)
  · cases hfacts

end Graph
end Wiring
