import Wiring.Proofs.Caching.Provenance
import Wiring.Proofs.Completion
import Wiring.Proofs.Deferral

/-!
# Assisted parameters

The value of a node with assisted parameters is a function.  Its caller supplies the assisted
parameters, and the dependencies of the node are evaluated for the others.  When the node is
planned, its declaration is split by the marks of the parameters, into positions and requests;
when the function is invoked, arguments and dependencies are merged again by the same marks.

**Results.**
* `Eval.placeArguments_spec`: two lists of the right lengths are merged without a gap, and
  the marks split what comes out into the two lists again.
* `Graph.Batched.assisted_split`: a node with assisted parameters has the positions and the
  requests of its own declaration.
* `Graph.Batched.assists`: whatever a node with assisted parameters comes to in a session
  calls the factory of its declaration once, with everything in its place.
-/

namespace Wiring

open Dialogue (stateOf)

/-! ## Places -/

/-- Whether values are in the places of a declaration's parameters: the arguments in those
of the assisted ones, in order, and what was provided for a dependency in that of the
parameter that it was requested for. -/
structure Declaration.Places {κ : Type} (d : Declaration) (dependencies : List Request)
    (arguments provided values : List (Value κ)) : Prop where
  length : values.length = d.parameters.length
  assisted :
    ((d.parameters.zip values).filter (fun p => p.1.assisted)).map Prod.snd = arguments
  resolved :
    ((d.parameters.zip values).filter (fun p => !p.1.assisted)).map
        (fun p => (d.parameterRequest p.1, p.2))
      = dependencies.zip provided

namespace Eval

variable {σ κ : Type}

/-- Lists of the right lengths are merged without a gap. -/
theorem placeArguments_spec
    (parameters : List Parameter)
    (arguments provided : List (Value κ))
    (harguments : arguments.length = (parameters.filter (fun p => p.assisted)).length)
    (hprovided : provided.length = (parameters.filter (fun p => !p.assisted)).length) :
    ∃ values, placeArguments parameters arguments provided = .ok values
      ∧ values.length = parameters.length
      ∧ ((parameters.zip values).filter (fun p => p.1.assisted)).map Prod.snd = arguments
      ∧ (parameters.zip values).filter (fun p => !p.1.assisted)
        = (parameters.filter (fun p => !p.assisted)).zip provided := by
  induction parameters generalizing arguments provided with
  | nil =>
      have hnone : arguments = [] := List.length_eq_zero_iff.mp harguments
      exact ⟨[], rfl, rfl, hnone.symm, rfl⟩
  | cons p ps ih =>
      cases hp : p.assisted with
      | true =>
          cases arguments with
          | nil => simp [hp] at harguments
          | cons v arguments =>
              obtain ⟨values, hplace, hlength, hassisted, hresolved⟩ :=
                ih arguments provided (by simpa [hp] using harguments)
                  (by simpa [hp] using hprovided)
              refine ⟨v :: values, ?_, by simp [hlength], ?_, ?_⟩
              · simp [placeArguments, hp, hplace, Except.map]
              · simp [hp, hassisted]
              · simp [hp, hresolved]
      | false =>
          cases provided with
          | nil => simp [hp] at hprovided
          | cons v provided =>
              obtain ⟨values, hplace, hlength, hassisted, hresolved⟩ :=
                ih arguments provided (by simpa [hp] using harguments)
                  (by simpa [hp] using hprovided)
              refine ⟨v :: values, ?_, by simp [hlength], ?_, ?_⟩
              · simp [placeArguments, hp, hplace, Except.map]
              · simp [hp, hassisted]
              · simp [hp, hresolved]

end Eval

/-- There are as many positions of assisted parameters as there are such parameters. -/
theorem Declaration.length_assistedPositions
    (d : Declaration) :
    d.assistedPositions.length = (d.parameters.filter (fun p => p.assisted)).length := by
  have hsplit : d.parameters.filter (fun p => p.assisted)
      = (d.parameters.zipIdx.filter (fun p => p.1.assisted)).map Prod.fst := by
    conv_lhs => rw [← List.zipIdx_map_fst 0 d.parameters]
    rw [List.filter_map]
    rfl
  rw [hsplit]
  simp [assistedPositions]

/-- Arguments for the assisted parameters and values for the dependencies are put in their
places. -/
theorem Declaration.exists_places
    {κ : Type}
    {d : Declaration}
    {arguments provided : List (Value κ)}
    (harguments : arguments.length = d.assistedPositions.length)
    (hprovided : provided.length = d.requests.length) :
    ∃ values, Eval.placeArguments d.parameters arguments provided = .ok values
      ∧ d.Places d.requests arguments provided values := by
  rw [d.length_assistedPositions] at harguments
  rw [requests, List.length_map] at hprovided
  obtain ⟨values, hplace, hlength, hassisted, hresolved⟩ :=
    Eval.placeArguments_spec d.parameters arguments provided harguments hprovided
  refine ⟨values, hplace, hlength, hassisted, ?_⟩
  rw [hresolved, requests, List.zip_map_left]
  rfl

/-! ## Functions -/

namespace Graph

/-- A node with assisted parameters has the positions and the requests of its own
declaration. -/
theorem Batched.assisted_split
    {B : Build}
    {g : Graph}
    (h : Batched B g) :
    g.Every (fun _ n => ∀ d receivers assisted, n.kind = .callable d receivers assisted →
      assisted ≠ [] → assisted = d.assistedPositions ∧ n.dependencies = d.requests) := by
  refine h.every ?_ (fun _ hn => hn) (fun _ hn => hn) (fun _ hn => hn) ?_
  · intro id n hnew d receivers positions hkind hsome
    cases hnew with
    | null | missing => cases hkind
    | candidate hblueprint =>
        cases hblueprint with
        | input | object | self | funAlias | set | map | provider | childComponent =>
            cases hkind
    | declaration e declared type assisted owner =>
        cases hkind
        cases assisted with
        | true => exact ⟨rfl, rfl⟩
        | false => exact absurd rfl hsome
  · intro id nodes n n' houtcome hn
    cases houtcome with
    | kept => exact hn
    | canonical => exact hn
    | delegate => exact fun _ _ _ hkind => nomatch hkind

end Graph

section Functions

variable {σ κ : Type} {P : Program σ κ} {n : Node} {d : Declaration}
  {receivers : List QName} {positions : List Nat}

/-- Whether a function calls the factory of a declaration once, after the dependencies of a
node, with its arguments and their values in the places of the parameters.  If it does not
get to that, one of the dependencies has failed. -/
def Program.Assists (P : Program σ κ) (owner : InstanceId) (n : Node) (d : Declaration)
    (f : Function κ) : Prop :=
  ∀ (fuel : Nat) (arguments : List (Value κ)) (r : Run σ κ), arguments.length = f.arity →
    match Eval.nodes (Eval.task P fuel) owner n.resolved r with
    | .ok provided r₁ =>
        ∃ values, Eval.placeArguments d.parameters arguments provided = .ok values
          ∧ d.Places n.dependencies arguments provided values
          ∧ Eval.task P (fuel + 1) (.invoke f arguments) r
            = Eval.callFactory P (Eval.task P fuel) d.name values r₁
    | .error halt r₁ => Eval.task P (fuel + 1) (.invoke f arguments) r = .error halt r₁

/-- A node with assisted parameters comes to a function. -/
theorem Program.Yields.assisted
    {owner : InstanceId}
    {v : Value κ}
    (h : P.Yields owner n v)
    (hkind : n.kind = .callable d receivers positions)
    (hsome : positions ≠ []) :
    v = Function.toValue ⟨positions.length, .assisted owner n.id⟩ := by
  obtain ⟨levels, r, r', hcompute⟩ := h
  cases positions with
  | nil => exact absurd rfl hsome
  | cons position rest =>
      simp only [Eval.compute, hkind] at hcompute
      cases hcompute
      rfl

/-- The dependencies of the node are evaluated before the arguments are put in place. -/
theorem Eval.invoke_assisted
    (recur : Task κ → Eval σ κ (Value κ))
    (hnode : P.plan.node? n.id = some n)
    (hkind : n.kind = .callable d receivers positions)
    (owner : InstanceId)
    {arguments : List (Value κ)}
    (hlength : arguments.length = positions.length)
    (r : Run σ κ) :
    Eval.invoke P recur ⟨positions.length, .assisted owner n.id⟩ arguments r
      = match Eval.nodes recur owner n.resolved r with
        | .ok provided r₁ =>
            (match Eval.placeArguments d.parameters arguments provided with
              | .ok values => Eval.callFactory P recur d.name values
              | .error parameter => Eval.missing P owner (.argument parameter)) r₁
        | .error halt r₁ => .error halt r₁ := by
  have hinvocable : Eval.invocable P owner n.id r = .ok (d, n.resolved) r := by
    simp only [Eval.invocable, hnode, hkind]
    rfl
  rw [Eval.invoke, if_pos hlength]
  simp only [Eval.apply]
  rw [Eval.bind_apply, hinvocable]
  dsimp only
  rw [Eval.bind_apply]
  cases Eval.nodes recur owner n.resolved r <;> rfl

/-- The function of a node that is complete, and whose declaration is its own, has everything
in its place. -/
theorem Program.assists_of_split
    (hnode : P.plan.node? n.id = some n)
    (hkind : n.kind = .callable d receivers positions)
    (hcomplete : n.IsComplete)
    (hpositions : positions = d.assistedPositions)
    (hrequests : n.dependencies = d.requests)
    (owner : InstanceId) :
    P.Assists owner n d ⟨positions.length, .assisted owner n.id⟩ := by
  intro fuel arguments r hlength
  have hinvoke := Eval.invoke_assisted (Eval.task P fuel) hnode hkind owner hlength r
  change Eval.task P (fuel + 1) (.invoke _ arguments) r = _ at hinvoke
  cases hnodes : Eval.nodes (Eval.task P fuel) owner n.resolved r with
  | error halt r₁ =>
      rw [hinvoke, hnodes]
  | ok provided r₁ =>
      have hprovided : provided.length = d.requests.length := by
        rw [Eval.length_of_nodes hnodes, hcomplete.dependencies, hrequests]
      obtain ⟨values, hplace, hplaces⟩ :=
        Declaration.exists_places (hpositions ▸ hlength) hprovided
      refine ⟨values, hplace, hrequests ▸ hplaces, ?_⟩
      rw [hinvoke, hnodes]
      dsimp only
      rw [hplace]

end Functions

namespace Graph

/-- Whatever a node with assisted parameters comes to, at any time of a session, is a function
that takes as many arguments and calls the factory of the declaration once, with everything
in its place. -/
theorem Batched.assists
    {B : Build}
    {g : Graph}
    (h : Batched B g)
    {σ κ : Type}
    {P : Program σ κ}
    (hplan : P.plan = g.plan)
    {events : List (Occurrence σ κ)}
    {r : Run σ κ}
    (hsession : P.Session events r)
    {id : NodeId}
    {n : Node}
    (hn : g.node? id = some n)
    {d : Declaration}
    {receivers : List QName}
    {positions : List Nat}
    (hkind : n.kind = .callable d receivers positions)
    (hsome : positions ≠ [])
    {c : Evaluation σ κ}
    {v : Value κ}
    {r' : Run σ κ}
    {i : InstanceId}
    (hfinished : .finished c (.ok v r') ∈ events)
    (htask : c.task = .node i id) :
    ∃ owner f, c.before.nearest? i n.owner = some owner
      ∧ v = Function.toValue f
      ∧ f.arity = positions.length
      ∧ P.Assists owner n d f := by
  have hnode : P.plan.node? n.id = some n := hplan ▸ h.plan_node? hn
  obtain ⟨n', owner, hn', howner, hyields⟩ := hsession.yields hfinished htask
  obtain rfl : n' = n := by
    rw [hplan] at hn'
    exact Option.some.inj (hn'.symm.trans hn)
  obtain ⟨hpositions, hrequests⟩ := h.assisted_split hn d receivers positions hkind hsome
  exact ⟨owner, _, howner, hyields.assisted hkind hsome, rfl,
    P.assists_of_split hnode hkind (h.complete hn) hpositions hrequests owner⟩

/-! ## A door -/

/-- Five classes: what a door takes, and the door. -/
def doors : Build where
  registry :=
    { Registry.initial with
      registered :=
        #[{ name := ⟨"Label"⟩ }, { name := ⟨"Hinge"⟩ }, { name := ⟨"Lock"⟩ },
          { name := ⟨"Knob"⟩ }, { name := ⟨"Door"⟩ }] }

/-- A door is made of a hinge and, if there is one, a lock.  Label and knob are up to the
caller. -/
def doorDeclaration : Declaration where
  name := ⟨"app.door"⟩
  type := .of ⟨20⟩
  parameters :=
    [ { name := "label", type := .of ⟨16⟩, assisted := true },
      { name := "hinge", type := .of ⟨17⟩ },
      { name := "lock", type := .of ⟨18⟩, hasDefault := true },
      { name := "knob", type := .of ⟨19⟩, assisted := true, hasDefault := true } ]

/-- The graph after a function that makes doors was asked for. -/
def doorGraph : Graph :=
  ((Graph.empty.withScope doors none { name := "App" }
      [{ name := ⟨"app.hinge"⟩, type := .of ⟨17⟩ }, doorDeclaration]).resolve
    doors ⟨0⟩ { type := .function [.of ⟨16⟩, .of ⟨19⟩] (.of ⟨20⟩), origin := ⟨"app"⟩ }).2

/-- The plan with factories that write down which texts they are called with. -/
def doorProgram : Program (List (List (Option String))) String where
  plan := doorGraph.plan
  factories := { factories := [(⟨"app.hinge"⟩, "hinge"), (⟨"app.door"⟩, "door")] }
  host :=
    { factory := fun name arguments calls =>
        .finish (calls ++ [arguments.map Value.text?]) (.ok (.text name))
      function := fun _ _ _ calls => .finish calls (.ok .absent) }

/-- The run after the scope was instantiated. -/
def doorStart : Run (List (List (Option String))) String :=
  stateOf (doorProgram.perform 4 (.instantiate ⟨0⟩ []) { host := [] })

/-- What is evaluated if the node is asked for in that instance. -/
def doorEvents : List (Occurrence (List (List (Option String))) String) :=
  ([] ++ (doorProgram.account 4 (.instantiate ⟨0⟩ []) { host := [] }).2)
    ++ (doorProgram.account 4 (.node ⟨0⟩ ⟨0⟩) doorStart).2

theorem doorGraph_batched : Batched doors doorGraph :=
  .resolve _ _ (Batched.empty.withScope _ _ _)

/-- What the factories are called with, if a function is invoked with a label and a knob. -/
def doorCalls (f : Function String) : List (List (Option String)) :=
  match Eval.task doorProgram 4 (.invoke f [.text "front", .text "brass"]) doorStart with
  | .ok _ r => r.host
  | .error _ _ => []

/-- The hinge is made, and then the door of label, hinge, no lock, and knob, once. -/
theorem doorProgram_assists :
    ∃ n v r' owner f, doorGraph.node? ⟨0⟩ = some n
      ∧ n.kind = .callable doorDeclaration [] [0, 3]
      ∧ .finished ⟨[], .node ⟨0⟩ ⟨0⟩, doorStart⟩ (.ok v r') ∈ doorEvents
      ∧ doorStart.nearest? ⟨0⟩ n.owner = some owner
      ∧ v = Function.toValue f
      ∧ f.arity = 2
      ∧ doorProgram.Assists owner n doorDeclaration f
      ∧ doorStart.host = []
      ∧ doorCalls f = [[], [some "front", some "hinge", none, some "brass"]] := by
  have hsession : doorProgram.Session doorEvents _ :=
    .performed 4 (.node ⟨0⟩ ⟨0⟩) (.performed 4 (.instantiate ⟨0⟩ []) (.start []))
  have hnode : (doorGraph.node? ⟨0⟩).any
      (fun n => decide (n.kind = .callable doorDeclaration [] [0, 3])) = true := by
    decide +kernel
  obtain ⟨n, hn, hkind⟩ := (Option.any_eq_true _ _).mp hnode
  have hkind := of_decide_eq_true hkind
  have hfinished := List.mem_append_right
    ([] ++ (doorProgram.account 4 (.instantiate ⟨0⟩ []) { host := [] }).2)
    (doorProgram.finished_mem_account 4 ⟨0⟩ ⟨0⟩ doorStart)
  have hcalls : (match Eval.task doorProgram 4 (.node ⟨0⟩ ⟨0⟩) doorStart with
      | .ok v _ => v.function?.map doorCalls
      | .error _ _ => none)
        = some [[], [some "front", some "hinge", none, some "brass"]] := by
    decide +kernel
  cases hrun : Eval.task doorProgram 4 (.node ⟨0⟩ ⟨0⟩) doorStart with
  | error e r' =>
      rw [hrun] at hcalls
      cases hcalls
  | ok v r' =>
      rw [hrun] at hfinished hcalls
      obtain ⟨owner, f, howner, rfl, harity, hassists⟩ := Batched.assists doorGraph_batched rfl
        hsession hn hkind (by decide) hfinished rfl
      exact ⟨n, _, r', owner, f, hn, hkind, hfinished, howner, rfl, harity, hassists,
        by decide +kernel, Option.some.inj hcalls⟩

end Graph
end Wiring
