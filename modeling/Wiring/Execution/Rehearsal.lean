import Wiring.Execution.Interpreter
import Wiring.Text.Quoted

/-!
# Rehearsals

A plan can be tried out before its factories exist.  In a rehearsal every factory is a
stand-in that behaves as it is told and records how it was called: the name of the
declaration, the number of the call and the arguments.  What a call makes is a text
that names the call.
-/

namespace Wiring

namespace Value

variable {κ : Type} (label : InstanceId → String)

mutual

/-- A value in words, scope instances being written by their labels. -/
def describe : Value κ → String
  | .text content => content
  | .absent => "absent"
  | .set elements => "[" ++ ",".intercalate (describeAll elements) ++ "]"
  | .map entries => "\x7b" ++ ",".intercalate (describeEntries entries) ++ "\x7d"
  | .scope live => label live
  | .function arity _ => "fn/" ++ toString arity

/-- Several values in words. -/
def describeAll : List (Value κ) → List String
  | [] => []
  | v :: vs => describe v :: describeAll vs

/-- The entries of a map in words. -/
def describeEntries : List (String × Value κ) → List String
  | [] => []
  | (key, v) :: rest => (key ++ "=" ++ describe v) :: describeEntries rest

end

end Value

namespace Rehearsal

/-- The host code of a rehearsal. -/
inductive Code where
  /-- The stand-in at a position. -/
  | standIn (index : Nat)
  /-- A function that records its calls. -/
  | recorder (name : String)
  /-- A function that invokes the captured one and records what that comes to. -/
  | wrapper (name : String)
  deriving DecidableEq

/-- What a stand-in does when it is called. -/
inductive Behaviour where
  /-- Make a text. -/
  | make
  /-- Fail with a message: a number of times, or always. -/
  | fail (message : String) (times : Option Nat)
  /-- Invoke the argument at a position with given values. -/
  | invoke (position : Nat) (operands : List (Value Code))
  /-- Make a function that invokes the argument at a position. -/
  | wrap (position : Nat)
  /-- Take the argument at a position as a text. -/
  | typed (position : Nat)
  /-- Take the argument at a position as a text if there is one. -/
  | optional (position : Nat)
  /-- Make a function with a number of parameters. -/
  | function (arity : Nat)
  /-- Pass on the argument at a position. -/
  | passOn (position : Nat)

/-- What stands in for the factory of a declaration. -/
structure StandIn where
  name : String
  behaviour : Behaviour
  /-- How often it has failed as it was told to. -/
  failures : Nat := 0

/-- What has been recorded, and the stand-ins. -/
structure State where
  calls : Nat := 0
  /-- The parts of each recorded line, the last line first. -/
  log : List (List (Value Code)) := []
  standIns : Array StandIn := #[]

namespace State

/-- Record a call, with some words at the end of the line, and make the text that
names it. -/
def record (st : State) (name : String) (arguments remarks : List (Value Code)) :
    Value Code × State :=
  let call := name ++ "#" ++ toString (st.calls + 1)
  let line :=
    .text (call ++ "(") :: arguments.intersperse (.text ",") ++ .text ")" :: remarks
  (.text call, { st with calls := st.calls + 1, log := line :: st.log })

/-- Count one more failure of a stand-in. -/
def countFailure (st : State) (index : Nat) : State :=
  { st with standIns :=
      st.standIns.modify index (fun s => { s with failures := s.failures + 1 }) }

end State

/-- End with what a call made. -/
def finished {ε : Type} (made : Value Code × State) : Script State Code ε :=
  .finish made.2 (.ok made.1)

/-- Go on with an argument, unless it is not there or of another kind. -/
def withArgument {α : Type} (st : State) (argument : Except FactoryError α)
    (next : α → Script State Code FactoryError) : Script State Code FactoryError :=
  match argument with
  | .ok a => next a
  | .error e => .finish st (.error e)

/-- How an optional text is remarked on. -/
def optionalRemark : Option String → String
  | some text => "Some(" ++ Text.quoted text ++ ")"
  | none => "None"

/-- What a stand-in does with the arguments of a call. -/
def StandIn.script (s : StandIn) (index : Nat) (arguments : List (Value Code))
    (st : State) : Script State Code FactoryError :=
  let remarking (remark : String) := st.record s.name arguments [.text remark]
  let making (remark : String) (v : Value Code) : Script State Code FactoryError :=
    .finish (remarking remark).2 (.ok v)
  match s.behaviour with
  | .make => finished (st.record s.name arguments [])
  | .fail message times =>
      if times.all (fun n => s.failures < n) then
        .finish ((remarking " failed").2.countFailure index) (.error (.custom message))
      else finished (st.record s.name arguments [])
  | .invoke position operands =>
      withArgument st (Arguments.function arguments position) (fun f =>
        .invoke st f operands (fun st outcome =>
          match outcome with
          | .ok v => finished (st.record s.name arguments [.text " <- ", v])
          | .error e => .finish st (.error (.raised e))))
  | .wrap position =>
      withArgument st (Arguments.function arguments position) (fun f =>
        making " wraps" (.function 0 (.hosted (.wrapper s.name) [f.toValue])))
  | .typed position =>
      withArgument st (Arguments.text arguments position) (fun text =>
        finished (remarking (" typed " ++ text)))
  | .optional position =>
      withArgument st (Arguments.optionalText arguments position) (fun text =>
        finished (remarking (" optional " ++ optionalRemark text)))
  | .function arity =>
      making " makes fn" (.function arity (.hosted (.recorder s.name) []))
  | .passOn position =>
      .finish (remarking " returns arg").2
        (match arguments[position]? with
        | some v => .ok v
        | none => .error (.custom "no such argument"))

/-- The host program of a rehearsal. -/
def host : Host State Code where
  factory code arguments st :=
    match code with
    | .standIn index =>
        match st.standIns[index]? with
        | some s => s.script index arguments st
        | none => .finish st (.error (.custom "no such stand-in"))
    | _ => .finish st (.error (.custom "no such stand-in"))
  function code captured arguments st :=
    match code, captured.head?.bind Value.function? with
    | .wrapper name, some inner =>
        .invoke st inner [] (fun st outcome =>
          match outcome with
          | .ok v => finished (st.record name [v] [])
          | .error e => .finish st (.error e))
    | .recorder name, _ => finished (st.record name arguments [])
    | _, _ => .finish st (.error (.mismatch .notFunction))

/-- A function that records its calls under a name. -/
def recorder (name : String) (arity : Nat) : Value Code :=
  .function arity (.hosted (.recorder name) [])

end Rehearsal

open Rehearsal in
/-- A plan that is being rehearsed. -/
structure Rehearsal where
  program : Program State Code := { host := host }
  run : Run State Code := { host := {} }

namespace Rehearsal

/-- A rehearsal without stand-ins. -/
def ofPlan (plan : Plan) : Rehearsal :=
  { program := { plan := plan, host := host } }

/-- Let a stand-in take the place of a declaration's factory. -/
def standIn (r : Rehearsal) (name : QName) (behaviour : Behaviour) : Rehearsal :=
  let index := r.run.host.standIns.size
  let factories := r.program.factories.register name (.standIn index)
  let standIns := r.run.host.standIns.push { name := name.text, behaviour := behaviour }
  { program := { r.program with factories := factories }
    run := { r.run with host := { r.run.host with standIns := standIns } } }

/-- Let a text take the place of an object. -/
def standInObject (r : Rehearsal) (type : Ty) (text : String) : Rehearsal :=
  { r with program := { r.program with
      factories := r.program.factories.registerObject type (.text text) } }

/-- Let a stand-in take the place of the declaration that a node invokes. -/
def standInNode (r : Rehearsal) (n : Node) : Rehearsal :=
  match n.kind with
  | .callable d _ _ => r.standIn d.name .make
  | .function d => r.standIn d.name .make
  | _ => r

/-- Let stand-ins that wrap take the places of a node's interceptors. -/
def standInInterceptors (r : Rehearsal) (n : Node) : Rehearsal :=
  n.interceptors.foldl (fun r i => r.standIn i.declaration.name (.wrap i.factoryParameter)) r

/-- Let stand-ins take the places of all declarations of the plan. -/
def standInAll (r : Rehearsal) : Rehearsal :=
  let nodes := r.program.plan.nodes.toList
  nodes.foldl standInInterceptors (nodes.foldl standInNode r)

/-- How a scope instance is labelled: by its scope and that of its parent. -/
def label (r : Rehearsal) (i : InstanceId) : String :=
  match r.run.instances[i.index]? with
  | none => "scope"
  | some s =>
      "scope#" ++ toString s.scope.index
        ++ (match s.parentScope? with
        | some parent => "^" ++ toString parent.index
        | none => "")

/-- A value in words. -/
def describe (r : Rehearsal) (v : Value Code) : String := v.describe r.label

/-- Evaluate something; the recorded lines are handed out, the earliest first. -/
def perform (r : Rehearsal) (e : Eval State Code (Value Code)) :
    Except Halt (Value Code) × List String × Rehearsal :=
  let (outcome, run) :=
    match e r.run with
    | .ok v run => (Except.ok v, run)
    | .error halt run => (Except.error halt, run)
  let after := { r with run := run }
  (outcome,
    run.host.log.reverse.map (fun line => String.join (line.map after.describe)),
    { after with run := { run with host := { run.host with log := [] } } })

end Rehearsal
end Wiring
