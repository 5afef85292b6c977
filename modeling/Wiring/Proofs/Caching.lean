import Wiring.Proofs.Caching.Slots

/-!
# Retained nodes are computed once

A host program that runs a plan asks for one thing after another: it builds instances, asks
for entry points and nodes, and invokes functions, whatever the earlier requests came to.
Each request goes through any number of instances, and host code may make further ones
before it is done.

Over all of them, a slot is filled at most once.  Until then each request for it computes
the node, and comes to nothing; from then on each finds the value that was computed.

**Results.**
* `Program.Session.goes_on`: what one more operation does to each slot.
* `Program.Session.computed_once`: what a whole session does to each slot.
-/

namespace Wiring

open Dialogue (stateOf)

/-- What a host program can ask of a running plan. -/
inductive Operation (κ : Type) where
  | instantiate (scope : ScopeId) (inputs : List (Value κ))
  | get (within : InstanceId) (type : Ty)
  | node (within : InstanceId) (id : NodeId)
  | invoke (f : Function κ) (arguments : List (Value κ))

namespace Program

variable {σ κ : Type} (P : Program σ κ)

/-! ## Operations -/

/-- Do what is asked for. -/
def perform (fuel : Nat) : Operation κ → Eval σ κ (Value κ)
  | .instantiate scope inputs => do
      let i ← P.instantiate fuel scope inputs
      pure (.scope i)
  | .get within type => P.get fuel within type
  | .node within id => Eval.task P fuel (.node within id)
  | .invoke f arguments => Eval.task P fuel (.invoke f arguments)

/-- The operation itself, evaluations being made by a parameter. -/
def operate (recur : Task κ → Eval σ κ (Value κ)) : Operation κ → Eval σ κ (Value κ)
  | .instantiate scope inputs => do
      let i ← Eval.build P recur scope none inputs
        ((P.plan.roots.filter (fun r => r.scope = scope)).map
          (fun r => (r.request.type, r.node)))
      pure (.scope i)
  | .get within type => do
      match (← Eval.live? within).bind
        (fun s => s.entryPoints.find? (fun e => e.1 = type)) with
      | some (_, id) => recur (.node within id)
      | none => Eval.missing P within (.entryPoint type)
  | .node within id => recur (.node within id)
  | .invoke f arguments => recur (.invoke f arguments)

theorem operate_task
    (fuel : Nat)
    (op : Operation κ) :
    P.operate (Eval.task P fuel) op = P.perform fuel op := by
  cases op <;> rfl

/-- An operation. -/
def operateConduct : (op : Operation κ) → Eval.Conducted (fun recur => P.operate recur op)
  | .instantiate scope inputs =>
      (Eval.buildConduct P scope none inputs _).bind (fun i => .pure (Value.scope i))
  | .get within type =>
      ((Eval.quietly (Eval.quiet_live? within)).bind (fun live =>
        (Conduct.option (fun (e : Ty × NodeId) => .call (Task.node within e.2))
          (Eval.quietly (Eval.quiet_missing P within (.entryPoint type)))
          (live.bind (fun s => s.entryPoints.find? (fun e => e.1 = type))) :))).congr
        (fun _ => bind_congr (fun live => by
          cases live.bind (fun s => s.entryPoints.find? (fun e => e.1 = type)) <;> rfl))
  | .node within id => .call (Task.node within id)
  | .invoke f arguments => .call (Task.invoke f arguments)

/-- An operation, with the evaluations that it gives rise to. -/
def account (fuel : Nat) (op : Operation κ) (r : Run σ κ) :
    Recorded (Task κ) Halt (Run σ κ) (Value κ) (Value κ) :=
  ((P.operateConduct op).talk r).record (P.tasks.trace fuel [])

/-- Writing evaluations down changes no outcome. -/
theorem account_fst
    (fuel : Nat)
    (op : Operation κ)
    (r : Run σ κ) :
    (P.account fuel op r).1 = P.perform fuel op r := by
  rw [← operate_task]
  exact P.record_talk (P.operateConduct op) fuel [] r

/-! ## Sessions -/

/-- What has been evaluated, and where the run stands, after any operations. -/
inductive Session : List (Occurrence σ κ) → Run σ κ → Prop
  | start (host : σ) : Session [] { host := host }
  | performed {events : List (Occurrence σ κ)} {r : Run σ κ} (fuel : Nat)
      (op : Operation κ) :
      Session events r →
      Session (events ++ (P.account fuel op r).2) (stateOf (P.perform fuel op r))
  /-- In between, the host program changes its own state. -/
  | continued {events : List (Occurrence σ κ)} {r : Run σ κ} (host : σ) :
      Session events r →
      Session events { r with host := host }

namespace Session

variable {P : Program σ κ} {events : List (Occurrence σ κ)} {r : Run σ κ}

/-- What one more operation does to each slot. -/
theorem goes_on
    (hr : r.IsRooted)
    (fuel : Nat)
    (op : Operation κ)
    (hfree : P.SelfFree (P.account fuel op r).2) :
    P.Accounts r (P.account fuel op r) :=
  record_accounts (P.trace_accounts fuel []) ((P.operateConduct op).keeps r trivial) hr hfree

/-- What a whole session does to each slot, from its beginning on. -/
theorem history
    (h : P.Session events r)
    (hfree : P.SelfFree events) :
    r.IsRooted ∧ ∀ k, P.SlotHistory k none events (r.value? k) := by
  induction h with
  | start host =>
      exact ⟨fun i s hs => by simp at hs, fun k => .nil none⟩
  | @performed events r fuel op _ ih =>
      obtain ⟨hfree, hfree'⟩ := SelfFree.append.mp hfree
      obtain ⟨hr, hslots⟩ := ih hfree
      have haccounts := goes_on hr fuel op hfree'
      rw [← P.account_fst]
      exact ⟨haccounts.grows.isRooted hr, fun k => (hslots k).append (haccounts.slots k)⟩
  | @continued events r host _ ih =>
      obtain ⟨hr, hslots⟩ := ih hfree
      have hmoves : r.Moves { r with host := host } := .of_instances rfl
      exact ⟨hmoves.isRooted hr, fun k => hmoves.value? k ▸ hslots k⟩

/-- As long as no computation asks for the slot that it is to fill: either a slot is empty
throughout, and each request for it computes the node without success, or this is so up to
one computation, and from there on the slot holds what was computed, and each request is
given that. -/
theorem computed_once
    (h : P.Session events r)
    (hfree : P.SelfFree events)
    (k : SlotId) :
    (r.isInitialized k = false ∧ ∀ e ∈ events, P.Awaits k e)
      ∨ ∃ before e after v,
        events = before ++ e :: after
          ∧ r.isInitialized k = true
          ∧ (∀ e ∈ before, P.Awaits k e)
          ∧ P.Fills k v e
          ∧ ∀ e ∈ after, P.Holds k v e := by
  rcases ((h.history hfree).2 k).split with
    ⟨hempty, hawaits⟩ | ⟨before, e, after, v, hevents, hheld, hrest⟩
  · exact .inl ⟨Run.isInitialized_of_none hempty, hawaits⟩
  · exact .inr ⟨before, e, after, v, hevents, Run.isInitialized_of_some hheld, hrest⟩

end Session

/-! ## A factory that fails at first -/

/-- A component that asks for two clocks, which are one. -/
def clockPlan : Plan where
  nodes :=
    #[ { Node.plain (.of ⟨17⟩) ⟨0⟩
            (.callable { name := ⟨"app.clock"⟩, type := .of ⟨17⟩ } [] []) with
          retained := true },
      { Node.plain (.of ⟨18⟩) ⟨0⟩ (.set []) with resolved := [⟨0⟩, ⟨0⟩] } ]

/-- The program of the component; its clock fails as often as the host says. -/
def clockProgram : Program Nat Unit where
  plan := clockPlan
  factories := FactoryTable.empty.register ⟨"app.clock"⟩ ()
  host :=
    { factory := fun _ _ failures =>
        match failures with
        | 0 => .finish 0 (.ok (.text "clock"))
        | failures + 1 => .finish failures (.error (.custom "not yet"))
      function := fun _ _ _ failures => .finish failures (.ok .absent) }

/-- The run after the component was built. -/
def clockStart : Run Nat Unit :=
  stateOf (clockProgram.perform 4 (.instantiate ⟨0⟩ []) { host := 1 })

/-- The run after the clocks were asked for in vain. -/
def clockFailed : Run Nat Unit := stateOf (clockProgram.perform 4 (.node ⟨0⟩ ⟨1⟩) clockStart)

/-- What is evaluated if the clocks are asked for twice. -/
def clockEvents : List (Occurrence Nat Unit) :=
  ([] ++ (clockProgram.account 4 (.instantiate ⟨0⟩ []) { host := 1 }).2
    ++ (clockProgram.account 4 (.node ⟨0⟩ ⟨1⟩) clockStart).2)
    ++ (clockProgram.account 4 (.node ⟨0⟩ ⟨1⟩) clockFailed).2

/-- The run after the clocks were asked for twice. -/
def clockDone : Run Nat Unit := stateOf (clockProgram.perform 4 (.node ⟨0⟩ ⟨1⟩) clockFailed)

theorem clock_computed_once :
    clockProgram.Session clockEvents clockDone
      ∧ clockProgram.SelfFree clockEvents
      ∧ clockDone.isInitialized (⟨0⟩, ⟨0⟩) = true
      ∧ ((clockDone.isInitialized (⟨0⟩, ⟨0⟩) = false
          ∧ ∀ e ∈ clockEvents, clockProgram.Awaits (⟨0⟩, ⟨0⟩) e)
        ∨ ∃ before e after v,
          clockEvents = before ++ e :: after
            ∧ clockDone.isInitialized (⟨0⟩, ⟨0⟩) = true
            ∧ (∀ e ∈ before, clockProgram.Awaits (⟨0⟩, ⟨0⟩) e)
            ∧ clockProgram.Fills (⟨0⟩, ⟨0⟩) v e
            ∧ ∀ e ∈ after, clockProgram.Holds (⟨0⟩, ⟨0⟩) v e) := by
  have hsession : clockProgram.Session clockEvents clockDone :=
    .performed 4 (.node ⟨0⟩ ⟨1⟩) (.performed 4 (.node ⟨0⟩ ⟨1⟩)
      (.performed 4 (.instantiate ⟨0⟩ []) (.start 1)))
  have hfree : clockProgram.SelfFree clockEvents := by decide +kernel
  exact ⟨hsession, hfree, by decide +kernel, hsession.computed_once hfree _⟩

/-- The set is started twice, and the clock three times: in vain, with success, and to be
found. -/
example : (Event.calls clockEvents).length = 5 := by decide +kernel

end Program
end Wiring
