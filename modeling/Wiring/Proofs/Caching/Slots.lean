import Wiring.Proofs.Caching.Conduct

/-!
# What happens to a slot

Evaluations are written down in the order in which they are started and finished, with the
state of the run at that time.  Seen from one slot, what is written down falls into two
parts.  First the slot is empty: whoever asks for it starts a computation, and no
computation succeeds.  Then one computation succeeds, and from there on the slot holds its
value: whoever asks for it is given that value.

This presupposes that no computation asks for the slot that it is to fill.

**Results.**
* `Program.solve_tasks`: the dialogues of evaluations solve to what the interpreter does.
* `SlotHistory.split`: the two parts.
* `Program.trace_accounts`: any evaluation, and all that it gives rise to, goes on with the
  history of each slot.
-/

namespace Wiring

open Dialogue (stateOf)

/-- An evaluation that is made while others are open. -/
abbrev Evaluation (σ κ : Type) := Call (Task κ) (Run σ κ)

/-- What is written down of an evaluation. -/
abbrev Occurrence (σ κ : Type) := Event (Task κ) Halt (Run σ κ) (Value κ)

namespace Run

variable {σ κ : Type}

/-- Whether a slot holds a value. -/
def isInitialized (r : Run σ κ) (k : SlotId) : Bool :=
  (r.instances[k.1.index]?).any (fun s => s.isInitialized k.2)

theorem isInitialized_eq (r : Run σ κ) (k : SlotId) :
    r.isInitialized k = (r.value? k).isSome := by
  unfold isInitialized value?
  cases r.instances[k.1.index]? with
  | none => rfl
  | some s => rfl

theorem isInitialized_of_none
    {r : Run σ κ}
    {k : SlotId}
    (h : r.value? k = none) :
    r.isInitialized k = false := by
  rw [isInitialized_eq, h]
  rfl

theorem isInitialized_of_some
    {r : Run σ κ}
    {k : SlotId}
    {v : Value κ}
    (h : r.value? k = some v) :
    r.isInitialized k = true := by
  rw [isInitialized_eq, h]
  rfl

end Run

namespace Program

variable {σ κ : Type} (P : Program σ κ)

/-! ## Evaluations as dialogues -/

/-- The slot that a task is about: the one of a retained node, in the instance that owns
it. -/
def slot? (r : Run σ κ) : Task κ → Option SlotId
  | .node i id => do
      let n ← P.plan.node? id
      let owner ← (r.instances[i.index]?).bind (fun s => s.lineage.lookup n.owner)
      if n.retained then some (owner, id) else none
  | .invoke _ _ => none

/-- Whether a slot is that of a retained node, in an instance of the scope that owns it. -/
structure IsSlotOf (r : Run σ κ) (k : SlotId) (n : Node) : Prop where
  node : P.plan.node? k.2 = some n
  retained : n.retained = true
  owner : r.Lives n.owner k.1

/-- A computation that came to a value publishes it. -/
def published (k : SlotId) :
    EStateM.Result Halt (Run σ κ) (Value κ) → EStateM.Result Halt (Run σ κ) (Value κ)
  | .ok v r => Eval.publish k.1 k.2 v r
  | .error halt r => .error halt r

/-- The dialogues of evaluating a retained node in the instance that owns it. -/
def slotTalk (owner : InstanceId) (n : Node) (id : NodeId) (r : Run σ κ) :
    Dialogue (Task κ) Halt (Run σ κ) (Value κ) (Value κ) :=
  match r.value? (owner, id) with
  | some v => .ends (.ok v r)
  | none =>
      ((Eval.computeConduct P owner n).talk r).settle
        (fun outcome => .ends (published (owner, id) outcome))

/-- The dialogues of evaluating a node. -/
def nodeTalk (i : InstanceId) (id : NodeId) (r : Run σ κ) :
    Dialogue (Task κ) Halt (Run σ κ) (Value κ) (Value κ) :=
  match P.plan.node? id with
  | none => .ends (Eval.missing P i (.node id) r)
  | some n =>
      match (r.instances[i.index]?).bind (fun s => s.lineage.lookup n.owner) with
      | none => .ends (Eval.missing P i (.owner n.owner id) r)
      | some owner =>
          if !n.retained then (Eval.computeConduct P owner n).talk r
          else P.slotTalk owner n id r

/-- The dialogues of a task. -/
def taskTalk : Task κ → Run σ κ → Dialogue (Task κ) Halt (Run σ κ) (Value κ) (Value κ)
  | .node i id => P.nodeTalk i id
  | .invoke f arguments => (Eval.invokeConduct P f arguments).talk

/-- The recursion of evaluations. -/
def tasks : Recursion (Task κ) Halt (Run σ κ) (Value κ) where
  cutOff _ := throw .outOfFuel
  talk := P.taskTalk

theorem slotTalk_of_some
    {r : Run σ κ}
    {k : SlotId}
    {v : Value κ}
    (h : r.value? k = some v)
    (n : Node) :
    P.slotTalk k.1 n k.2 r = .ends (.ok v r) := by
  simp [slotTalk, h]

theorem slotTalk_of_none
    {r : Run σ κ}
    {k : SlotId}
    (h : r.value? k = none)
    (n : Node) :
    P.slotTalk k.1 n k.2 r
      = ((Eval.computeConduct P k.1 n).talk r).settle
        (fun outcome => .ends (published k outcome)) := by
  simp [slotTalk, h]

theorem run_slotTalk
    (recur : Task κ → Eval σ κ (Value κ))
    (owner : InstanceId)
    (n : Node)
    (id : NodeId)
    (r : Run σ κ) :
    (P.slotTalk owner n id r).run recur
      = (match r.value? (owner, id) with
        | some v => pure v
        | none => Eval.compute P recur owner n >>= Eval.publish owner id : Eval σ κ _) r := by
  unfold slotTalk
  cases r.value? (owner, id) with
  | some v => rfl
  | none =>
      change (Dialogue.settle _ _).run recur = EStateM.bind (Eval.compute P recur owner n) _ r
      rw [Dialogue.run_settle, (Eval.computeConduct P owner n).run_talk]
      unfold EStateM.bind
      cases Eval.compute P recur owner n r <;> rfl

theorem run_nodeTalk
    (recur : Task κ → Eval σ κ (Value κ))
    (i : InstanceId)
    (id : NodeId)
    (r : Run σ κ) :
    (P.nodeTalk i id r).run recur = Eval.node P recur i id r := by
  unfold nodeTalk Eval.node
  cases P.plan.node? id with
  | none => rfl
  | some n =>
      change Dialogue.run recur
          (match (r.instances[i.index]?).bind (fun s => s.lineage.lookup n.owner) with
            | none => .ends (Eval.missing P i (.owner n.owner id) r)
            | some owner => _)
        = (match (r.instances[i.index]?).bind (fun s => s.lineage.lookup n.owner) with
            | none => Eval.missing P i (.owner n.owner id)
            | some owner => _) r
      cases (r.instances[i.index]?).bind (fun s => s.lineage.lookup n.owner) with
      | none => rfl
      | some owner =>
          cases hretained : n.retained with
          | false => exact (Eval.computeConduct P owner n).run_talk recur r
          | true => exact P.run_slotTalk recur owner n id r

/-- The dialogues of evaluations solve to what the interpreter does. -/
theorem solve_tasks (fuel : Nat) : P.tasks.solve fuel = Eval.task P fuel := by
  induction fuel with
  | zero =>
      funext t
      cases t <;> rfl
  | succ fuel ih =>
      funext t r
      change (P.taskTalk t r).run (P.tasks.solve fuel) = _
      rw [ih]
      cases t with
      | node i id => exact P.run_nodeTalk _ i id r
      | invoke f arguments => exact (Eval.invokeConduct P f arguments).run_talk _ r

/-- What is written down of a step comes to what the step comes to. -/
theorem record_talk
    {α : Type}
    {step : (Task κ → Eval σ κ (Value κ)) → Eval σ κ α}
    (C : Eval.Conducted step)
    (levels : Nat)
    (enclosing : List (Task κ × Run σ κ))
    (r : Run σ κ) :
    ((C.talk r).record (P.tasks.trace levels enclosing)).1
      = step (Eval.task P levels) r := by
  rw [Dialogue.record_fst, ← P.solve_tasks, ← Conduct.run_talk C]
  simp only [Recursion.trace_fst]

/-- What an evaluation is: without a slot, it fills none; with a slot, it is that of a
retained node. -/
theorem taskTalk_cases
    {r : Run σ κ}
    (hr : r.IsRooted)
    (t : Task κ) :
    (P.slot? r t = none ∧ Keeps (Run.manner σ κ) r (P.taskTalk t r))
      ∨ ∃ k n, P.slot? r t = some k
        ∧ P.IsSlotOf r k n
        ∧ P.taskTalk t r = P.slotTalk k.1 n k.2 r := by
  cases t with
  | invoke f arguments =>
      exact .inl ⟨rfl, (Eval.invokeConduct P f arguments).keeps r trivial⟩
  | node i id =>
      have hmissing (what : Unavailable) :
          Keeps (Run.manner σ κ) r (.ends (Eval.missing (α := Value κ) P i what r)) :=
        (Eval.quietly (Eval.quiet_missing P i what)).keeps r trivial
      cases hn : P.plan.node? id with
      | none =>
          have htalk : P.taskTalk (.node i id) r = .ends (Eval.missing P i (.node id) r) := by
            simp [taskTalk, nodeTalk, hn]
          exact .inl ⟨by simp [slot?, hn], htalk ▸ hmissing _⟩
      | some n =>
          cases howner : (r.instances[i.index]?).bind (fun s => s.lineage.lookup n.owner) with
          | none =>
              have htalk : P.taskTalk (.node i id) r
                  = .ends (Eval.missing P i (.owner n.owner id) r) := by
                simp [taskTalk, nodeTalk, hn, howner]
              exact .inl ⟨by simp [slot?, hn, howner], htalk ▸ hmissing _⟩
          | some owner =>
              cases hretained : n.retained with
              | false =>
                  have htalk : P.taskTalk (.node i id) r
                      = (Eval.computeConduct P owner n).talk r := by
                    simp [taskTalk, nodeTalk, hn, howner, hretained]
                  exact .inl ⟨by simp [slot?, hn, howner, hretained],
                    htalk ▸ (Eval.computeConduct P owner n).keeps r trivial⟩
              | true =>
                  obtain ⟨s, hs, hlookup⟩ := Option.bind_eq_some_iff.mp howner
                  obtain ⟨before, after, hlineage, -⟩ := List.lookup_eq_some_iff.mp hlookup
                  have howned : (n.owner, owner) ∈ s.lineage := by simp [hlineage]
                  exact .inr ⟨(owner, id), n, by simp [slot?, hn, howner, hretained],
                    ⟨hn, hretained, hr _ s hs _ howned⟩,
                    by simp [taskTalk, nodeTalk, hn, howner, hretained]⟩

/-- The evaluation of a retained node, at any depth. -/
theorem task_of_slot
    {r : Run σ κ}
    {t : Task κ}
    {k : SlotId}
    (hr : r.IsRooted)
    (hslot : P.slot? r t = some k) :
    ∃ n, P.IsSlotOf r k n
      ∧ ∀ fuel, Eval.task P (fuel + 1) t r
        = (match r.value? k with
          | some v => pure v
          | none => Eval.compute P (Eval.task P fuel) k.1 n >>= Eval.publish k.1 k.2) r := by
  rcases P.taskTalk_cases hr t with ⟨hnone, -⟩ | ⟨k', n, hslot', hn, htalk⟩
  · cases hnone.symm.trans hslot
  · cases hslot'.symm.trans hslot
    refine ⟨n, hn, fun fuel => ?_⟩
    rw [← P.solve_tasks (fuel + 1)]
    change (P.taskTalk t r).run (P.tasks.solve fuel) = _
    rw [htalk, P.solve_tasks, run_slotTalk]

/-! ## The two parts -/

/-- Whether an evaluation, at any depth, computes what belongs in a slot and publishes
it there. -/
def Computes (k : SlotId) (c : Evaluation σ κ) : Prop :=
  ∃ n, P.IsSlotOf c.before k n
    ∧ ∀ fuel, Eval.task P (fuel + 1) c.task c.before
      = (Eval.compute P (Eval.task P fuel) k.1 n >>= Eval.publish k.1 k.2) c.before

/-- What is written down while a slot is empty. -/
structure Awaits (k : SlotId) (e : Occurrence σ κ) : Prop where
  empty : e.state.isInitialized k = false
  /-- Whoever asks for the slot starts a computation. -/
  computes (c : Evaluation σ κ) :
    e = .started c → P.slot? c.before c.task = some k → P.Computes k c
  /-- None succeeds. -/
  fails (c : Evaluation σ κ) (v : Value κ) (r : Run σ κ) :
    e = .finished c (.ok v r) → P.slot? c.before c.task ≠ some k

/-- A computation succeeds with a value, which is in the slot from then on. -/
structure Fills (k : SlotId) (v : Value κ) (e : Occurrence σ κ) : Prop where
  filled : e.state.isInitialized k = true
  /-- The computation has found the slot empty. -/
  computed : ∃ c n fuel r r',
    e = .finished c (.ok v r')
      ∧ P.slot? c.before c.task = some k
      ∧ c.before.isInitialized k = false
      ∧ P.IsSlotOf c.before k n
      ∧ Eval.compute P (Eval.task P fuel) k.1 n c.before = .ok v r

/-- What is written down while a slot holds a value. -/
structure Holds (k : SlotId) (v : Value κ) (e : Occurrence σ κ) : Prop where
  filled : e.state.isInitialized k = true
  /-- Whoever asks for the slot finds the value. -/
  finds (c : Evaluation σ κ) (fuel : Nat) :
    e = .started c →
    P.slot? c.before c.task = some k →
    Eval.task P (fuel + 1) c.task c.before = .ok v c.before
  /-- Whoever has asked for it is given the value that was found. -/
  returns (c : Evaluation σ κ) (v' : Value κ) (r : Run σ κ) :
    e = .finished c (.ok v' r) →
    P.slot? c.before c.task = some k →
    c.before.isInitialized k = true ∧ v' = v ∧ r = c.before

/-- What is written down about a slot, from what it holds at the beginning to what it
holds at the end. -/
inductive SlotHistory (k : SlotId) :
    Option (Value κ) → List (Occurrence σ κ) → Option (Value κ) → Prop
  | nil (held : Option (Value κ)) : SlotHistory k held [] held
  | awaits {e : Occurrence σ κ} {events : List (Occurrence σ κ)} {held : Option (Value κ)} :
      P.Awaits k e →
      SlotHistory k none events held →
      SlotHistory k none (e :: events) held
  | fills {e : Occurrence σ κ} {events : List (Occurrence σ κ)} {held : Option (Value κ)}
      {v : Value κ} :
      P.Fills k v e →
      SlotHistory k (some v) events held →
      SlotHistory k none (e :: events) held
  | holds {e : Occurrence σ κ} {events : List (Occurrence σ κ)} {held : Option (Value κ)}
      {v : Value κ} :
      P.Holds k v e →
      SlotHistory k (some v) events held →
      SlotHistory k (some v) (e :: events) held

namespace SlotHistory

variable {P : Program σ κ} {k : SlotId} {events events' : List (Occurrence σ κ)}
  {held held' held'' : Option (Value κ)} {v : Value κ}

theorem append
    (h : SlotHistory P k held events held')
    (h' : SlotHistory P k held' events' held'') :
    SlotHistory P k held (events ++ events') held'' := by
  induction h with
  | nil _ => exact h'
  | awaits he _ ih => exact .awaits he (ih h')
  | fills he _ ih => exact .fills he (ih h')
  | holds he _ ih => exact .holds he (ih h')

/-- Once a slot holds a value, it holds that value. -/
theorem of_some
    (h : SlotHistory P k (some v) events held) :
    held = some v ∧ ∀ e ∈ events, P.Holds k v e := by
  generalize hstart : some v = start at h
  induction h with
  | nil _ => exact ⟨rfl, fun _ he => nomatch he⟩
  | awaits _ _ _ => cases hstart
  | fills _ _ _ => cases hstart
  | holds he _ ih =>
      cases hstart
      obtain ⟨hheld, hevents⟩ := ih rfl
      exact ⟨hheld, List.forall_mem_cons.mpr ⟨he, hevents⟩⟩

/-- Either a slot is never filled, or one computation fills it for good. -/
theorem split
    (h : SlotHistory P k none events held) :
    (held = none ∧ ∀ e ∈ events, P.Awaits k e)
      ∨ ∃ before e after v,
        events = before ++ e :: after
          ∧ held = some v
          ∧ (∀ e ∈ before, P.Awaits k e)
          ∧ P.Fills k v e
          ∧ ∀ e ∈ after, P.Holds k v e := by
  generalize hstart : (none : Option (Value κ)) = start at h
  induction h with
  | nil _ => exact .inl ⟨rfl, fun _ he => nomatch he⟩
  | holds _ _ _ => cases hstart
  | fills he h _ =>
      obtain ⟨hheld, hafter⟩ := h.of_some
      exact .inr ⟨[], _, _, _, rfl, hheld, List.forall_mem_nil _, he, hafter⟩
  | awaits he _ ih =>
      rcases ih rfl with
        ⟨hheld, hevents⟩ | ⟨before, e', after, v, rfl, hheld, hbefore, hrest⟩
      · exact .inl ⟨hheld, List.forall_mem_cons.mpr ⟨he, hevents⟩⟩
      · exact .inr ⟨_ :: before, e', after, v, rfl, hheld,
          List.forall_mem_cons.mpr ⟨he, hbefore⟩, hrest⟩

/-- If no computation of a slot succeeds, the slot stays empty. -/
theorem of_none
    (h : SlotHistory P k none events held)
    (hnone : ∀ c outcome, .finished c outcome ∈ events → P.slot? c.before c.task ≠ some k) :
    held = none := by
  rcases h.split with ⟨hheld, -⟩ | ⟨before, e, after, v, rfl, -, -, hfills, -⟩
  · exact hheld
  · obtain ⟨c, n, fuel, r, r', rfl, hslot, -⟩ := hfills.computed
    exact absurd hslot (hnone c (.ok v r') (by simp))

/-- An evaluation is started, and finds the slot as it is. -/
theorem started
    (c : Evaluation σ κ)
    (hr : c.before.IsRooted) :
    SlotHistory P k (c.before.value? k) [.started c] (c.before.value? k) := by
  cases hvalue : c.before.value? k with
  | none =>
      refine .awaits ⟨Run.isInitialized_of_none hvalue, fun c' hc hslot => ?_,
        fun _ _ _ h => ?_⟩ (.nil _)
      · cases hc
        obtain ⟨n, hn, htask⟩ := P.task_of_slot hr hslot
        simp only [hvalue] at htask
        exact ⟨n, hn, htask⟩
      · cases h
  | some v =>
      refine .holds ⟨Run.isInitialized_of_some hvalue, fun c' fuel hc hslot => ?_,
        fun _ _ _ h => ?_⟩ (.nil _)
      · cases hc
        obtain ⟨n, hn, htask⟩ := P.task_of_slot hr hslot
        simp only [hvalue] at htask
        exact htask fuel
      · cases h

/-- An evaluation is finished without having had to do with the slot, or without a
value. -/
theorem finished
    (c : Evaluation σ κ)
    (outcome : EStateM.Result Halt (Run σ κ) (Value κ))
    (hslot : ∀ v r, outcome = .ok v r → P.slot? c.before c.task ≠ some k) :
    SlotHistory P k ((stateOf outcome).value? k) [.finished c outcome]
      ((stateOf outcome).value? k) := by
  cases hvalue : (stateOf outcome).value? k with
  | none =>
      refine .awaits ⟨Run.isInitialized_of_none hvalue, fun _ hc _ => ?_,
        fun c' v r hc => ?_⟩ (.nil _)
      · cases hc
      · cases hc
        exact hslot v r rfl
  | some v =>
      refine .holds ⟨Run.isInitialized_of_some hvalue, fun _ _ hc _ => ?_,
        fun c' v' r hc hslot' => ?_⟩ (.nil _)
      · cases hc
      · cases hc
        exact absurd hslot' (hslot v' r rfl)

/-- An evaluation is finished that was about another slot. -/
theorem finished_of_ne
    (c : Evaluation σ κ)
    (outcome : EStateM.Result Halt (Run σ κ) (Value κ))
    {k' : SlotId}
    (hslot : P.slot? c.before c.task = some k)
    (hne : k' ≠ k) :
    SlotHistory P k' ((stateOf outcome).value? k') [.finished c outcome]
      ((stateOf outcome).value? k') := by
  refine finished c outcome (fun _ _ _ => ?_)
  rw [hslot]
  exact fun h => hne (Option.some.inj h).symm

/-- An evaluation is finished that has found a value in the slot. -/
theorem found
    {c : Evaluation σ κ}
    (hvalue : c.before.value? k = some v) :
    SlotHistory P k (c.before.value? k) [.finished c (.ok v c.before)] (c.before.value? k) := by
  have hfilled := Run.isInitialized_of_some hvalue
  rw [hvalue]
  refine .holds ⟨hfilled, fun _ _ hc _ => ?_, fun c' v' r hc _ => ?_⟩ (.nil _)
  · cases hc
  · cases hc
    exact ⟨hfilled, rfl, rfl⟩

/-- Something happens within an evaluation. -/
theorem around
    (c : Evaluation σ κ)
    {outcome : EStateM.Result Halt (Run σ κ) (Value κ)}
    (hr : c.before.IsRooted)
    (h : SlotHistory P k (c.before.value? k) events held)
    (hlast : SlotHistory P k held [.finished c outcome] held') :
    SlotHistory P k (c.before.value? k) (.started c :: events ++ [.finished c outcome]) held' :=
  (started c hr).append (h.append hlast)

end SlotHistory

/-! ## What evaluations do to slots -/

/-- No computation asks for the slot that it is to fill. -/
def SelfFree (events : List (Occurrence σ κ)) : Prop :=
  ∀ c ∈ Event.calls events, ∀ k ∈ P.slot? c.before c.task,
    ∀ p ∈ c.enclosing, P.slot? p.2 p.1 ≠ some k

instance (events : List (Occurrence σ κ)) : Decidable (P.SelfFree events) :=
  inferInstanceAs (Decidable (∀ c ∈ Event.calls events, ∀ k ∈ P.slot? c.before c.task,
    ∀ p ∈ c.enclosing, P.slot? p.2 p.1 ≠ some k))

/-- Something goes on from a state, and with the history of each slot. -/
structure Accounts {α : Type} (r : Run σ κ)
    (p : Recorded (Task κ) Halt (Run σ κ) (Value κ) α) : Prop where
  grows : r.Extends (stateOf p.1)
  slots (k : SlotId) : P.SlotHistory k (r.value? k) p.2 ((stateOf p.1).value? k)

section Accounts

variable {P : Program σ κ} {r : Run σ κ}

theorem SelfFree.append
    {events events' : List (Occurrence σ κ)} :
    P.SelfFree (events ++ events') ↔ P.SelfFree events ∧ P.SelfFree events' := by
  unfold SelfFree
  rw [Event.calls_append, List.forall_mem_append]

/-- A dialogue that fills no slots itself accounts for what its calls account for. -/
theorem record_accounts
    {α : Type}
    {solve : Task κ → Run σ κ → Recorded (Task κ) Halt (Run σ κ) (Value κ) (Value κ)}
    {d : Dialogue (Task κ) Halt (Run σ κ) (Value κ) α}
    (hsolve : ∀ t r, r.IsRooted → P.SelfFree (solve t r).2 → P.Accounts r (solve t r))
    (h : Keeps (Run.manner σ κ) r d)
    (hr : r.IsRooted)
    (hfree : P.SelfFree (d.record solve).2) :
    P.Accounts r (d.record solve) := by
  induction h with
  | @ok r r' a hmoves => exact ⟨hmoves.toExtends, fun k => hmoves.value? k ▸ .nil _⟩
  | @error r r' e _ hmoves => exact ⟨hmoves.toExtends, fun k => hmoves.value? k ▸ .nil _⟩
  | @asks r r' t next hmoves _ _ _ ihok iherror =>
      change P.SelfFree ((solve t r').2 ++ ((next (solve t r').1).record solve).2) at hfree
      obtain ⟨hfree, hfree'⟩ := SelfFree.append.mp hfree
      have hsolved := hsolve t r' (hmoves.isRooted hr) hfree
      have hrooted := hsolved.grows.isRooted (hmoves.isRooted hr)
      have hrest : P.Accounts (stateOf (solve t r').1)
          ((next (solve t r').1).record solve) := by
        have hgrows := hsolved.grows
        revert hfree' hgrows hrooted
        cases (solve t r').1 with
        | ok b r'' => exact fun hfree' hrooted hgrows => ihok b r'' hgrows hrooted hfree'
        | error e r'' =>
            exact fun hfree' hrooted hgrows => iherror e r'' hgrows id hrooted hfree'
      exact ⟨(hmoves.toExtends.trans hsolved.grows).trans hrest.grows, fun k =>
        hmoves.value? k ▸ (hsolved.slots k).append (hrest.slots k)⟩

theorem published_ok
    {k : SlotId}
    {v : Value κ}
    (h : (r.publish k v).value? k = some v) :
    published k (.ok v r) = .ok v (r.publish k v) :=
  (Eval.publish_eq k v r).trans (by rw [h]; rfl)

/-- Whether a computation came to a value or not, another slot stays as it was. -/
theorem value?_published_of_ne
    {k k' : SlotId}
    (hne : k' ≠ k)
    (outcome : EStateM.Result Halt (Run σ κ) (Value κ)) :
    (stateOf (published k outcome)).value? k' = (stateOf outcome).value? k' := by
  cases outcome with
  | ok v r => exact Run.value?_publish_of_ne hne
  | error halt r => rfl

theorem grows_published
    {k : SlotId}
    {outcome : EStateM.Result Halt (Run σ κ) (Value κ)}
    (h : r.Extends (stateOf outcome)) :
    r.Extends (stateOf (published k outcome)) := by
  cases outcome with
  | ok v r' => exact h.trans (r'.extends_publish k v)
  | error halt r' => exact h

/-- A computation that has found its slot empty, and still does at the end, fills it if it
comes to a value. -/
theorem SlotHistory.computed
    {k : SlotId}
    {n : Node}
    {c : Evaluation σ κ}
    {levels : Nat}
    {outcome : EStateM.Result Halt (Run σ κ) (Value κ)}
    (hslot : P.slot? c.before c.task = some k)
    (hn : P.IsSlotOf c.before k n)
    (hempty : c.before.value? k = none)
    (hcompute : Eval.compute P (Eval.task P levels) k.1 n c.before = outcome)
    (hgrows : c.before.Extends (stateOf outcome))
    (hstill : (stateOf outcome).value? k = none) :
    P.SlotHistory k none [.finished c (published k outcome)]
      ((stateOf (published k outcome)).value? k) := by
  cases outcome with
  | error halt r' =>
      have hfinished := SlotHistory.finished (P := P) (k := k) c (.error halt r') (by simp)
      rw [hstill] at hfinished
      change P.SlotHistory k none _ ((stateOf (.error halt r')).value? k)
      rw [hstill]
      exact hfinished
  | ok v r' =>
      have hvalue : (r'.publish k v).value? k = some v :=
        Run.value?_publish_self (hgrows.lives hn.owner).index_lt hstill
      rw [published_ok hvalue]
      change P.SlotHistory k none _ ((r'.publish k v).value? k)
      rw [hvalue]
      exact .fills ⟨Run.isInitialized_of_some hvalue,
        c, n, levels, r', _, rfl, hslot, Run.isInitialized_of_none hempty, hn, hcompute⟩ (.nil _)

/-- What an evaluation gives rise to does not ask for its slot. -/
theorem slot?_ne_of_finished
    {α : Type}
    {levels : Nat}
    {enclosing : List (Task κ × Run σ κ)}
    {t : Task κ}
    {k : SlotId}
    {d : Dialogue (Task κ) Halt (Run σ κ) (Value κ) α}
    {c : Evaluation σ κ}
    {outcome : EStateM.Result Halt (Run σ κ) (Value κ)}
    (hslot : P.slot? r t = some k)
    (hfree : P.SelfFree (d.record (P.tasks.trace levels (enclosing ++ [(t, r)]))).2)
    (hc : .finished c outcome ∈ (d.record (P.tasks.trace levels (enclosing ++ [(t, r)]))).2) :
    P.slot? c.before c.task ≠ some k := by
  intro hslot'
  obtain ⟨hcall, hwithin⟩ := P.tasks.started_of_finished hc
  exact hfree c hcall k hslot' (t, r) (hwithin.subset (by simp)) hslot

/-- An evaluation that finds a value changes nothing. -/
theorem found_accounts
    {c : Evaluation σ κ}
    {k : SlotId}
    {v : Value κ}
    (hr : c.before.IsRooted)
    (hslot : P.slot? c.before c.task = some k)
    (hvalue : c.before.value? k = some v) :
    P.Accounts c.before
      (.ok v c.before, .started c :: [] ++ [.finished c (.ok v c.before)]) := by
  refine ⟨.refl c.before, fun k' => .around c hr (.nil _) ?_⟩
  by_cases hk : k' = k
  · cases hk
    exact .found hvalue
  · exact .finished_of_ne c (.ok v c.before) hslot hk

/-- An evaluation that computes a node fills its slot, and no other one but those that it
gives rise to. -/
theorem computed_accounts
    {levels : Nat}
    {c : Evaluation σ κ}
    {k : SlotId}
    {n : Node}
    (hr : c.before.IsRooted)
    (hslot : P.slot? c.before c.task = some k)
    (hn : P.IsSlotOf c.before k n)
    (hempty : c.before.value? k = none)
    {computed : Recorded (Task κ) Halt (Run σ κ) (Value κ) (Value κ)}
    (hcompute : Eval.compute P (Eval.task P levels) k.1 n c.before = computed.1)
    (haccounts : P.Accounts c.before computed)
    (hothers : ∀ c' outcome, .finished c' outcome ∈ computed.2 →
      P.slot? c'.before c'.task ≠ some k) :
    P.Accounts c.before
      (published k computed.1,
        .started c :: computed.2 ++ [.finished c (published k computed.1)]) := by
  refine ⟨grows_published haccounts.grows, fun k' => .around c hr (haccounts.slots k') ?_⟩
  by_cases hk : k' = k
  · cases hk
    have hslots := haccounts.slots k
    rw [hempty] at hslots
    have hstill := hslots.of_none hothers
    rw [hstill]
    exact .computed hslot hn hempty hcompute haccounts.grows hstill
  · rw [← value?_published_of_ne hk computed.1]
    exact .finished_of_ne c _ hslot hk

/-- The evaluation of a retained node accounts for the slots if the evaluations that it
gives rise to do. -/
theorem slotTalk_accounts
    {levels : Nat}
    {c : Evaluation σ κ}
    {k : SlotId}
    {n : Node}
    (hsolve : ∀ t r, r.IsRooted → P.SelfFree (P.tasks.trace levels c.path t r).2 →
      P.Accounts r (P.tasks.trace levels c.path t r))
    (hr : c.before.IsRooted)
    (hslot : P.slot? c.before c.task = some k)
    (hn : P.IsSlotOf c.before k n)
    {inside : Recorded (Task κ) Halt (Run σ κ) (Value κ) (Value κ)}
    (hinside : inside
      = (P.slotTalk k.1 n k.2 c.before).record (P.tasks.trace levels c.path))
    (hfree : P.SelfFree inside.2) :
    P.Accounts c.before
      (inside.1, .started c :: inside.2 ++ [.finished c inside.1]) := by
  cases hvalue : c.before.value? k with
  | some v =>
      rw [P.slotTalk_of_some hvalue] at hinside
      obtain rfl : inside = (.ok v c.before, []) := hinside
      exact found_accounts hr hslot hvalue
  | none =>
      let computed := ((Eval.computeConduct P k.1 n).talk c.before).record
        (P.tasks.trace levels c.path)
      rw [P.slotTalk_of_none hvalue, Dialogue.record_settle_ends] at hinside
      obtain rfl : inside = (published k computed.1, computed.2) := hinside
      have haccounts : P.Accounts c.before computed := record_accounts hsolve
        ((Eval.computeConduct P k.1 n).keeps c.before trivial) hr hfree
      have hcompute : Eval.compute P (Eval.task P levels) k.1 n c.before = computed.1 :=
        (P.record_talk (Eval.computeConduct P k.1 n) levels c.path c.before).symm
      exact computed_accounts hr hslot hn hvalue hcompute haccounts
        (fun c' outcome => slot?_ne_of_finished hslot hfree)

/-- Any evaluation, and all that it gives rise to, goes on with the history of each
slot. -/
theorem trace_accounts
    (levels : Nat)
    (enclosing : List (Task κ × Run σ κ))
    (t : Task κ)
    (r : Run σ κ)
    (hr : r.IsRooted)
    (hfree : P.SelfFree (P.tasks.trace levels enclosing t r).2) :
    P.Accounts r (P.tasks.trace levels enclosing t r) := by
  induction levels generalizing enclosing t r with
  | zero =>
      exact ⟨.refl r, fun k => .around ⟨enclosing, t, r⟩ hr (.nil _)
        (.finished ⟨enclosing, t, r⟩ (.error .outOfFuel r) (by simp))⟩
  | succ levels ih =>
      let c : Evaluation σ κ := ⟨enclosing, t, r⟩
      let inside := (P.taskTalk t r).record (P.tasks.trace levels c.path)
      change P.SelfFree (.started c :: inside.2 ++ [.finished c inside.1]) at hfree
      change P.Accounts r (inside.1, .started c :: inside.2 ++ [.finished c inside.1])
      have hinside : P.SelfFree inside.2 := fun c' hc' => hfree c' (by
        rw [Event.calls_around]
        exact List.mem_cons_of_mem _ hc')
      rcases P.taskTalk_cases hr t with ⟨hnone, hkeeps⟩ | ⟨k, n, hslot, hn, htalk⟩
      · -- No slot is filled but those of the evaluations within.
        have haccounts := record_accounts (ih _) hkeeps hr hinside
        exact ⟨haccounts.grows, fun k => .around c hr (haccounts.slots k)
          (.finished c _ (fun _ _ _ => by rw [hnone]; simp))⟩
      · exact slotTalk_accounts (c := c) (ih _) hr hslot hn (by rw [← htalk]) hinside

end Accounts

end Program
end Wiring
