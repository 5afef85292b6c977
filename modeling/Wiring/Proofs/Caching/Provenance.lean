import Wiring.Proofs.Caching

/-!
# What nodes come to

The value of a retained node may have been computed long ago, in a state that is gone, and
so may the values that others were computed from.  Still there is no value of a node that
was not computed for that node, in an instance of its owner.  Nothing else is put in a slot:
host code cannot, and a slot that was filled in the meantime holds such a value as well.

So what is true of whatever the computation of a node comes to is true of all values that
the node ever has, also in sessions in which computations ask for the slots that they are to
fill.

**Results.**
* `Program.trace_founded`: evaluations fill slots with values that were computed.
* `Program.Session.yields`: the value of a node, evaluated at any time of a session, was
  computed for it.
-/

namespace Wiring

open Dialogue (stateOf)

/-- The instance of a scope that is found from an instance: itself or one of its parents. -/
def Run.nearest? {σ κ : Type} (r : Run σ κ) (i : InstanceId) (scope : ScopeId) :
    Option InstanceId :=
  (r.instances[i.index]?).bind (fun s => s.lineage.lookup scope)

/-- A slot that is filled keeps its value. -/
theorem Run.value?_publish_of_some
    {σ κ : Type}
    {r : Run σ κ}
    {k : SlotId}
    {old : Value κ}
    (h : r.value? k = some old)
    (v : Value κ) :
    (r.publish k v).value? k = some old := by
  obtain ⟨s, hs, hslot⟩ := Option.bind_eq_some_iff.mp h
  have hkept : (s.slot k.2).publish v = s.slot k.2 :=
    Slot.publish_eq_self (by simp [Slot.isInitialized, hslot])
  unfold Run.value? Run.publish
  rw [Array.getElem?_modify, if_pos rfl, hs]
  change ((s.publish k.2 v).slot k.2).value? = some old
  rw [ScopeInstance.slot_publish_self, hkept]
  exact hslot

/-- A slot that a value is published in holds that value or the one from before. -/
theorem Run.value?_publish_cases
    {σ κ : Type}
    {r : Run σ κ}
    {k : SlotId}
    {v w : Value κ}
    (h : (r.publish k v).value? k = some w) :
    w = v ∨ r.value? k = some w := by
  cases hvalue : r.value? k with
  | some old =>
      rw [Run.value?_publish_of_some hvalue] at h
      exact .inr h
  | none =>
      by_cases hlive : k.1.index < r.instances.size
      · rw [Run.value?_publish_self hlive hvalue] at h
        exact .inl (Option.some.inj h).symm
      · have hgone : (r.publish k v).instances[k.1.index]? = none := by
          simpa [Run.publish] using hlive
        simp [Run.value?, hgone] at h

/-- A call is written down with what it comes to. -/
theorem Recursion.finished_mem_trace
    {ι ε σ β : Type}
    (R : Recursion ι ε σ β)
    (levels : Nat)
    (enclosing : List (ι × σ))
    (task : ι)
    (s : σ) :
    .finished ⟨enclosing, task, s⟩ (R.solve levels task s)
      ∈ (R.trace levels enclosing task s).2 := by
  rw [← R.trace_fst levels enclosing]
  cases levels with
  | zero => exact List.mem_cons_of_mem _ (List.mem_singleton_self _)
  | succ levels => exact List.mem_append_right _ (List.mem_singleton_self _)

namespace Program

variable {σ κ : Type} (P : Program σ κ)

/-- Whether the computation of a node in an instance comes to a value, at some depth and in
some state. -/
def Yields (owner : InstanceId) (n : Node) (v : Value κ) : Prop :=
  ∃ levels r r', Eval.compute P (Eval.task P levels) owner n r = .ok v r'

/-- Whether each slot that holds a value holds one that was computed for it. -/
def Founded (r : Run σ κ) : Prop :=
  ∀ (k : SlotId) (v : Value κ), r.value? k = some v →
    ∃ n, P.plan.node? k.2 = some n ∧ P.Yields k.1 n v

/-- Whether the value of a node that is evaluated from an instance was computed for the
node, in the instance of its owner. -/
def YieldsFrom (r : Run σ κ) (i : InstanceId) (id : NodeId) (v : Value κ) : Prop :=
  ∃ n owner, P.plan.node? id = some n ∧ r.nearest? i n.owner = some owner
    ∧ P.Yields owner n v

/-- Whether this is so if what is written down is that the evaluation of a node came to a
value. -/
def Explains : Occurrence σ κ → Prop
  | .finished ⟨_, .node i id, before⟩ (.ok v _) => P.YieldsFrom before i id v
  | _ => True

/-- Something after which slots hold values that were computed for them, and all values that
are written down of nodes were computed for these. -/
structure Justifies {α : Type} (r : Run σ κ)
    (p : Recorded (Task κ) Halt (Run σ κ) (Value κ) α) : Prop where
  grows : r.Extends (stateOf p.1)
  founded : P.Founded (stateOf p.1)
  explained : ∀ e ∈ p.2, P.Explains e

section Justifies

variable {P : Program σ κ} {r r' : Run σ κ}

theorem Founded.moves
    (h : P.Founded r)
    (hmoves : r.Moves r') :
    P.Founded r' := by
  intro k v hvalue
  rw [hmoves.value? k] at hvalue
  exact h k v hvalue

theorem Founded.publish
    (h : P.Founded r)
    {k : SlotId}
    {n : Node}
    {v : Value κ}
    (hn : P.plan.node? k.2 = some n)
    (hv : P.Yields k.1 n v) :
    P.Founded (r.publish k v) := by
  intro k' w hvalue
  by_cases hk : k' = k
  · subst hk
    rcases Run.value?_publish_cases hvalue with rfl | hold
    · exact ⟨n, hn, hv⟩
    · exact h k' w hold
  · rw [Run.value?_publish_of_ne hk] at hvalue
    exact h k' w hvalue

/-- A dialogue that fills no slots itself is justified if its calls are. -/
theorem record_justifies
    {α : Type}
    {solve : Task κ → Run σ κ → Recorded (Task κ) Halt (Run σ κ) (Value κ) (Value κ)}
    {d : Dialogue (Task κ) Halt (Run σ κ) (Value κ) α}
    (hsolve : ∀ t r, P.Founded r → P.Justifies r (solve t r))
    (h : Keeps (Run.manner σ κ) r d)
    (hr : P.Founded r) :
    P.Justifies r (d.record solve) := by
  induction h with
  | ok a hmoves =>
      exact ⟨hmoves.toExtends, hr.moves hmoves, fun _ he => nomatch he⟩
  | error _ hmoves =>
      exact ⟨hmoves.toExtends, hr.moves hmoves, fun _ he => nomatch he⟩
  | @asks r r' t next hmoves _ _ _ ihok iherror =>
      have hsolved := hsolve t r' (hr.moves hmoves)
      have hrest : P.Justifies (stateOf (solve t r').1)
          ((next (solve t r').1).record solve) := by
        have hgrows := hsolved.grows
        have hfounded := hsolved.founded
        revert hgrows hfounded
        cases (solve t r').1 with
        | ok b r'' => exact ihok b r''
        | error e r'' => exact fun hgrows => iherror e r'' hgrows id
      exact ⟨(hmoves.toExtends.trans hsolved.grows).trans hrest.grows, hrest.founded,
        List.forall_mem_append.mpr ⟨hsolved.explained, hrest.explained⟩⟩

/-- How the evaluation of a node goes on. -/
theorem nodeTalk_cases
    (P : Program σ κ)
    (i : InstanceId)
    (id : NodeId)
    (r : Run σ κ) :
    (∃ what, P.nodeTalk i id r = .ends (Eval.missing P i what r))
      ∨ ∃ n owner, P.plan.node? id = some n ∧ r.nearest? i n.owner = some owner
        ∧ (P.nodeTalk i id r = (Eval.computeConduct P owner n).talk r
          ∨ P.nodeTalk i id r = P.slotTalk owner n id r) := by
  cases hn : P.plan.node? id with
  | none => exact .inl ⟨.node id, by simp [nodeTalk, hn]⟩
  | some n =>
      cases howner : r.nearest? i n.owner with
      | none =>
          have hlookup := howner
          unfold Run.nearest? at hlookup
          exact .inl ⟨.owner n.owner id, by simp [nodeTalk, hn, hlookup]⟩
      | some owner =>
          have hlookup := howner
          unfold Run.nearest? at hlookup
          refine .inr ⟨n, owner, rfl, howner, ?_⟩
          cases hretained : n.retained with
          | false => exact .inl (by simp [nodeTalk, hn, hlookup, hretained])
          | true => exact .inr (by simp [nodeTalk, hn, hlookup, hretained])

section Evaluations

variable {levels : Nat} {enclosing : List (Task κ × Run σ κ)}
  (hsolve : ∀ t r, P.Founded r → P.Justifies r (P.tasks.trace levels enclosing t r))
  (hr : P.Founded r)

include hsolve hr

/-- A computation, within the evaluations that it gives rise to. -/
theorem compute_justifies
    (owner : InstanceId)
    (n : Node) :
    P.Justifies r (((Eval.computeConduct P owner n).talk r).record
        (P.tasks.trace levels enclosing))
      ∧ ∀ v r', (((Eval.computeConduct P owner n).talk r).record
        (P.tasks.trace levels enclosing)).1 = .ok v r' → P.Yields owner n v := by
  refine ⟨record_justifies hsolve ((Eval.computeConduct P owner n).keeps r trivial) hr, ?_⟩
  intro v r' hcomputed
  rw [P.record_talk] at hcomputed
  exact ⟨levels, r, r', hcomputed⟩

/-- The evaluation of a retained node, within the evaluations that it gives rise to. -/
theorem slotTalk_justifies
    (owner : InstanceId)
    {n : Node}
    {id : NodeId}
    (hn : P.plan.node? id = some n) :
    P.Justifies r ((P.slotTalk owner n id r).record (P.tasks.trace levels enclosing))
      ∧ ∀ v r', ((P.slotTalk owner n id r).record (P.tasks.trace levels enclosing)).1
        = .ok v r' → P.Yields owner n v := by
  have hslot {r : Run σ κ} {v : Value κ} (hr : P.Founded r)
      (hvalue : r.value? (owner, id) = some v) : P.Yields owner n v := by
    obtain ⟨n', hn', hv⟩ := hr (owner, id) v hvalue
    cases hn.symm.trans hn'
    exact hv
  cases hvalue : r.value? (owner, id) with
  | some v =>
      rw [P.slotTalk_of_some hvalue]
      refine ⟨⟨.refl r, hr, fun _ he => nomatch he⟩, fun v' r' hv => ?_⟩
      cases hv
      exact hslot hr hvalue
  | none =>
      obtain ⟨hjustifies, hyields⟩ := compute_justifies hsolve hr owner n
      rw [P.slotTalk_of_none hvalue, Dialogue.record_settle_ends]
      revert hjustifies hyields
      generalize ((Eval.computeConduct P owner n).talk r).record
        (P.tasks.trace levels enclosing) = computed
      obtain ⟨outcome, events⟩ := computed
      intro hjustifies hyields
      cases outcome with
      | error halt r' => exact ⟨hjustifies, fun _ _ h => nomatch h⟩
      | ok v r' =>
          have hv := hyields v r' rfl
          have hfounded : P.Founded (r'.publish (owner, id) v) :=
            hjustifies.founded.publish (k := (owner, id)) hn hv
          refine ⟨⟨grows_published hjustifies.grows, hfounded, hjustifies.explained⟩,
            fun v' r'' h => ?_⟩
          rw [published, Eval.publish_eq (owner, id) v r'] at h
          cases h
          cases hfilled : (r'.publish (owner, id) v).value? (owner, id) with
          | none => exact hv
          | some old => exact hslot hfounded hfilled

/-- The evaluation of a node, within the evaluations that it gives rise to. -/
theorem nodeTalk_justifies
    (i : InstanceId)
    (id : NodeId) :
    P.Justifies r ((P.nodeTalk i id r).record (P.tasks.trace levels enclosing))
      ∧ ∀ v r', ((P.nodeTalk i id r).record (P.tasks.trace levels enclosing)).1
        = .ok v r' → P.YieldsFrom r i id v := by
  rcases P.nodeTalk_cases i id r with ⟨what, htalk⟩ | ⟨n, owner, hn, howner, htalk | htalk⟩
  · rw [htalk]
    exact ⟨⟨.refl r, hr, fun _ he => nomatch he⟩, fun _ _ h => nomatch h⟩
  · rw [htalk]
    obtain ⟨hjustifies, hyields⟩ := compute_justifies hsolve hr owner n
    exact ⟨hjustifies, fun v r' h => ⟨n, owner, hn, howner, hyields v r' h⟩⟩
  · rw [htalk]
    obtain ⟨hjustifies, hyields⟩ := slotTalk_justifies hsolve hr owner hn
    exact ⟨hjustifies, fun v r' h => ⟨n, owner, hn, howner, hyields v r' h⟩⟩

end Evaluations

/-- Any evaluation, and all that it gives rise to. -/
theorem trace_justifies
    (levels : Nat)
    (enclosing : List (Task κ × Run σ κ))
    (t : Task κ)
    (r : Run σ κ)
    (hr : P.Founded r) :
    P.Justifies r (P.tasks.trace levels enclosing t r) := by
  induction levels generalizing enclosing t r with
  | zero =>
      refine ⟨.refl r, hr, List.forall_mem_cons.mpr ⟨trivial, List.forall_mem_singleton.mpr ?_⟩⟩
      cases t <;> exact trivial
  | succ levels ih =>
      let c : Evaluation σ κ := ⟨enclosing, t, r⟩
      let inside := (P.taskTalk t r).record (P.tasks.trace levels c.path)
      change P.Justifies r (inside.1, .started c :: inside.2 ++ [.finished c inside.1])
      have hinside : P.Justifies r inside ∧ P.Explains (.finished c inside.1) := by
        cases t with
        | invoke f arguments =>
            exact ⟨record_justifies (ih c.path)
              ((Eval.invokeConduct P f arguments).keeps r trivial) hr, trivial⟩
        | node i id =>
            obtain ⟨hjustifies, hyields⟩ := nodeTalk_justifies (ih c.path) hr i id
            refine ⟨hjustifies, ?_⟩
            cases houtcome : inside.1 with
            | ok v r' => exact hyields v r' houtcome
            | error halt r' => exact trivial
      obtain ⟨hjustifies, hexplains⟩ := hinside
      exact ⟨hjustifies.grows, hjustifies.founded, List.forall_mem_append.mpr
        ⟨List.forall_mem_cons.mpr ⟨trivial, hjustifies.explained⟩,
          List.forall_mem_singleton.mpr hexplains⟩⟩

end Justifies

/-- Asking for a node is written down with what it comes to. -/
theorem finished_mem_account
    (P : Program σ κ)
    (fuel : Nat)
    (i : InstanceId)
    (id : NodeId)
    (r : Run σ κ) :
    .finished ⟨[], .node i id, r⟩ (Eval.task P fuel (.node i id) r)
      ∈ (P.account fuel (.node i id) r).2 := by
  have htrace := P.tasks.finished_mem_trace fuel [] (.node i id) r
  rw [P.solve_tasks] at htrace
  exact List.mem_append_left _ htrace

namespace Session

variable {P : Program σ κ} {events : List (Occurrence σ κ)} {r : Run σ κ}

/-- A whole session, from its beginning on. -/
theorem justified
    (h : P.Session events r) :
    P.Founded r ∧ ∀ e ∈ events, P.Explains e := by
  induction h with
  | start host => exact ⟨fun k v hvalue => by simp [Run.value?] at hvalue, fun _ he => nomatch he⟩
  | @performed events r fuel op _ ih =>
      have hjustifies : P.Justifies r (P.account fuel op r) :=
        record_justifies (P.trace_justifies fuel []) ((P.operateConduct op).keeps r trivial) ih.1
      rw [← P.account_fst]
      exact ⟨hjustifies.founded, List.forall_mem_append.mpr ⟨ih.2, hjustifies.explained⟩⟩
  | continued host _ ih => exact ⟨ih.1.moves (.of_instances rfl), ih.2⟩

/-- The value of a node that is evaluated at any time of a session was computed for it. -/
theorem yields
    (h : P.Session events r)
    {c : Evaluation σ κ}
    {v : Value κ}
    {r' : Run σ κ}
    {i : InstanceId}
    {id : NodeId}
    (hfinished : .finished c (.ok v r') ∈ events)
    (htask : c.task = .node i id) :
    P.YieldsFrom c.before i id v := by
  have hexplains := h.justified.2 _ hfinished
  obtain ⟨enclosing, task, before⟩ := c
  cases htask
  exact hexplains

end Session

end Program
end Wiring
