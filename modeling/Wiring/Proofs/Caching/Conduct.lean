import Wiring.Execution.Interpreter
import Wiring.Proofs.Dialogue

/-!
# The dialogues of an evaluation

To evaluate a node or to invoke a function, further nodes are evaluated and further
functions invoked, some of them by host code.  Between these calls instances are added, but
no slot is filled.  Slots are filled by the evaluation of retained nodes alone.

**Results.**
* `Eval.computeConduct`, `Eval.invokeConduct`, `Eval.buildConduct`: this for the computation
  of a node, for the invocation of a function and for the building of an instance.
* `Run.value?_publish_self`, `Run.value?_publish_of_ne`: what is in the slots after one of
  them was filled.
-/

namespace Wiring

/-! ## Slots and lineages -/

/-- The slot of a node in an instance. -/
abbrev SlotId := InstanceId × NodeId

namespace Run

variable {σ κ : Type} {r r' r'' : Run σ κ}

/-- What is in a slot. -/
def value? (r : Run σ κ) (k : SlotId) : Option (Value κ) :=
  (r.instances[k.1.index]?).bind (fun s => (s.slot k.2).value?)

/-- Whether an instance of a scope is among the instances. -/
def Lives (r : Run σ κ) (scope : ScopeId) (i : InstanceId) : Prop :=
  ∃ s, r.instances[i.index]? = some s ∧ s.scope = scope

/-- Whether this is so for every instance and its parents. -/
def IsRooted (r : Run σ κ) : Prop :=
  ∀ (i : Nat) (s : ScopeInstance κ), r.instances[i]? = some s →
    ∀ p ∈ s.lineage, r.Lives p.1 p.2

/-- Whether a run has gone on without losing instances. -/
structure Extends (r r' : Run σ κ) : Prop where
  lives {scope : ScopeId} {i : InstanceId} : r.Lives scope i → r'.Lives scope i
  isRooted : r.IsRooted → r'.IsRooted

/-- Whether a run has gone on without filling a slot. -/
structure Moves (r r' : Run σ κ) : Prop extends Extends r r' where
  value? (k : SlotId) : r'.value? k = r.value? k

theorem Lives.index_lt
    {scope : ScopeId}
    {i : InstanceId}
    (h : r.Lives scope i) :
    i.index < r.instances.size := by
  obtain ⟨s, hs, -⟩ := h
  exact (Array.getElem?_eq_some_iff.mp hs).1

theorem Extends.refl (r : Run σ κ) : r.Extends r := ⟨id, id⟩

theorem Extends.trans
    (h : r.Extends r')
    (h' : r'.Extends r'') :
    r.Extends r'' :=
  ⟨fun hi => h'.lives (h.lives hi), fun hr => h'.isRooted (h.isRooted hr)⟩

theorem Moves.refl (r : Run σ κ) : r.Moves r := ⟨.refl r, fun _ => rfl⟩

theorem Moves.trans
    (h : r.Moves r')
    (h' : r'.Moves r'') :
    r.Moves r'' :=
  ⟨h.toExtends.trans h'.toExtends, fun k => (h'.value? k).trans (h.value? k)⟩

/-- The state of the host program does not matter. -/
theorem Moves.of_instances
    (h : r'.instances = r.instances) :
    r.Moves r' := by
  have hlives {scope : ScopeId} {i : InstanceId} (hi : r.Lives scope i) :
      r'.Lives scope i := by
    unfold Lives at hi ⊢
    rwa [h]
  refine ⟨⟨hlives, fun hr i s hs p hp => ?_⟩, fun k => ?_⟩
  · rw [h] at hs
    exact hlives (hr i s hs p hp)
  · unfold Run.value?
    rw [h]

/-- A new instance has no values, and its parents are there if its parent is. -/
theorem Moves.push
    {live : ScopeInstance κ}
    {above : List (ScopeId × InstanceId)}
    (hslots : live.slots = [])
    (hlineage : live.lineage = (live.scope, ⟨r.instances.size⟩) :: above)
    (habove : r.IsRooted → ∀ p ∈ above, r.Lives p.1 p.2) :
    r.Moves { r with instances := r.instances.push live } := by
  have hlives {scope : ScopeId} {i : InstanceId} (hi : r.Lives scope i) :
      Lives { r with instances := r.instances.push live } scope i := by
    obtain ⟨s, hs, hscope⟩ := hi
    refine ⟨s, ?_, hscope⟩
    rw [Array.getElem?_push_lt (Array.getElem?_eq_some_iff.mp hs).1]
    exact congrArg some (Array.getElem?_eq_some_iff.mp hs).2
  refine ⟨⟨hlives, fun hr i s hs p hp => ?_⟩, fun k => ?_⟩
  · rw [Array.getElem?_push] at hs
    split at hs
    · cases hs
      rw [hlineage] at hp
      rcases List.mem_cons.mp hp with rfl | hp
      · exact ⟨live, by simp, rfl⟩
      · exact hlives (habove hr p hp)
    · exact hlives (hr i s hs p hp)
  · unfold Run.value?
    rw [Array.getElem?_push]
    split
    · rename_i hk
      rw [hk]
      simp [ScopeInstance.slot, hslots]
    · rfl

end Run

/-! ## How evaluations go on -/

/-- How an evaluation goes on between calls. -/
def Run.manner (σ κ : Type) : Manner Halt (Run σ κ) where
  moves := Run.Moves
  answers := Run.Extends
  raises _ := True
  passes _ := False
  refl := .refl
  trans := .trans
  relays _ := trivial

namespace Eval

variable {σ κ α : Type}

/-- The dialogues of a step whose calls are made by a parameter. -/
abbrev Conducted (step : (Task κ → Eval σ κ (Value κ)) → Eval σ κ α) :=
  Conduct (Run.manner σ κ) (.always (Run.manner σ κ)) step

/-- A step that fills no slot and makes no calls. -/
def Quiet (step : Eval σ κ α) : Prop :=
  (Run.manner σ κ).Quiet (.always (Run.manner σ κ)) step

/-- A step without calls. -/
def quietly {step : Eval σ κ α} (h : Quiet step) : Conducted (fun _ => step) := .quiet h

theorem quiet_of_instances
    {step : Eval σ κ α}
    (h : ∀ r, match step r with
      | .ok _ r' => r'.instances = r.instances
      | .error _ r' => r'.instances = r.instances) :
    Quiet step := by
  intro r _
  have hr := h r
  cases hstep : step r with
  | ok a r' =>
      rw [hstep] at hr
      exact .of_instances hr
  | error e r' =>
      rw [hstep] at hr
      exact ⟨trivial, .of_instances hr⟩

theorem quiet_live? (i : InstanceId) : Quiet (live? i : Eval σ κ _) :=
  quiet_of_instances (fun _ => rfl)

theorem quiet_get : Quiet (get : Eval σ κ _) := quiet_of_instances (fun _ => rfl)

theorem quiet_fail (e : ExecutionError) : Quiet (fail e : Eval σ κ α) :=
  quiet_of_instances (fun _ => rfl)

theorem quiet_ofExcept (outcome : Except ExecutionError α) :
    Quiet (ofExcept outcome : Eval σ κ α) := by
  cases outcome with
  | ok a => exact quiet_of_instances (fun _ => rfl)
  | error e => exact quiet_of_instances (fun _ => rfl)

theorem quiet_missing (P : Program σ κ) (i : InstanceId) (what : Unavailable) :
    Quiet (missing P i what : Eval σ κ α) :=
  quiet_of_instances (fun _ => rfl)

theorem quiet_invocable (P : Program σ κ) (i : InstanceId) (id : NodeId) :
    Quiet (invocable P i id) := by
  refine quiet_of_instances (fun r => ?_)
  unfold invocable
  cases P.plan.node? id with
  | none => rfl
  | some n =>
      cases hk : n.kind <;> simp only [hk] <;> rfl

/-! ## Host code -/

/-- A step whose error is caught. -/
def attemptConduct {step : (Task κ → Eval σ κ (Value κ)) → Eval σ κ α}
    (C : Conducted step) : Conducted (fun recur => attempt (step recur)) :=
  (C.settle
    (fun
      | .ok a r => .ends (.ok (.ok a) r)
      | .error (.failed e) r => .ends (.ok (.error e) r)
      | .error .outOfFuel r => .ends (.error .outOfFuel r))
    (fun a r _ => Keeps.ok (Except.ok a) (Run.Moves.refl r))
    (fun
      | .failed e, r, _, _ => Keeps.ok (Except.error e) (Run.Moves.refl r)
      | .outOfFuel, r, _, _ => Keeps.error trivial (Run.Moves.refl r))
    (fun _ _ hpass => hpass.elim)).congrAt
    (fun recur r => by
      dsimp only [attempt]
      rcases step recur r with _ | ⟨_ | _⟩ <;> rfl)

/-- Change the state of the host program. -/
def setHost (host : σ) : Eval σ κ Unit := fun r => .ok () { r with host := host }

theorem quiet_setHost (host : σ) : Quiet (setHost host : Eval σ κ Unit) :=
  quiet_of_instances (fun _ => rfl)

/-- A script of host code. -/
def scriptConduct {ε : Type} :
    (script : Script σ κ ε) → Conducted (fun recur => runScript recur script)
  | .finish state result =>
      quietly (quiet_of_instances (fun _ => rfl) :
        Quiet (fun r => .ok result { r with host := state }))
  | .invoke state f arguments next =>
      ((quietly (quiet_setHost state)).bind (fun _ =>
        ((attemptConduct (.call (.invoke f arguments))).bind (fun outcome =>
          ((quietly quiet_get).bind (fun (r : Run σ κ) =>
            scriptConduct (next r.host outcome)) :)) :))).congrAt
        (fun recur r => by
          change EStateM.bind (attempt (recur (.invoke f arguments))) _ { r with host := state }
            = _
          rw [runScript]
          unfold EStateM.bind
          dsimp only
          cases attempt (recur (.invoke f arguments)) { r with host := state } <;> rfl)

section Steps

variable (P : Program σ κ)

/-- Several nodes. -/
def nodesConduct (i : InstanceId) (ids : List NodeId) :
    Conducted (fun recur : Task κ → Eval σ κ (Value κ) => nodes recur i ids) :=
  .mapM (fun id => .call (Task.node i id)) ids

/-- The factory of a declaration. -/
def callFactoryConduct (origin : QName) (arguments : List (Value κ)) :
    Conducted (fun recur => callFactory P recur origin arguments) :=
  (Conduct.option
    (fun (code : κ) => ((quietly quiet_get).bind (fun (r : Run σ κ) =>
      ((scriptConduct (P.host.factory code arguments r.host)).bind (fun outcome =>
        (Conduct.except (fun v => .pure v)
          (fun e => quietly (quiet_fail (.factoryFailed origin e))) outcome :)) :)) :))
    (quietly (quiet_fail (.missingFactory origin)))
    (P.factories.factory? origin)).congr
    (fun recur => by
      unfold callFactory
      cases P.factories.factory? origin with
      | none => rfl
      | some code => exact bind_congr (fun r => bind_congr (fun outcome => by
          cases outcome <;> rfl)))

/-- An interceptor around a factory. -/
def wrapConduct (i : InstanceId) (inner : Function κ) (ic : Interceptor) :
    Conducted (fun recur => wrap P recur i inner ic) :=
  ((nodesConduct i ic.resolved).bind (fun dependencies =>
    ((callFactoryConduct P ic.declaration.name
        (placeFactory ic.factoryParameter inner.toValue 0 ic.declaration.parameters
          dependencies)).bind (fun wrapped =>
      (Conduct.option (fun f => .pure f)
        (quietly (quiet_fail (.mismatch (.notWrapper ic.declaration.name))))
        wrapped.function? :)) :))).congr
    (fun _ => bind_congr (fun _ => bind_congr (fun wrapped => by
      cases wrapped.function? <;> rfl)))

/-- A node of its owner. -/
def computeConduct (i : InstanceId) (n : Node) :
    Conducted (fun recur => compute P recur i n) :=
  match hk : n.kind with
  | .callable d _ [] =>
      if hnone : n.interceptors.isEmpty = true then
        ((nodesConduct i n.resolved).bind (callFactoryConduct P d.name)).congr
          (fun _ => by simp only [compute, hk, hnone]; rfl)
      else
        ((Conduct.foldlM (wrapConduct P i) n.interceptors ⟨0, .bare i n.id⟩).bind
          (fun outermost => .call (.invoke outermost []))).congr
          (fun _ => by simp only [compute, hk, hnone]; rfl)
  | .callable _ _ (p :: ps) =>
      (Conduct.pure (.function (p :: ps).length (.assisted i n.id))).congr
        (fun _ => by simp only [compute, hk])
  | .function d =>
      (Conduct.pure (.function 0 (.alias i d.name n.resolved))).congr
        (fun _ => by simp only [compute, hk])
  | .self => (Conduct.pure (.scope i)).congr (fun _ => by simp only [compute, hk])
  | .object =>
      (Conduct.option (fun v => .pure v) (quietly (quiet_missing P i (.object n.type)))
        (P.factories.object? n.type)).congr
        (fun _ => by
          simp only [compute, hk]
          cases P.factories.object? n.type <;> rfl)
  | .input index =>
      ((quietly (quiet_live? i)).bind (fun live =>
        (Conduct.option (fun v => .pure v) (quietly (quiet_missing P i (.input index)))
          (live.bind (fun s => s.inputs[index]?)) :))).congr
        (fun _ => by
          simp only [compute, hk]
          exact bind_congr (fun live => by
            cases live.bind (fun s => s.inputs[index]?) <;> rfl))
  | .provider scope parameters _ =>
      (Conduct.list
        (fun target _ => .pure (.function parameters.length (.provider i scope target)))
        (quietly (quiet_missing P i (.provided n.id))) n.resolved).congr
        (fun _ => by
          simp only [compute, hk]
          cases n.resolved <;> rfl)
  | .childComponent scope parameters =>
      (Conduct.pure (.function parameters.length
        (.component i scope ((n.dependencies.map Request.type).zip n.resolved)))).congr
        (fun _ => by simp only [compute, hk])
  | .set _ =>
      ((nodesConduct i n.resolved).bind (fun elements => .pure (.set elements))).congr
        (fun _ => by simp only [compute, hk])
  | .map keys =>
      ((nodesConduct i n.resolved).bind (fun values =>
        .pure (.mapOf ((keys.map MapKey.value).zip values)))).congr
        (fun _ => by simp only [compute, hk])
  | .delegate target =>
      (Conduct.call (.node i target)).congr (fun _ => by simp only [compute, hk])
  | .null => (Conduct.pure .absent).congr (fun _ => by simp only [compute, hk])
  | .missing => (Conduct.pure .absent).congr (fun _ => by simp only [compute, hk])

/-! ## Instances -/

/-- Add an instance of a scope below a parent instance. -/
def addInstance (scope : ScopeId) (parent : Option InstanceId) (inputs : List (Value κ))
    (entryPoints : List (Ty × NodeId)) : Eval σ κ InstanceId := fun r =>
  let id : InstanceId := ⟨r.instances.size⟩
  let above := ((parent.bind (fun p => r.instances[p.index]?)).map
    ScopeInstance.lineage).getD []
  let live : ScopeInstance κ :=
    { scope := scope
      lineage := (scope, id) :: above
      inputs := inputs
      entryPoints := entryPoints }
  .ok id { r with instances := r.instances.push live }

theorem quiet_addInstance
    (scope : ScopeId)
    (parent : Option InstanceId)
    (inputs : List (Value κ))
    (entryPoints : List (Ty × NodeId)) :
    Quiet (addInstance scope parent inputs entryPoints : Eval σ κ InstanceId) := by
  intro r _
  refine Run.Moves.push rfl rfl (fun hr p hp => ?_)
  cases habove : parent.bind (fun p => r.instances[p.index]?) with
  | none =>
      rw [habove] at hp
      exact nomatch hp
  | some s =>
      rw [habove] at hp
      obtain ⟨q, -, hq⟩ := Option.bind_eq_some_iff.mp habove
      exact hr _ s hq p hp

/-- An eager node of an instance that is being built. -/
def eager (recur : Task κ → Eval σ κ (Value κ)) (i : InstanceId) (n : Node) :
    Eval σ κ PUnit := do
  match ← attempt (recur (.node i n.id)) with
  | .ok _ => pure ()
  | .error e => fail (.eagerFailed n.id e)

/-- The dialogues of an eager node. -/
def eagerConduct (i : InstanceId) (n : Node) :
    Conducted (fun recur : Task κ → Eval σ κ (Value κ) => eager recur i n) :=
  ((attemptConduct (.call (.node i n.id))).bind (fun outcome =>
    (Conduct.except (fun _ => .pure PUnit.unit)
      (fun e => quietly (quiet_fail (.eagerFailed n.id e))) outcome :))).congr
    (fun _ => bind_congr (fun outcome => by cases outcome <;> rfl))

/-- An instance, with its eager nodes. -/
def buildConduct (scope : ScopeId) (parent : Option InstanceId) (inputs : List (Value κ))
    (entryPoints : List (Ty × NodeId)) :
    Conducted (fun recur => build P recur scope parent inputs entryPoints) :=
  ((quietly (quiet_addInstance scope parent inputs entryPoints)).bind (fun id =>
    ((Conduct.forM (eagerConduct id) (P.plan.eagerNodes scope)).bind
      (fun _ => .pure id) :))).congrAt
    (fun _ _ => rfl)

/-! ## Functions -/

/-- What a function does with its arguments. -/
def applyConduct (arguments : List (Value κ)) :
    (body : FunctionBody κ) → Conducted (fun recur => apply P recur arguments body)
  | .alias i origin dependencies =>
      (nodesConduct i dependencies).bind (callFactoryConduct P origin)
  | .provider i scope target =>
      (buildConduct P scope (some i) arguments []).bind
        (fun inner => .call (Task.node inner target))
  | .component i scope entryPoints =>
      (buildConduct P scope (some i) arguments entryPoints).bind
        (fun inner => .pure (Value.scope inner))
  | .assisted i id =>
      ((quietly (quiet_invocable P i id)).bind (fun (p : Declaration × List NodeId) =>
        ((nodesConduct i p.2).bind (fun provided =>
          (Conduct.except (fun values => callFactoryConduct P p.1.name values)
            (fun parameter => quietly (quiet_missing P i (.argument parameter)))
            (placeArguments p.1.parameters arguments provided) :)) :))).congr
        (fun _ => bind_congr (fun p => bind_congr (fun provided => by
          cases placeArguments p.1.parameters arguments provided <;> rfl)))
  | .bare i id =>
      ((quietly (quiet_invocable P i id)).bind (fun (p : Declaration × List NodeId) =>
        ((nodesConduct i p.2).bind (callFactoryConduct P p.1.name) :))).congr
        (fun _ => rfl)
  | .hosted code captured =>
      ((quietly quiet_get).bind (fun (r : Run σ κ) =>
        ((scriptConduct (P.host.function code captured arguments r.host)).bind
          (fun outcome => quietly (quiet_ofExcept outcome)) :))).congr
        (fun _ => rfl)

/-- A function with as many arguments as it takes. -/
def invokeConduct (f : Function κ) (arguments : List (Value κ)) :
    Conducted (fun recur => invoke P recur f arguments) :=
  if h : arguments.length = f.arity then
    (applyConduct P arguments f.body).congr (fun _ => by simp only [invoke, if_pos h])
  else
    (quietly (quiet_fail (.mismatch (.arity f.arity arguments.length)))).congr
      (fun _ => by simp only [invoke, if_neg h])

end Steps

end Eval

/-! ## Slots that are filled -/

/-- What an entry is found under does not depend on entries under another key. -/
theorem lookup_filter_of_ne
    {α β : Type}
    [DecidableEq α]
    (entries : List (α × β))
    {key key' : α}
    (hne : key' ≠ key) :
    (entries.filter (fun e => e.1 ≠ key)).lookup key' = entries.lookup key' := by
  induction entries with
  | nil => rfl
  | cons e entries ih =>
      by_cases he : e.1 = key
      · have hkey : (key' == e.1) = false := by simpa [he] using hne
        rw [List.filter_cons_of_neg (by simpa using he), ih, List.lookup_cons, hkey]
      · rw [List.filter_cons_of_pos (by simpa using he), List.lookup_cons, List.lookup_cons, ih]

namespace ScopeInstance

variable {κ : Type} (s : ScopeInstance κ) (id : NodeId)

theorem slot_publish_self (v : Value κ) :
    (s.publish id v).slot id = (s.slot id).publish v := by
  simp [publish, slot]

theorem slot_publish_of_ne
    {id' : NodeId}
    (hne : id' ≠ id)
    (v : Value κ) :
    (s.publish id v).slot id' = s.slot id' := by
  have hkey : (id' == id) = false := by simpa using hne
  unfold slot publish
  dsimp only
  rw [List.lookup_cons, hkey, lookup_filter_of_ne s.slots hne]

end ScopeInstance

namespace Run

variable {σ κ : Type} {r r' : Run σ κ} {k : SlotId} {v : Value κ}

/-- A run after a value was published in a slot. -/
def publish (r : Run σ κ) (k : SlotId) (v : Value κ) : Run σ κ :=
  { r with instances := r.instances.modify k.1.index (fun s => s.publish k.2 v) }

/-- An empty slot of an instance that is there is filled. -/
theorem value?_publish_self
    (hlive : k.1.index < r.instances.size)
    (hempty : r.value? k = none) :
    (r.publish k v).value? k = some v := by
  have hk : r.instances[k.1.index]? = some r.instances[k.1.index] :=
    Array.getElem?_eq_getElem hlive
  unfold value? publish at *
  rw [hk] at hempty
  rw [Array.getElem?_modify, if_pos rfl, hk]
  change ((r.instances[k.1.index].publish k.2 v).slot k.2).value? = some v
  change (r.instances[k.1.index].slot k.2).value? = none at hempty
  rw [ScopeInstance.slot_publish_self]
  unfold Slot.publish
  rw [hempty]

/-- Other slots stay as they are. -/
theorem value?_publish_of_ne
    {k' : SlotId}
    (hne : k' ≠ k) :
    (r.publish k v).value? k' = r.value? k' := by
  unfold value? publish
  rw [Array.getElem?_modify]
  split
  · rename_i hindex
    have hid : k'.2 ≠ k.2 := by
      intro hid
      apply hne
      obtain ⟨⟨i⟩, id⟩ := k
      obtain ⟨⟨i'⟩, id'⟩ := k'
      cases hindex
      cases hid
      rfl
    cases r.instances[k'.1.index]? with
    | none => rfl
    | some s =>
        change ((s.publish k.2 v).slot k'.2).value? = (s.slot k'.2).value?
        rw [ScopeInstance.slot_publish_of_ne s k.2 hid]
  · rfl

theorem extends_publish (r : Run σ κ) (k : SlotId) (v : Value κ) :
    r.Extends (r.publish k v) := by
  have hlives {scope : ScopeId} {i : InstanceId} (hi : r.Lives scope i) :
      (r.publish k v).Lives scope i := by
    obtain ⟨s, hs, hscope⟩ := hi
    unfold Lives publish
    rw [Array.getElem?_modify]
    split
    · exact ⟨s.publish k.2 v, by rw [hs]; rfl, hscope⟩
    · exact ⟨s, hs, hscope⟩
  refine ⟨hlives, fun hr i s hs p hp => hlives ?_⟩
  unfold publish at hs
  rw [Array.getElem?_modify] at hs
  split at hs
  · obtain ⟨s', hs', rfl⟩ := Option.map_eq_some_iff.mp hs
    exact hr i s' hs' p hp
  · exact hr i s hs p hp

end Run

/-- Publishing answers with what is in the slot then. -/
theorem Eval.publish_eq
    {σ κ : Type}
    (k : SlotId)
    (v : Value κ)
    (r : Run σ κ) :
    (Eval.publish k.1 k.2 v : Eval σ κ (Value κ)) r
      = .ok (((r.publish k v).value? k).getD v) (r.publish k v) :=
  rfl

end Wiring
