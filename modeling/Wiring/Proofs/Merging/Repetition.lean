import Wiring.Proofs.Merging.Election

/-!
# Merging again

What merging leaves of a group elects the node that was elected before, and this one's type
no longer fits any other member.  So there is nothing to merge a second time, and nodes that
were handed out in between stay as they are.

The elected node of a group takes over the eagerness of the members that turn into delegates
to it, all others keep their own.  So a group stays eager, or stays lazy, as a whole.

**Results.**
* `StarMerge.outcome_of_merged`: a second time merging changes no node.
* `StarMerge.Arranged.mergedOnce`: nor does it report any, and the first time it changes
  neither what a node is known by nor whether a group is eager.
-/

namespace Wiring

/-- Whether a node invokes a declaration of a name for an owner. -/
structure Node.Invokes (n : Node) (origin : Option QName) (owner : ScopeId) : Prop where
  invocation : n.kind.isInvocation = true
  origin : n.origin = origin
  owner : n.owner = owner

namespace Node.Invokes

variable {n m : Node} {origin : Option QName} {owner : ScopeId} {group : QName × ScopeId}

theorem isDelegate_eq_false
    (h : n.Invokes origin owner) :
    n.kind.isDelegate = false := by
  have hkind := h.invocation
  cases hk : n.kind with
  | delegate => simp [hk, NodeKind.isInvocation] at hkind
  | _ => rfl

/-- The other members of its group invoke the same. -/
theorem of_group?
    (h : n.Invokes origin owner)
    (hn : StarMerge.group? n = some group)
    (hm : StarMerge.group? m = some group) :
    m.Invokes origin owner := by
  obtain ⟨-, horigin, howner⟩ := StarMerge.group?_eq_some_iff.mp hn
  obtain ⟨hkind', horigin', howner'⟩ := StarMerge.group?_eq_some_iff.mp hm
  exact ⟨hkind', (horigin'.trans horigin.symm).trans h.origin,
    (howner'.trans howner.symm).trans h.owner⟩

end Node.Invokes

namespace StarMerge

variable {nodes : List Node} {n n' c c' : Node} {group : QName × ScopeId}

/-- Whether every node of an arena knows its position. -/
def Arranged (arena : Array Node) : Prop :=
  ∀ (i : Nat) (hi : i < arena.size), arena[i].id = ⟨i⟩

instance (arena : Array Node) : Decidable (Arranged arena) :=
  inferInstanceAs (Decidable (∀ (i : Nat) (hi : i < arena.size), arena[i].id = ⟨i⟩))

/-! ## What is left of a group -/

/-- The elected node's type fits no other member of what is left of its group. -/
theorem not_delegates_of_merged
    (hdistinct : Distinct nodes)
    (hn' : n' ∈ outcomes nodes)
    (hgroup : group? n' = some group)
    (hc' : Elected (outcomes nodes) group c') :
    delegates n' c' = false := by
  obtain ⟨n, hn, rfl⟩ := List.mem_map.mp hn'
  have hpart := part_outcome hdistinct hn
  have hc := elected_canonicalOf hn (hpart.grouped hgroup)
  generalize canonicalOf n _ = c at hc
  -- the elected node comes from the one that was elected before
  obtain rfl := hc'.unique hdistinct.outcomes (hc.merged hdistinct)
  have hresembles := (part_outcome hdistinct hc.mem).resembles
  rcases hpart.eq_or_not_generalizes hdistinct hgroup hc with rfl | hgeneralizes
  · simp [delegates]
  · simp [delegates, hpart.resembles.type, hresembles.type, hgeneralizes]

/-- A second time merging changes no node. -/
theorem outcome_of_merged
    (hdistinct : Distinct nodes)
    (hn' : n' ∈ outcomes nodes) :
    outcome (outcomes nodes) n' = n' := by
  have hpart := part_outcome hdistinct.outcomes hn'
  generalize outcome (outcomes nodes) n' = n'' at hpart
  cases hpart with
  | ungrouped | rival => rfl
  | @elected group hc' =>
      have hnone : relieved (outcomes nodes) group n' = false := by
        refine Bool.eq_false_iff.mpr fun hrelieved => ?_
        obtain ⟨m', hm', hgroup, hdelegates, -⟩ := relieved_eq_true_iff.mp hrelieved
        rw [not_delegates_of_merged hdistinct hm' hgroup hc'] at hdelegates
        cases hdelegates
      rw [hnone, Bool.or_false]
  | delegate hgroup hc' hdelegates =>
      rw [not_delegates_of_merged hdistinct hn' hgroup hc'] at hdelegates
      cases hdelegates

/-! ## Eagerness of a group -/

/-- Some member that is not a delegate is eager after merging exactly if some member was
eager before. -/
theorem eager_merged_iff
    (hdistinct : Distinct nodes)
    (origin : Option QName)
    (owner : ScopeId) :
    (∃ n ∈ nodes, n.Invokes origin owner ∧ (outcome nodes n).kind.isDelegate = false
        ∧ (outcome nodes n).eager = true)
      ↔ ∃ n ∈ nodes, n.Invokes origin owner ∧ n.eager = true := by
  constructor
  · rintro ⟨n, hn, hinvokes, hkind, heager⟩
    have hpart := part_outcome hdistinct hn
    generalize outcome nodes n = n' at hpart hkind heager
    cases hpart with
    | ungrouped | rival => exact ⟨n, hn, hinvokes, heager⟩
    | delegate => exact nomatch hkind
    | elected hc =>
        rcases Bool.or_eq_true_iff.mp heager with heager | hrelieved
        · exact ⟨n, hn, hinvokes, heager⟩
        · obtain ⟨m, hm, hgroup, -, heager⟩ := relieved_eq_true_iff.mp hrelieved
          exact ⟨m, hm, hinvokes.of_group? hc.grouped hgroup, heager⟩
  · rintro ⟨n, hn, hinvokes, heager⟩
    have hpart := part_outcome hdistinct hn
    generalize houtcome : outcome nodes n = n' at hpart
    cases hpart with
    | ungrouped | rival =>
        exact ⟨n, hn, hinvokes, by rw [houtcome]; exact hinvokes.isDelegate_eq_false,
          by rw [houtcome]; exact heager⟩
    | elected =>
        exact ⟨n, hn, hinvokes, by rw [houtcome]; exact hinvokes.isDelegate_eq_false,
          by rw [houtcome]; simp [heager]⟩
    | @delegate group c hgroup hc hdelegates =>
        -- the elected node takes over the eagerness
        have hcinvokes := hinvokes.of_group? hgroup hc.grouped
        have hrelieved : relieved nodes group c = true :=
          relieved_eq_true_iff.mpr ⟨n, hn, hgroup, hdelegates, heager⟩
        refine ⟨c, hc.mem, hcinvokes, ?_, ?_⟩
        · rw [outcome_elected hdistinct hc]
          exact hcinvokes.isDelegate_eq_false
        · rw [outcome_elected hdistinct hc, hrelieved]
          simp

/-! ## Arenas -/

/-- What merging keeps of an arena, and that it has nothing to do a second time. -/
structure MergedOnce (arena : Array Node) : Prop where
  again : mergeStars (mergeStars arena) = mergeStars arena
  none : mergedCount (mergeStars arena) = 0
  /-- Nodes keep what they are known by, and all but invocations do not change at all. -/
  nodes : ∀ (i : Nat) (n : Node), arena[i]? = some n →
    ∃ n', (mergeStars arena)[i]? = some n' ∧ n'.Resembles n
      ∧ (n.kind.isInvocation = false → n' = n)
  /-- A group is eager, with some member that is no delegate, if some member was eager. -/
  eager : ∀ (origin : Option QName) (owner : ScopeId),
    (∃ (i : Nat) (n n' : Node), arena[i]? = some n ∧ n.Invokes origin owner
        ∧ (mergeStars arena)[i]? = some n' ∧ n'.kind.isDelegate = false ∧ n'.eager = true)
      ↔ ∃ (i : Nat) (n : Node), arena[i]? = some n ∧ n.Invokes origin owner ∧ n.eager = true

theorem mergeStars_getElem?
    (arena : Array Node)
    (i : Nat) :
    (mergeStars arena)[i]? = arena[i]?.map (outcome arena.toList) := by
  simp [mergeStars]

namespace Arranged

variable {arena : Array Node}

theorem distinct (h : Arranged arena) : Distinct arena.toList := by
  intro a ha b hb hid
  obtain ⟨i, hi, rfl⟩ := Array.mem_iff_getElem.mp (Array.mem_toList_iff.mp ha)
  obtain ⟨j, hj, rfl⟩ := Array.mem_iff_getElem.mp (Array.mem_toList_iff.mp hb)
  rw [h i hi, h j hj] at hid
  cases hid
  rfl

/-- If every node knows its position, merging a second time changes nothing, and the first
time it changes neither what a node is known by nor whether a group is eager. -/
theorem mergedOnce (h : Arranged arena) : MergedOnce arena := by
  have hdistinct := h.distinct
  have hagain : ∀ n' ∈ outcomes arena.toList, outcome (outcomes arena.toList) n' = n' :=
    fun n' hn' => outcome_of_merged hdistinct hn'
  refine ⟨?_, ?_, fun i n hn => ?_, fun origin owner => ?_⟩
  · refine Array.toList_inj.mp ?_
    rw [toList_mergeStars, toList_mergeStars]
    exact (List.map_congr_left hagain).trans (List.map_id' _)
  · unfold mergedCount
    rw [toList_mergeStars]
    refine List.countP_eq_zero.mpr fun n' hn' => ?_
    rw [hagain n' hn']
    simp
  · have hpart := part_outcome hdistinct (Array.mem_toList_iff.mpr (Array.mem_of_getElem? hn))
    refine ⟨outcome arena.toList n, ?_, hpart.resembles, hpart.eq_of_not_isInvocation⟩
    rw [mergeStars_getElem?, hn]
    rfl
  · have hiff := eager_merged_iff hdistinct origin owner
    constructor
    · rintro ⟨i, n, n', hn, hinvokes, hn', hkind, heager⟩
      rw [mergeStars_getElem?, hn] at hn'
      cases hn'
      have hmem := Array.mem_toList_iff.mpr (Array.mem_of_getElem? hn)
      obtain ⟨m, hm, hm'⟩ := hiff.mp ⟨n, hmem, hinvokes, hkind, heager⟩
      obtain ⟨j, hj⟩ := Array.getElem?_of_mem (Array.mem_toList_iff.mp hm)
      exact ⟨j, m, hj, hm'⟩
    · rintro ⟨i, n, hn, hn'⟩
      have hmem := Array.mem_toList_iff.mpr (Array.mem_of_getElem? hn)
      obtain ⟨m, hm, hinvokes, hkind, heager⟩ := hiff.mpr ⟨n, hmem, hn'⟩
      obtain ⟨j, hj⟩ := Array.getElem?_of_mem (Array.mem_toList_iff.mp hm)
      refine ⟨j, m, _, hj, hinvokes, ?_, hkind, heager⟩
      rw [mergeStars_getElem?, hj]
      rfl

end Arranged

/-! ## An eager repository -/

/-- A repository of anything, which is eager, one of a class, and the set of both. -/
def eagerRepositories : Array Node :=
  let repository (id : NodeId) (argument : Ty) : Node :=
    { Node.plain (.generic ⟨17⟩ [argument]) ⟨0⟩
        (.callable { name := ⟨"app.repo"⟩, type := .generic ⟨17⟩ [argument] } [] []) with
      id := id
      origin := some ⟨"app.repo"⟩ }
  #[ { repository ⟨0⟩ .starProjection with eager := true },
    repository ⟨1⟩ (.of ⟨16⟩),
    { Node.plain (.setOf (.of ⟨16⟩)) ⟨0⟩ (.set [⟨"app.repo"⟩, ⟨"app.repo"⟩]) with
      id := ⟨2⟩
      resolved := [⟨0⟩, ⟨1⟩] } ]

/-- The first one turns into a delegate to the second one, which turns eager. -/
theorem eagerRepositories_mergedOnce :
    Arranged eagerRepositories
      ∧ (mergeStars eagerRepositories).toList.map (fun n => (n.kind.name, n.eager))
        = [("delegate", false), ("callable", true), ("set", false)]
      ∧ MergedOnce eagerRepositories := by
  have harranged : Arranged eagerRepositories := by decide +kernel
  exact ⟨harranged, by decide +kernel, Arranged.mergedOnce harranged⟩

end StarMerge
end Wiring
