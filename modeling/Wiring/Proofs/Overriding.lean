import Mathlib.Data.List.Induction
import Mathlib.Tactic.Common
import Wiring.Scope

/-!
# Overriding

The bindings of a scope are added one after the other.  A binding whose type is taken is
kept beside those that have it, is discarded, or takes the place of the first of them, as
its policy says.  So bindings of different types do not affect each other, and what is kept
of one type depends on the order and the policies of its bindings only.

An override takes the place of one binding.  If several of its type are there, because a
later one of them is to be reported as a collision, the others stay.

**Results.**
* `Scope.bindings_of_create`: which bindings of a type a scope keeps of those it is given.
* `Scope.create_override_iff`: an override leaves no earlier binding of its type exactly if
  none of these was kept beside another.
-/

namespace Wiring

/-! ## Bindings of one type -/

/-- Add a binding to those of its type, as its policy says. -/
def DuplicatePolicy.add {α : Type} (policy : DuplicatePolicy) (a : α) : List α → List α
  | [] => [a]
  | b :: bs =>
      match policy with
      | .fail => b :: bs ++ [a]
      | .drop => b :: bs
      | .override => a :: bs

namespace DuplicatePolicy

variable {α β : Type} (policy : DuplicatePolicy)

theorem map_add
    (f : α → β)
    (a : α)
    (bs : List α) :
    (policy.add a bs).map f = policy.add (f a) (bs.map f) := by
  cases bs with
  | nil => rfl
  | cons b bs => cases policy <;> simp [add]

theorem add_ne_nil
    (a : α)
    (bs : List α) :
    policy.add a bs ≠ [] := by
  cases bs with
  | nil => simp [add]
  | cons b bs => cases policy <;> simp [add]

theorem mem_of_mem_add
    {policy : DuplicatePolicy}
    {a b : α}
    {bs : List α}
    (h : b ∈ policy.add a bs) :
    b = a ∨ b ∈ bs := by
  cases bs with
  | nil => exact .inl (List.mem_singleton.mp h)
  | cons c bs =>
      cases policy with
      | fail =>
          rcases List.mem_append.mp h with h | h
          · exact .inr h
          · exact .inl (List.mem_singleton.mp h)
      | drop => exact .inr h
      | override =>
          rcases List.mem_cons.mp h with h | h
          · exact .inl h
          · exact .inr (List.mem_cons_of_mem c h)

end DuplicatePolicy

/-- Whether a binding is of a type. -/
def Entry.isOf (t : Ty) (e : Entry) : Bool := e.declaration.type = t

namespace Scope

/-- The bindings of a type that are kept of a list, each with its position in the list. -/
def keptOf (t : Ty) (bindings : List Entry) : List (Entry × Nat) :=
  (bindings.zipIdx.filter (fun p => p.1.isOf t)).foldl
    (fun kept p => p.1.declaration.policy.add p kept) []

/-- One more binding only matters for what is kept of its type. -/
theorem keptOf_concat
    (t : Ty)
    (bindings : List Entry)
    (e : Entry) :
    keptOf t (bindings ++ [e])
      = if e.isOf t then e.declaration.policy.add (e, bindings.length) (keptOf t bindings)
        else keptOf t bindings := by
  unfold keptOf
  rw [List.zipIdx_append, List.filter_append, List.foldl_append]
  by_cases he : e.isOf t = true
  · simp [he]
  · simp [he]

/-- What is kept of a list has positions in it. -/
theorem lt_length_of_mem_keptOf
    {t : Ty}
    {bindings : List Entry}
    {p : Entry × Nat}
    (h : p ∈ keptOf t bindings) :
    p.2 < bindings.length := by
  induction bindings using List.reverseRecOn with
  | nil => cases h
  | append_singleton bindings e ih =>
      rw [keptOf_concat] at h
      rw [List.length_append, List.length_singleton]
      split at h
      · rcases DuplicatePolicy.mem_of_mem_add h with rfl | h
        · exact Nat.lt_succ_self _
        · exact Nat.lt_succ_of_lt (ih h)
      · exact Nat.lt_succ_of_lt (ih h)

/-- Of a type that is declared something is kept. -/
theorem keptOf_ne_nil
    {t : Ty}
    {bindings : List Entry}
    (h : ∃ b ∈ bindings, b.isOf t = true) :
    keptOf t bindings ≠ [] := by
  induction bindings using List.reverseRecOn with
  | nil => exact absurd h (by simp)
  | append_singleton bindings e ih =>
      rw [keptOf_concat]
      split
      · exact DuplicatePolicy.add_ne_nil _ _ _
      · rename_i he
        obtain ⟨b, hb, hof⟩ := h
        rcases List.mem_append.mp hb with hb | hb
        · exact ih ⟨b, hb, hof⟩
        · exact absurd (List.mem_singleton.mp hb ▸ hof) he

/-- Nothing of a type is kept that is not declared. -/
theorem keptOf_eq_nil
    {t : Ty}
    {bindings : List Entry}
    (h : ∀ b ∈ bindings, b.isOf t = false) :
    keptOf t bindings = [] := by
  have hnone : bindings.zipIdx.filter (fun p => p.1.isOf t) = [] :=
    List.filter_eq_nil_iff.mpr fun p hp => by
      simp [h p.1 (List.fst_mem_of_mem_zipIdx hp)]
  rw [keptOf, hnone, List.foldl_nil]

/-- Whether no binding of a type that is to be reported as a collision follows another of
the type. -/
def Uncrowded (t : Ty) (bindings : List Entry) : Prop :=
  bindings.Pairwise fun a b =>
    a.isOf t = true → b.isOf t = true → b.declaration.policy ≠ .fail

/-- At most one binding of a type is kept exactly if none is to be reported. -/
theorem tail_keptOf_eq_nil_iff
    (t : Ty)
    (bindings : List Entry) :
    (keptOf t bindings).tail = [] ↔ Uncrowded t bindings := by
  induction bindings using List.reverseRecOn with
  | nil => simp [keptOf, Uncrowded]
  | append_singleton bindings e ih =>
      have hlast : Uncrowded t (bindings ++ [e]) ↔ Uncrowded t bindings ∧ ∀ b ∈ bindings,
          b.isOf t = true → e.isOf t = true → e.declaration.policy ≠ .fail := by
        simp [Uncrowded, List.pairwise_append]
      rw [hlast, keptOf_concat, ← ih]
      by_cases he : e.isOf t = true
      · rw [if_pos he]
        cases hkept : keptOf t bindings with
        | nil =>
            have hnone : ∀ b ∈ bindings, b.isOf t ≠ true := fun b hb hof =>
              keptOf_ne_nil ⟨b, hb, hof⟩ hkept
            simp only [DuplicatePolicy.add, List.tail_cons, List.tail_nil, true_and, true_iff]
            exact fun b hb hof => absurd hof (hnone b hb)
        | cons p kept =>
            obtain ⟨b, hb, hof⟩ : ∃ b ∈ bindings, b.isOf t = true := by
              by_contra hnone
              have hfalse : ∀ b ∈ bindings, b.isOf t = false := fun b hb =>
                Bool.eq_false_iff.mpr fun hof => hnone ⟨b, hb, hof⟩
              rw [keptOf_eq_nil hfalse] at hkept
              cases hkept
            have hevery : (∀ b ∈ bindings, b.isOf t = true → e.isOf t = true →
                e.declaration.policy ≠ .fail) ↔ e.declaration.policy ≠ .fail :=
              ⟨fun h => h b hb hof he, fun h _ _ _ _ => h⟩
            rw [hevery]
            cases e.declaration.policy <;> simp [DuplicatePolicy.add]
      · rw [if_neg he]
        simp [he]

/-- After an override, what was kept of its type before is there but for the first, and
everything else comes from the override on. -/
theorem keptOf_override
    {t : Ty}
    {earlier : List Entry}
    {o : Entry}
    (hof : o.isOf t = true)
    (hoverride : o.declaration.policy = .override)
    (hbefore : ∃ b ∈ earlier, b.isOf t = true)
    (later : List Entry) :
    ∃ p kept, keptOf t (earlier ++ o :: later) = p :: (keptOf t earlier).tail ++ kept
      ∧ earlier.length ≤ p.2 ∧ ∀ q ∈ kept, earlier.length ≤ q.2 := by
  induction later using List.reverseRecOn with
  | nil =>
      obtain ⟨q, rest, hkept⟩ := List.exists_cons_of_ne_nil (keptOf_ne_nil hbefore)
      refine ⟨(o, earlier.length), [], ?_, Nat.le_refl _, fun q hq => nomatch hq⟩
      rw [keptOf_concat, if_pos hof, hoverride, hkept]
      simp [DuplicatePolicy.add]
  | append_singleton later e ih =>
      obtain ⟨p, kept, hkept, hp, hrest⟩ := ih
      have hlist : earlier ++ o :: (later ++ [e]) = (earlier ++ o :: later) ++ [e] := by simp
      have hlength : earlier.length ≤ (earlier ++ o :: later).length := by simp
      rw [hlist, keptOf_concat, hkept]
      split
      · cases hpolicy : e.declaration.policy with
        | fail =>
            refine ⟨p, kept ++ [(e, (earlier ++ o :: later).length)], by
              simp [DuplicatePolicy.add], hp, fun q hq => ?_⟩
            rcases List.mem_append.mp hq with hq | hq
            · exact hrest q hq
            · rw [List.mem_singleton.mp hq]
              exact hlength
        | drop => exact ⟨p, kept, rfl, hp, hrest⟩
        | override => exact ⟨(e, (earlier ++ o :: later).length), kept, rfl, hlength, hrest⟩
      · exact ⟨p, kept, rfl, hp, hrest⟩

/-! ## The bindings of a scope -/

section Adding

variable {options : Options} {scope : String} {bindings bindings' : List Entry} {e : Entry}

/-- Replacing the first binding of a kind by another of that kind, among those. -/
theorem filter_replaceFirst_self
    {p : Entry → Bool}
    (he : p e = true)
    (bindings : List Entry) :
    (replaceFirst p e bindings).filter p
      = match bindings.filter p with
        | [] => []
        | _ :: rest => e :: rest := by
  induction bindings with
  | nil => rfl
  | cons b bindings ih =>
      by_cases hb : p b = true
      · rw [replaceFirst, if_pos hb, List.filter_cons_of_pos he, List.filter_cons_of_pos hb]
      · rw [replaceFirst, if_neg hb, List.filter_cons_of_neg hb, List.filter_cons_of_neg hb, ih]

/-- Replacing the first binding of a kind by another of that kind, among those of another
kind. -/
theorem filter_replaceFirst_of_disjoint
    {p q : Entry → Bool}
    (hdisjoint : ∀ b, p b = true → ¬ q b = true)
    (he : p e = true)
    (bindings : List Entry) :
    (replaceFirst p e bindings).filter q = bindings.filter q := by
  induction bindings with
  | nil => rfl
  | cons b bindings ih =>
      by_cases hb : p b = true
      · rw [replaceFirst, if_pos hb, List.filter_cons_of_neg (hdisjoint e he),
          List.filter_cons_of_neg (hdisjoint b hb)]
      · rw [replaceFirst, if_neg hb, List.filter_cons, List.filter_cons, ih]

/-- One more binding is added to those of its type. -/
theorem filter_addBinding_self
    (h : addBinding options scope bindings e = .ok bindings') :
    bindings'.filter (Entry.isOf e.declaration.type)
      = e.declaration.policy.add e (bindings.filter (Entry.isOf e.declaration.type)) := by
  have he : e.isOf e.declaration.type = true := decide_eq_true rfl
  have hconcat : (bindings ++ [e]).filter (Entry.isOf e.declaration.type)
      = bindings.filter (Entry.isOf e.declaration.type) ++ [e] := by
    rw [List.filter_append, List.filter_cons_of_pos he, List.filter_nil]
  unfold addBinding at h
  cases hfind : bindings.find? (fun b => b.declaration.type = e.declaration.type) with
  | none =>
      have hempty : bindings.filter (Entry.isOf e.declaration.type) = [] :=
        List.filter_eq_nil_iff.mpr (List.find?_eq_none.mp hfind)
      rw [hfind] at h
      cases h
      rw [hconcat, hempty]
      rfl
  | some existing =>
      obtain ⟨b, rest, hfilter⟩ : ∃ b rest,
          bindings.filter (Entry.isOf e.declaration.type) = b :: rest :=
        List.exists_cons_of_ne_nil <| List.ne_nil_of_mem <|
          List.mem_filter.mpr ⟨List.mem_of_find?_eq_some hfind, List.find?_some hfind⟩
      rw [hfind] at h
      dsimp only at h
      rw [hfilter]
      cases hpolicy : e.declaration.policy with
      | fail =>
          rw [hpolicy] at h
          cases h
          rw [hconcat, hfilter]
          rfl
      | drop =>
          rw [hpolicy] at h
          cases h
          exact hfilter
      | override =>
          rw [hpolicy] at h
          dsimp only at h
          split at h
          · cases h
            exact (filter_replaceFirst_self he bindings).trans (by rw [hfilter]; rfl)
          · cases h

/-- One more binding does not matter for other types. -/
theorem filter_addBinding_of_ne
    (h : addBinding options scope bindings e = .ok bindings')
    {t : Ty}
    (ht : ¬ e.isOf t = true) :
    bindings'.filter (Entry.isOf t) = bindings.filter (Entry.isOf t) := by
  have hconcat : (bindings ++ [e]).filter (Entry.isOf t) = bindings.filter (Entry.isOf t) := by
    rw [List.filter_append, List.filter_cons_of_neg ht, List.filter_nil, List.append_nil]
  have hdisjoint : ∀ b : Entry, b.isOf e.declaration.type = true → ¬ b.isOf t = true := by
    intro b hb hof
    have htype := of_decide_eq_true hb
    exact ht (decide_eq_true (htype.symm.trans (of_decide_eq_true hof)))
  unfold addBinding at h
  split at h
  · cases h
    exact hconcat
  · split at h
    · cases h
      exact hconcat
    · cases h
      rfl
    · split at h
      · cases h
        exact filter_replaceFirst_of_disjoint hdisjoint (decide_eq_true rfl) bindings
      · cases h

/-- One more binding only matters for those of its type. -/
theorem filter_addBinding
    (h : addBinding options scope bindings e = .ok bindings')
    (t : Ty) :
    bindings'.filter (Entry.isOf t)
      = if e.isOf t then e.declaration.policy.add e (bindings.filter (Entry.isOf t))
        else bindings.filter (Entry.isOf t) := by
  by_cases ht : e.isOf t = true
  · obtain rfl : e.declaration.type = t := of_decide_eq_true ht
    rw [if_pos ht, filter_addBinding_self h]
  · rw [if_neg ht, filter_addBinding_of_ne h ht]

/-- With overrides allowed no binding is refused. -/
theorem addBinding_ok
    (hallowed : options.allowOverrides = true)
    (scope : String)
    (bindings : List Entry)
    (e : Entry) :
    ∃ bindings', addBinding options scope bindings e = .ok bindings' := by
  unfold addBinding
  simp only [hallowed, if_true]
  split
  · exact ⟨_, rfl⟩
  · cases e.declaration.policy <;> exact ⟨_, rfl⟩

/-- Of each type the kept bindings are there. -/
theorem filter_of_foldlM
    (h : bindings.foldlM (addBinding options scope) [] = .ok bindings')
    (t : Ty) :
    bindings'.filter (Entry.isOf t) = (keptOf t bindings).map Prod.fst := by
  induction bindings using List.reverseRecOn generalizing bindings' with
  | nil =>
      cases h
      rfl
  | append_singleton bindings e ih =>
      rw [List.foldlM_append] at h
      cases hbefore : bindings.foldlM (addBinding options scope) [] with
      | error err =>
          rw [hbefore] at h
          cases h
      | ok before =>
          rw [hbefore] at h
          have hadd : addBinding options scope before e = .ok bindings' := by
            change (addBinding options scope before e >>= fun b => .ok b) = _ at h
            cases hadd : addBinding options scope before e with
            | error err =>
                rw [hadd] at h
                cases h
            | ok b =>
                rw [hadd] at h
                exact h
          rw [filter_addBinding hadd, keptOf_concat, ih hbefore]
          split
          · exact (DuplicatePolicy.map_add _ Prod.fst (e, bindings.length) _).symm
          · rfl

/-- With overrides allowed all bindings are added. -/
theorem foldlM_addBinding_ok
    (hallowed : options.allowOverrides = true)
    (scope : String)
    (added bindings : List Entry) :
    ∃ bindings', added.foldlM (addBinding options scope) bindings = .ok bindings' := by
  induction added generalizing bindings with
  | nil => exact ⟨bindings, rfl⟩
  | cons e added ih =>
      obtain ⟨between, hadd⟩ := addBinding_ok hallowed scope bindings e
      obtain ⟨bindings', hrest⟩ := ih between
      refine ⟨bindings', ?_⟩
      rw [List.foldlM_cons, hadd]
      exact hrest

end Adding

/-- Which bindings of a type a scope keeps of those it is given. -/
theorem bindings_of_create
    {options : Options}
    {id : ScopeId}
    {parent : Option (ScopeId × Nat)}
    {spec : ScopeSpec}
    {found : Contributions}
    {s : Scope}
    (h : create options id parent spec found = .ok s)
    (t : Ty) :
    s.bindings.filter (Entry.isOf t) = (keptOf t found.bindings).map Prod.fst := by
  unfold create at h
  split at h
  · cases h
  · rename_i bindings hbindings
    cases h
    exact filter_of_foldlM hbindings t

/-- With overrides allowed a scope is created, and an override leaves no earlier binding of
its type in it exactly if none of these is to be reported as a collision with another. -/
theorem create_override_iff
    {options : Options}
    (hallowed : options.allowOverrides = true)
    (id : ScopeId)
    (parent : Option (ScopeId × Nat))
    (spec : ScopeSpec)
    {found : Contributions}
    {earlier later : List Entry}
    {o : Entry}
    (hfound : found.bindings = earlier ++ o :: later)
    (hoverride : o.declaration.policy = .override)
    (hbefore : ∃ b ∈ earlier, b.isOf o.declaration.type = true) :
    ∃ s, create options id parent spec found = .ok s
      ∧ s.bindings.filter (Entry.isOf o.declaration.type)
        = (keptOf o.declaration.type found.bindings).map Prod.fst
      ∧ ((∀ p ∈ keptOf o.declaration.type found.bindings, earlier.length ≤ p.2)
        ↔ Uncrowded o.declaration.type earlier) := by
  obtain ⟨s, hs⟩ : ∃ s, create options id parent spec found = .ok s := by
    obtain ⟨bindings, hbindings⟩ := foldlM_addBinding_ok hallowed spec.name found.bindings []
    unfold create
    rw [hbindings]
    exact ⟨_, rfl⟩
  refine ⟨s, hs, bindings_of_create hs _, ?_⟩
  have hof : o.isOf o.declaration.type = true := decide_eq_true rfl
  obtain ⟨p, kept, hkept, hp, hrest⟩ := keptOf_override hof hoverride hbefore later
  rw [hfound, hkept, ← tail_keptOf_eq_nil_iff]
  constructor
  · intro hnone
    refine List.eq_nil_iff_forall_not_mem.mpr fun q hq => ?_
    have hlt := lt_length_of_mem_keptOf (List.mem_of_mem_tail hq)
    have hle := hnone q (by simp [hq])
    omega
  · intro hnone q hq
    rw [hnone] at hq
    rcases List.mem_cons.mp hq with rfl | hq
    · exact hp
    · exact hrest q hq

/-- Two bindings of one type, of which the second is to be reported as a collision with the
first, and an override. -/
def crowdedBindings : List Entry :=
  [ { declaration := { name := ⟨"app.first"⟩, type := .of ⟨16⟩ } },
    { declaration := { name := ⟨"app.second"⟩, type := .of ⟨16⟩ } },
    { declaration := { name := ⟨"app.third"⟩, type := .of ⟨16⟩, policy := .override } } ]

theorem crowdedBindings_override_iff :
    ∃ s, create {} ⟨0⟩ none { name := "App" } { bindings := crowdedBindings } = .ok s
      ∧ s.bindings.filter (Entry.isOf (.of ⟨16⟩))
        = (keptOf (.of ⟨16⟩) crowdedBindings).map Prod.fst
      ∧ ((∀ p ∈ keptOf (.of ⟨16⟩) crowdedBindings, 2 ≤ p.2)
        ↔ Uncrowded (.of ⟨16⟩) (crowdedBindings.take 2)) := by
  have hallowed : ({} : Options).allowOverrides = true := rfl
  have hfound : ({ bindings := crowdedBindings } : Contributions).bindings
      = crowdedBindings.take 2 ++ crowdedBindings[2] :: [] := rfl
  have hbefore : ∃ b ∈ crowdedBindings.take 2,
      b.isOf crowdedBindings[2].declaration.type = true := by
    decide +kernel
  exact create_override_iff hallowed ⟨0⟩ none { name := "App" } hfound rfl hbefore

/-- The override takes the place of the first binding only, the second one stays. -/
theorem crowdedBindings_not_overridden :
    ∃ s, create {} ⟨0⟩ none { name := "App" } { bindings := crowdedBindings } = .ok s
      ∧ s.bindings = [crowdedBindings[2], crowdedBindings[1]] :=
  ⟨_, rfl, by decide +kernel⟩

end Scope
end Wiring
