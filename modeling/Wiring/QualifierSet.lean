import Wiring.Identity

/-!
# Sets of qualifiers

A qualifier set is kept as a strictly ascending list of qualifier ids, so that
two sets with the same members are equal.

**Results.**
* `mem_insert`, `mem_ofList`, `mem_union`, `mem_without`: the members of each
  operation's result.
* `eq_of_mem_iff`: a set is determined by its members.
* `union_assoc`, `union_empty`: unions of several sets.
-/

namespace Wiring

/-- A set of qualifiers. -/
structure QualifierSet where
  ids : List QualifierId
  ascending : ids.Pairwise (·.index < ·.index)
  deriving DecidableEq

namespace QualifierSet

/-- Put `q` into an ascending list, once. -/
def insertAscending (q : QualifierId) : List QualifierId → List QualifierId
  | [] => [q]
  | r :: rs =>
      if q.index < r.index then q :: r :: rs
      else if q = r then r :: rs
      else r :: insertAscending q rs

theorem mem_insertAscending {q x : QualifierId} {ids : List QualifierId} :
    x ∈ insertAscending q ids ↔ x = q ∨ x ∈ ids := by
  induction ids with
  | nil => simp [insertAscending]
  | cons r rs ih =>
      simp only [insertAscending]
      split
      · simp
      · split
        · rename_i h
          subst h
          simp
        · simp only [List.mem_cons, ih]
          exact or_left_comm

theorem pairwise_insertAscending {q : QualifierId} {ids : List QualifierId}
    (h : ids.Pairwise (·.index < ·.index)) :
    (insertAscending q ids).Pairwise (·.index < ·.index) := by
  induction ids with
  | nil => simp [insertAscending]
  | cons r rs ih =>
      obtain ⟨hr, hrs⟩ := List.pairwise_cons.mp h
      simp only [insertAscending]
      split
      · rename_i hq
        refine List.pairwise_cons.mpr ⟨?_, h⟩
        intro x hx
        rcases List.mem_cons.mp hx with rfl | hx
        · exact hq
        · exact Nat.lt_trans hq (hr x hx)
      · split
        · exact h
        · rename_i h₁ h₂
          refine List.pairwise_cons.mpr ⟨?_, ih hrs⟩
          intro x hx
          rcases mem_insertAscending.mp hx with rfl | hx
          · have : x.index ≠ r.index := fun e => h₂ (QualifierId.ext e)
            omega
          · exact hr x hx

/-- The set without members. -/
def empty : QualifierSet := ⟨[], .nil⟩

instance : EmptyCollection QualifierSet := ⟨empty⟩

instance : Inhabited QualifierSet := ⟨empty⟩

instance : Membership QualifierId QualifierSet := ⟨fun s q => q ∈ s.ids⟩

instance (q : QualifierId) (s : QualifierSet) : Decidable (q ∈ s) :=
  inferInstanceAs (Decidable (q ∈ s.ids))

/-- Whether the set has no members. -/
def isEmpty (s : QualifierSet) : Bool := s.ids.isEmpty

/-- Add one qualifier. -/
def insert (s : QualifierSet) (q : QualifierId) : QualifierSet :=
  ⟨insertAscending q s.ids, pairwise_insertAscending s.ascending⟩

/-- The set of the qualifiers of a list. -/
def ofList (qs : List QualifierId) : QualifierSet :=
  qs.foldr (fun q s => s.insert q) ∅

/-- The set of one qualifier. -/
def single (q : QualifierId) : QualifierSet :=
  (∅ : QualifierSet).insert q

/-- The members of either set. -/
def union (s t : QualifierSet) : QualifierSet :=
  s.ids.foldr (fun q u => u.insert q) t

instance : Union QualifierSet := ⟨union⟩

/-- The members of `s` that are not in `t`. -/
def without (s t : QualifierSet) : QualifierSet :=
  ⟨s.ids.filter (· ∉ t), s.ascending.filter _⟩

/-- Whether every member of `s` is in `t`. -/
def isSubset (s t : QualifierSet) : Bool :=
  s.ids.all (· ∈ t)

theorem mem_def {q : QualifierId} {s : QualifierSet} : q ∈ s ↔ q ∈ s.ids :=
  Iff.rfl

@[simp] theorem not_mem_empty (q : QualifierId) : q ∉ (∅ : QualifierSet) :=
  List.not_mem_nil

@[simp] theorem mem_insert {q x : QualifierId} {s : QualifierSet} :
    x ∈ s.insert q ↔ x = q ∨ x ∈ s :=
  mem_insertAscending

@[simp] theorem mem_ofList {x : QualifierId} {qs : List QualifierId} :
    x ∈ ofList qs ↔ x ∈ qs := by
  induction qs with
  | nil => simp [ofList]
  | cons q qs ih =>
      change x ∈ (ofList qs).insert q ↔ _
      simp [ih]

@[simp] theorem mem_union {x : QualifierId} {s t : QualifierSet} :
    x ∈ s ∪ t ↔ x ∈ s ∨ x ∈ t := by
  obtain ⟨ids, h⟩ := s
  change x ∈ ids.foldr (fun q u => u.insert q) t ↔ x ∈ ids ∨ x ∈ t
  clear h
  induction ids with
  | nil => simp
  | cons q qs ih => simp [ih, or_assoc]

@[simp] theorem mem_without {x : QualifierId} {s t : QualifierSet} :
    x ∈ s.without t ↔ x ∈ s ∧ x ∉ t := by
  simp [without, mem_def]

/-- A qualifier set is determined by its members. -/
theorem eq_of_mem_iff {s t : QualifierSet} (h : ∀ q, q ∈ s ↔ q ∈ t) : s = t := by
  obtain ⟨a, ha⟩ := s
  obtain ⟨b, hb⟩ := t
  suffices a = b by subst this; rfl
  replace h : ∀ q, q ∈ a ↔ q ∈ b := h
  induction a generalizing b with
  | nil =>
      cases b with
      | nil => rfl
      | cons r rs => exact absurd ((h r).mpr List.mem_cons_self) List.not_mem_nil
  | cons q qs ih =>
      cases b with
      | nil => exact absurd ((h q).mp List.mem_cons_self) List.not_mem_nil
      | cons r rs =>
          obtain ⟨hq, hqs⟩ := List.pairwise_cons.mp ha
          obtain ⟨hr, hrs⟩ := List.pairwise_cons.mp hb
          have hqr : q = r := by
            rcases List.mem_cons.mp ((h q).mp List.mem_cons_self) with e | hm
            · exact e
            · rcases List.mem_cons.mp ((h r).mpr List.mem_cons_self) with e | hm'
              · exact e.symm
              · have := hr q hm
                have := hq r hm'
                omega
          subst hqr
          refine congrArg (q :: ·) (ih hqs rs hrs ?_)
          intro x
          constructor
          · intro hx
            rcases List.mem_cons.mp ((h x).mp (List.mem_cons_of_mem q hx)) with e | hm
            · subst e
              exact absurd (hq x hx) (Nat.lt_irrefl x.index)
            · exact hm
          · intro hx
            rcases List.mem_cons.mp ((h x).mpr (List.mem_cons_of_mem q hx)) with e | hm
            · subst e
              exact absurd (hr x hx) (Nat.lt_irrefl x.index)
            · exact hm

theorem union_assoc (s t u : QualifierSet) : s ∪ t ∪ u = s ∪ (t ∪ u) :=
  eq_of_mem_iff fun q => by simp only [mem_union, or_assoc]

theorem union_empty (s : QualifierSet) : s ∪ ∅ = s :=
  eq_of_mem_iff fun q => by simp

end QualifierSet
end Wiring
