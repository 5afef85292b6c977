import Wiring.Proofs.Assignability.Views
import Wiring.Relation.Assignability

/-!
# Comparisons that stay within their limits

The test for assignability answers no where it runs into a limit: at types that are nested
too deeply, and after a walk through supertypes that took too many steps.  Its verdict is
the same answer, but none at all if the comparison got to one of the two limits.  A
comparison gets no further than it has to, so its verdict depends on the order in which
parts are compared.

**Results.**
* `assignableWithin_of_verdict`: a verdict is the answer of the test.
-/

namespace Wiring
namespace Registry

variable {R : Registry} {levels : Nat} {s t : Ty} {stop b : Bool}

/-! ## Several verdicts -/

/-- The verdict on a list of comparisons that are made one after the other, up to the first
that comes to `stop`. -/
def verdictUntil (stop : Bool) : List (Option Bool) → Option Bool
  | [] => some !stop
  | none :: _ => none
  | some b :: rest => if b = stop then some stop else verdictUntil stop rest

theorem mem_of_verdictUntil
    {verdicts : List (Option Bool)}
    (h : verdictUntil stop verdicts = some stop) :
    some stop ∈ verdicts := by
  induction verdicts with
  | nil => simp [verdictUntil] at h
  | cons first rest ih =>
      cases first with
      | none => cases h
      | some b =>
          rw [verdictUntil] at h
          split at h
          · rename_i heq
            exact heq ▸ List.mem_cons_self
          · exact List.mem_cons_of_mem _ (ih h)

theorem eq_of_verdictUntil
    {verdicts : List (Option Bool)}
    (h : verdictUntil stop verdicts = some !stop)
    {verdict : Option Bool}
    (hverdict : verdict ∈ verdicts) :
    verdict = some !stop := by
  induction verdicts with
  | nil => exact nomatch hverdict
  | cons first rest ih =>
      cases first with
      | none => cases h
      | some b =>
          rw [verdictUntil] at h
          split at h
          · simp at h
          · rename_i hne
            rcases List.mem_cons.mp hverdict with rfl | hverdict
            · exact congrArg some (Bool.eq_not_of_ne hne)
            · exact ih h hverdict

/-- A verdict on several comparisons is the answer to all of them, if each verdict is the
answer to its comparison. -/
theorem all_of_verdictUntil
    {α : Type}
    {xs : List α}
    {verdict : α → Option Bool}
    {answer : α → Bool}
    (hanswer : ∀ x ∈ xs, ∀ b, verdict x = some b → answer x = b)
    (h : verdictUntil false (xs.map verdict) = some b) :
    xs.all answer = b := by
  cases b with
  | false =>
      obtain ⟨x, hx, hverdict⟩ := List.mem_map.mp (mem_of_verdictUntil h)
      exact List.all_eq_false.mpr ⟨x, hx, by simp [hanswer x hx false hverdict]⟩
  | true =>
      refine List.all_eq_true.mpr fun x hx => hanswer x hx true ?_
      exact eq_of_verdictUntil h (List.mem_map_of_mem hx)

/-- A verdict on several comparisons is the answer to any of them, if each verdict is the
answer to its comparison. -/
theorem any_of_verdictUntil
    {α : Type}
    {xs : List α}
    {verdict : α → Option Bool}
    {answer : α → Bool}
    (hanswer : ∀ x ∈ xs, ∀ b, verdict x = some b → answer x = b)
    (h : verdictUntil true (xs.map verdict) = some b) :
    xs.any answer = b := by
  cases b with
  | true =>
      obtain ⟨x, hx, hverdict⟩ := List.mem_map.mp (mem_of_verdictUntil h)
      exact List.any_eq_true.mpr ⟨x, hx, hanswer x hx true hverdict⟩
  | false =>
      refine List.any_eq_false.mpr fun x hx => ?_
      have hverdict := eq_of_verdictUntil h (List.mem_map_of_mem hx)
      simp [hanswer x hx false hverdict]

/-- The verdict on lists that are compared position by position. -/
def pairsVerdict? (verdict : Ty → Ty → Option Bool) (source target : List Ty) :
    Option Bool :=
  if source.length = target.length then
    verdictUntil false ((source.zip target).map fun p => verdict p.1 p.2)
  else some false

theorem allPairs_of_pairsVerdict
    {verdict : Ty → Ty → Option Bool}
    {test : Ty → Ty → Bool}
    (htest : ∀ s t b, verdict s t = some b → test s t = b)
    {ss ts : List Ty}
    (h : pairsVerdict? verdict ss ts = some b) :
    allPairs test ss ts = b := by
  unfold pairsVerdict? at h
  unfold allPairs
  split at h
  · rename_i hlength
    rw [beq_iff_eq.mpr hlength, Bool.true_and]
    exact all_of_verdictUntil (fun p _ b => htest p.1 p.2 b) h
  · rename_i hlength
    rw [beq_eq_false_iff_ne.mpr hlength, Bool.false_and]
    exact Option.some.inj h

/-! ## One comparison -/

/-- The verdict on whether `source` is assignable to `target`, compared on at most `levels`
levels. -/
def verdict? (R : Registry) : (levels : Nat) → (source target : Ty) → Option Bool
  | 0, _, _ => none
  | levels + 1, source, target =>
      if target.star then some true
      else if source.star then some false
      else if source.nullable && !target.nullable then some false
      else if source.qualifiers ≠ target.qualifiers then some false
      else if source.classifier = target.classifier then
        pairsVerdict? (verdict? R levels) source.arguments target.arguments
      else if R.isTypeParameter source.classifier then
        verdictUntil true ((R.upperBounds source.classifier).map
          fun bound => verdict? R levels bound target.unqualified)
      else if R.isTypeParameter target.classifier then
        verdictUntil false ((R.upperBounds target.classifier).map
          fun bound => verdict? R levels source.unqualified.nonNull bound)
      else if target.classifier = .any then some true
      else if Limits.walkSteps < R.viewSteps source target.classifier then none
      else
        match R.subtypeView? source target.classifier with
        | some view => pairsVerdict? (verdict? R levels) view.arguments target.arguments
        | none => some false

/-- Whether a comparison stays within its limits. -/
def Settles (R : Registry) (source target : Ty) : Prop :=
  (R.verdict? (Limits.relationDepth + 1) source target).isSome = true

instance (R : Registry) (source target : Ty) : Decidable (R.Settles source target) :=
  inferInstanceAs (Decidable (_ = true))

/-- A verdict that depends on a condition is the answer that depends on it. -/
theorem ite_of_verdict
    {c : Prop}
    [Decidable c]
    {x y : Option Bool}
    {u w : Bool}
    (h : (if c then x else y) = some b)
    (hthen : x = some b → u = b)
    (helse : y = some b → w = b) :
    (if c then u else w) = b := by
  split
  · rename_i hc
    rw [if_pos hc] at h
    exact hthen h
  · rename_i hc
    rw [if_neg hc] at h
    exact helse h

/-- A verdict is the answer of the test. -/
theorem assignableWithin_of_verdict
    (h : R.verdict? levels s t = some b) :
    R.assignableWithin levels s t = b := by
  induction levels generalizing s t b with
  | zero => cases h
  | succ levels ih =>
      unfold verdict? at h
      -- the marks of the two types
      refine ite_of_verdict h Option.some.inj fun h => ?_
      refine ite_of_verdict h Option.some.inj fun h => ?_
      refine ite_of_verdict h Option.some.inj fun h => ?_
      refine ite_of_verdict h Option.some.inj fun h => ?_
      -- their classifiers
      refine ite_of_verdict h (allPairs_of_pairsVerdict fun _ _ _ => ih) fun h => ?_
      refine ite_of_verdict h (any_of_verdictUntil fun _ _ _ => ih) fun h => ?_
      refine ite_of_verdict h (all_of_verdictUntil fun _ _ _ => ih) fun h => ?_
      refine ite_of_verdict h Option.some.inj fun h => ?_
      split at h
      · cases h
      · cases hview : R.subtypeView? s t.classifier with
        | none =>
            rw [hview] at h
            exact Option.some.inj h
        | some view =>
            rw [hview] at h
            exact allPairs_of_pairsVerdict (fun _ _ _ => ih) h

end Registry
end Wiring
