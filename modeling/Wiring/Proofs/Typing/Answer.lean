import Wiring.Proofs.Dependency
import Wiring.Relation.Assignability

/-!
# Types of answers

The type of a node fits a request if it is assignable to the requested type, or is the
requested type, not nullable.  A request for a nullable type may be answered by a null
node, and an optional one by a missing node.

When a node answers a request, its type fits or is the very type that was requested.
Later the type of a node that invokes a declaration may be narrowed.  What `Answers`
says of it stays true, because such a node keeps the declaration as it was instantiated.

**Results.**
* `Registry.assignableWithin_self`: a type is assignable to itself if it is not nested too
  deeply.
* `Node.Answers.fits`: the type of an answer fits, except if it was narrowed or is a
  nullable type that is nested too deeply.
-/

namespace Wiring

/-! ## Nesting -/

namespace Ty

mutual

/-- How deeply a type is nested, down to star projections. -/
def nesting : Ty → Nat
  | ⟨_, arguments, _, _, s⟩ => if s then 1 else nestingAll arguments + 1

/-- How deeply the types of a list are nested at most. -/
def nestingAll : List Ty → Nat
  | [] => 0
  | t :: ts => max (nesting t) (nestingAll ts)

end

theorem nesting_le_nestingAll
    {t : Ty}
    {ts : List Ty}
    (h : t ∈ ts) :
    t.nesting ≤ nestingAll ts := by
  induction ts with
  | nil => exact nomatch h
  | cons u us ih =>
      rw [nestingAll]
      rcases List.mem_cons.mp h with rfl | h
      · exact Nat.le_max_left _ _
      · exact Nat.le_trans (ih h) (Nat.le_max_right _ _)

theorem nesting_pos (t : Ty) : 0 < t.nesting := by
  cases t with
  | mk c arguments q n s =>
      cases s <;> simp [nesting]

end Ty

namespace Registry

theorem allPairs_self
    {test : Ty → Ty → Bool}
    {ts : List Ty}
    (h : ∀ t ∈ ts, test t t = true) :
    allPairs test ts ts = true := by
  unfold allPairs
  rw [beq_self_eq_true, Bool.true_and, List.all_eq_true]
  intro p hp
  obtain ⟨i, hi⟩ := List.getElem?_of_mem hp
  obtain ⟨hfst, hsnd⟩ := List.getElem?_zip_eq_some.mp hi
  have heq : p.1 = p.2 := Option.some.inj (hfst.symm.trans hsnd)
  rw [heq]
  exact h p.2 (List.mem_of_getElem? hsnd)

/-- A type is assignable to itself if it is compared on enough levels. -/
theorem assignableWithin_self
    (R : Registry)
    {levels : Nat}
    {t : Ty}
    (h : t.nesting ≤ levels) :
    R.assignableWithin levels t t = true := by
  induction levels generalizing t with
  | zero =>
      have := t.nesting_pos
      omega
  | succ levels ih =>
      obtain ⟨c, arguments, q, n, s⟩ := t
      cases s with
      | true => simp [assignableWithin]
      | false =>
          have harguments : ∀ a ∈ arguments, R.assignableWithin levels a a = true := by
            intro a ha
            have hle := Ty.nesting_le_nestingAll ha
            simp only [Ty.nesting, Bool.false_eq_true, if_false] at h
            exact ih (by omega)
          have hpairs := allPairs_self harguments
          simpa [assignableWithin] using hpairs

theorem isAssignable_self
    (R : Registry)
    {t : Ty}
    (h : t.nesting ≤ Limits.relationDepth + 1) :
    R.isAssignable t t = true :=
  R.assignableWithin_self h

end Registry

/-! ## Answers -/

/-- Whether a type is the one that was requested, as it is or not nullable, or is
assignable to it. -/
def Ty.Matches (B : Build) (s t : Ty) : Prop :=
  s = t.nonNull ∨ B.registry.isAssignable s t = true ∨ s = t

namespace Node

/-- Whether a node can answer a request for a type. -/
inductive Fits (B : Build) (n : Node) (t : Ty) (required : Bool) : Prop
  | null : n.kind = .null → t.nullable = true → Fits B n t required
  | missing : n.kind = .missing → required = false → Fits B n t required
  | nonNull : n.type = t.nonNull → Fits B n t required
  | assignable : B.registry.isAssignable n.type t = true → Fits B n t required

/-- Whether the type of a node is not the one that its declaration was instantiated
with. -/
def Refined (n : Node) : Prop :=
  ∃ d receivers, n.kind = .callable d receivers [] ∧ n.type ≠ d.type

/-- What is known of a node that answers a request: its type matches, or that of the
declaration it invokes does. -/
inductive Answers (B : Build) (n : Node) (t : Ty) (required : Bool) : Prop
  | null : n.kind = .null → t.nullable = true → Answers B n t required
  | missing : n.kind = .missing → required = false → Answers B n t required
  | typed : n.type.Matches B t → Answers B n t required
  | declared {d : Declaration} {receivers : List QName} :
      n.kind = .callable d receivers [] →
      d.type.Matches B t →
      Answers B n t required

/-- Whether the type of a node may fail to fit: it was narrowed, or it is the requested
nullable type, which is nested too deeply to be compared. -/
def Unsettled (n : Node) (t : Ty) : Prop :=
  n.Refined
    ∨ (n.type = t ∧ t.nullable = true ∧ Limits.relationDepth + 1 < t.nesting)

variable {B : Build} {n n' : Node} {t : Ty} {required : Bool}

theorem fits_of_matches
    (hsettled : ¬ n.Unsettled t)
    (h : n.type.Matches B t) :
    n.Fits B t required := by
  rcases h with hnonNull | hassignable | hsame
  · exact .nonNull hnonNull
  · exact .assignable hassignable
  · cases hnullable : t.nullable with
    | false =>
        refine .nonNull (hsame.trans ?_)
        obtain ⟨c, arguments, q, n, s⟩ := t
        cases hnullable
        rfl
    | true =>
        refine .assignable ?_
        rw [hsame]
        refine B.registry.isAssignable_self (Nat.le_of_not_lt fun hdeep => ?_)
        exact hsettled (.inr ⟨hsame, hnullable, hdeep⟩)

theorem Answers.fits
    (hsettled : ¬ n.Unsettled t)
    (h : n.Answers B t required) :
    n.Fits B t required := by
  cases h with
  | null hkind hnullable => exact .null hkind hnullable
  | missing hkind hrequired => exact .missing hkind hrequired
  | typed hmatches => exact fits_of_matches hsettled hmatches
  | @declared d receivers hkind hmatches =>
      refine fits_of_matches hsettled ?_
      by_cases hrefined : n.type = d.type
      · rw [hrefined]
        exact hmatches
      · exact absurd (.inl ⟨d, receivers, hkind, hrefined⟩) hsettled

/-- A node that answers a required request answers an optional one. -/
theorem Answers.optional
    (h : n.Answers B t true) :
    n.Answers B t required := by
  cases h with
  | null hkind hnullable => exact .null hkind hnullable
  | missing _ hrequired => exact nomatch hrequired
  | typed hmatches => exact .typed hmatches
  | declared hkind hmatches => exact .declared hkind hmatches

theorem Answers.congr
    (h : n.Answers B t required)
    (hkind : n'.kind = n.kind)
    (htype : n'.type = n.type) :
    n'.Answers B t required := by
  cases h with
  | null hk hnullable => exact .null (hkind.trans hk) hnullable
  | missing hk hrequired => exact .missing (hkind.trans hk) hrequired
  | typed hmatches => exact .typed (htype ▸ hmatches)
  | declared hk hmatches => exact .declared (hkind.trans hk) hmatches

/-- Narrowing the type that a declaration was instantiated with. -/
theorem Answers.narrowed
    (h : n.Answers B t required)
    {d : Declaration}
    {receivers : List QName}
    (hdeclared : n.kind = .callable d receivers [])
    (htype : n.type = d.type)
    (hkind : n'.kind = n.kind) :
    n'.Answers B t required := by
  cases h with
  | null hk hnullable => exact .null (hkind.trans hk) hnullable
  | missing hk hrequired => exact .missing (hkind.trans hk) hrequired
  | typed hmatches => exact .declared (hkind.trans hdeclared) (htype ▸ hmatches)
  | declared hk hmatches => exact .declared (hkind.trans hk) hmatches

end Node
end Wiring
