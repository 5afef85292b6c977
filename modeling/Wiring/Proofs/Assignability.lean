import Wiring.Proofs.Assignability.Transitivity
import Wiring.Proofs.Assignability.Verdict

/-!
# Assignability is a preorder

The rules of assignability are reflexive and transitive.  Whatever passes the test follows
from them.  The converse needs more: where the test says no it must not have been cut short
by a limit, and the view that it compared must be as good as any other.  The first is what
it means that a comparison settles, the second that the hierarchy is coherent.

Everything can stand for the top type.  If that declares a supertype, the top type can stand
for it, and what does not declare it cannot.

**Results.**
* `Orderly.isAssignable_iff_conforms`: where it settles, the test answers by the rules.
* `Orderly.isAssignable_preorder`: where it settles, the test is reflexive and transitive,
  if the top type declares no supertypes.
* `overTop_not_transitive`: it is not transitive otherwise.
-/

namespace Wiring
namespace Registry

variable {R : Registry} {s t : Ty} {levels : Nat}

/-! ## The test and the rules -/

namespace Orderly

/-- Lists on whose types there is a negative verdict do not conform, if no two types do on
which there is one. -/
theorem not_forall₂_of_pairsVerdict
    (hverdict : ∀ {s t}, R.FullyApplied s → R.FullyApplied t →
      R.verdict? levels s t = some false → ¬ R.Conforms s t)
    {ss ts : List Ty}
    (hss : ∀ s ∈ ss, R.FullyApplied s)
    (hts : ∀ t ∈ ts, R.FullyApplied t)
    (h : pairsVerdict? (R.verdict? levels) ss ts = some false) :
    ¬ List.Forall₂ R.Conforms ss ts := by
  intro hconform
  unfold pairsVerdict? at h
  split at h
  · obtain ⟨p, hp, hfalse⟩ := List.mem_map.mp (mem_of_verdictUntil h)
    obtain ⟨hs, ht⟩ := List.of_mem_zip hp
    exact hverdict (hss _ hs) (hts _ ht) hfalse (List.forall₂_zip hconform hp)
  · rename_i hlength
    exact hlength hconform.length_eq

/-- A negative verdict refutes every rule. -/
theorem not_conforms_of_verdict
    (hR : R.Orderly)
    (hs : R.FullyApplied s)
    (ht : R.FullyApplied t)
    (h : R.verdict? levels s t = some false) :
    ¬ R.Conforms s t := by
  induction levels generalizing s t with
  | zero => cases h
  | succ levels ih =>
      intro hconforms
      unfold verdict? at h
      by_cases hstar : t.star = true
      · rw [if_pos hstar] at h
        cases h
      rcases conforms_iff.mp hconforms with hstar' | ⟨hmarks, hrule⟩
      · exact hstar hstar'
      rw [if_neg hstar, if_neg (by simp [hmarks.star]),
        if_neg (by simpa using hmarks.nullable), if_neg (by simp [hmarks.qualifiers])] at h
      cases hrule with
      | same heq harguments =>
          rw [if_pos heq] at h
          exact not_forall₂_of_pairsVerdict ih hs.arguments ht.arguments h harguments
      | @sourceBound bound hne hsource hbound hconforms =>
          rw [if_neg hne, if_pos hsource] at h
          have hfalse := eq_of_verdictUntil h (List.mem_map_of_mem hbound)
          exact ih (hR.bounds _ bound hbound) (ht.marked _ _) hfalse hconforms
      | targetBounds hne hsource htarget hbounds =>
          rw [if_neg hne, if_neg (by simp [hsource]), if_pos htarget] at h
          obtain ⟨bound, hbound, hfalse⟩ := List.mem_map.mp (mem_of_verdictUntil h)
          exact ih (hs.marked _ _) (hR.bounds _ bound hbound) hfalse (hbounds bound hbound)
      | top hne hsource htarget hany =>
          rw [if_neg hne, if_neg (by simp [hsource]), if_neg (by simp [htarget]),
            if_pos hany] at h
          cases h
      | @view v hne hsource htarget hany hviews heq harguments =>
          rw [if_neg hne, if_neg (by simp [hsource]), if_neg (by simp [htarget]),
            if_neg hany] at h
          split at h
          · cases h
          · rename_i hsteps
            cases hview : R.subtypeView? s t.classifier with
            | none =>
                exact not_views_of_subtypeView hR.acyclic hR.regular hR.shallow
                  (Nat.le_of_not_lt hsteps) hview hviews heq
            | some u =>
                rw [hview] at h
                obtain ⟨w, hw, hclassifier, hsame⟩ := views_of_subtypeView hview
                have hcoherent : v.arguments = u.arguments :=
                  (hR.coherent hs hviews hw (heq.trans hclassifier.symm)).trans hsame
                refine not_forall₂_of_pairsVerdict ih ?_ ht.arguments h
                  (hcoherent ▸ harguments)
                rw [← hcoherent]
                exact (hs.views hR.supertypes hviews).arguments

/-- Where it settles, the test answers by the rules. -/
theorem isAssignable_iff_conforms
    (hR : R.Orderly)
    (hs : R.FullyApplied s)
    (ht : R.FullyApplied t)
    (hsettles : R.Settles s t) :
    R.isAssignable s t = true ↔ R.Conforms s t := by
  refine ⟨conforms_of_assignableWithin, fun hconforms => ?_⟩
  obtain ⟨b, hb⟩ := Option.isSome_iff_exists.mp hsettles
  have hanswer : R.isAssignable s t = b := assignableWithin_of_verdict hb
  cases b with
  | true => exact hanswer
  | false => exact absurd hconforms (hR.not_conforms_of_verdict hs ht hb)

/-- Where it settles, the test is reflexive and transitive, unless there is something above
the top type. -/
theorem isAssignable_preorder
    (hR : R.Orderly)
    (htop : R.supertypes .any = []) :
    (∀ {a : Ty}, R.FullyApplied a → R.Settles a a → R.isAssignable a a = true)
      ∧ ∀ {a b c : Ty}, R.FullyApplied a → R.FullyApplied b → R.FullyApplied c →
        R.Settles a c →
        R.isAssignable a b = true →
        R.isAssignable b c = true →
        R.isAssignable a c = true := by
  constructor
  · intro a ha hsettles
    exact (hR.isAssignable_iff_conforms ha ha hsettles).mpr (.refl R a)
  · intro a b c ha hb hc hsettles hab hbc
    have hconforms := hR.conforms_trans htop ha hb hc
      (conforms_of_assignableWithin hab) (conforms_of_assignableWithin hbc)
    exact (hR.isAssignable_iff_conforms ha hc hsettles).mpr hconforms

end Orderly

/-! ## Hierarchies in order -/

theorem mem_entries
    {c : ClassifierId}
    {k : Classifier}
    (h : R.classifier? c = some k) :
    (c, k) ∈ R.entries := by
  unfold classifier? at h
  unfold entries
  split at h
  · obtain ⟨hlt, hk⟩ := Array.getElem?_eq_some_iff.mp h
    refine List.mem_append_left _ (List.mem_map.mpr ⟨(k, c.index), ?_, rfl⟩)
    exact List.mem_zipIdx_iff_getElem?.mpr (by simpa using h)
  · rename_i hbuiltin
    refine List.mem_append_right _ (List.mem_map.mpr
      ⟨(k, c.index - ClassifierId.firstRegistered.index), ?_, ?_⟩)
    · exact List.mem_zipIdx_iff_getElem?.mpr (by simpa using h)
    · have hle : ClassifierId.firstRegistered.index ≤ c.index := by
        simpa [ClassifierId.isBuiltin] using hbuiltin
      obtain ⟨index⟩ := c
      dsimp only at hle ⊢
      rw [Nat.add_sub_cancel' hle]

/-- The types that some part of the classifiers' declarations mentions. -/
def mentioned (R : Registry) (part : Classifier → List Ty) : List (ClassifierId × Ty) :=
  R.entries.flatMap fun p => (part p.2).map fun s => (p.1, s)

theorem mem_mentioned
    {c : ClassifierId}
    {part : Classifier → List Ty}
    (h : s ∈ ((R.classifier? c).map part).getD []) :
    (c, s) ∈ R.mentioned part := by
  cases hc : R.classifier? c with
  | none => simp [hc] at h
  | some k =>
      simp only [hc, Option.map_some, Option.getD_some] at h
      exact List.mem_flatMap.mpr ⟨(c, k), mem_entries hc, List.mem_map_of_mem h⟩

/-! ### Hierarchies with ranks -/

/-- Whether supertypes have lower ranks than what declares them. -/
def Descends (R : Registry) (rank : ClassifierId → Nat) : Prop :=
  ∀ p ∈ R.mentioned Classifier.supertypes, rank p.2.classifier < rank p.1

instance (R : Registry) (rank : ClassifierId → Nat) : Decidable (R.Descends rank) :=
  inferInstanceAs (Decidable (∀ p ∈ R.mentioned Classifier.supertypes,
    rank p.2.classifier < rank p.1))

/-- Whether types hand what they have on to their supertypes: their only argument, or
nothing. -/
def HandsOn (R : Registry) (parameter : ClassifierId) : Prop :=
  ∀ p ∈ R.mentioned Classifier.supertypes,
    (R.typeParameters p.1 = [parameter] ∧ p.2 = .generic p.2.classifier [.of parameter]
      ∧ p.2.classifier ≠ parameter)
    ∨ (R.typeParameters p.1 = [] ∧ p.2 = .of p.2.classifier)

instance (R : Registry) (parameter : ClassifierId) : Decidable (R.HandsOn parameter) :=
  inferInstanceAs (Decidable (∀ p ∈ R.mentioned Classifier.supertypes,
    (R.typeParameters p.1 = [parameter] ∧ p.2 = .generic p.2.classifier [.of parameter]
      ∧ p.2.classifier ≠ parameter)
    ∨ (R.typeParameters p.1 = [] ∧ p.2 = .of p.2.classifier)))

theorem Descends.lt
    {rank : ClassifierId → Nat}
    (hrank : R.Descends rank)
    {sub sup : ClassifierId}
    (h : R.Declares sub sup) :
    rank sup < rank sub := by
  obtain ⟨s, hs, rfl⟩ := List.mem_map.mp h
  exact hrank (sub, s) (mem_mentioned hs)

/-- What is above a classifier has a lower rank, if every supertype has. -/
theorem Descends.lt_of_transGen
    {rank : ClassifierId → Nat}
    (hrank : R.Descends rank)
    {sub sup : ClassifierId}
    (h : Relation.TransGen R.Declares sub sup) :
    rank sup < rank sub := by
  induction h with
  | single hstep => exact hrank.lt hstep
  | tail _ hstep ih => exact Nat.lt_trans (hrank.lt hstep) ih

theorem Descends.length_le
    {rank : ClassifierId → Nat}
    (hrank : R.Descends rank)
    {c : ClassifierId}
    {above : List ClassifierId}
    (h : List.IsChain R.Declares (c :: above)) :
    above.length ≤ rank c := by
  induction above generalizing c with
  | nil => exact Nat.zero_le _
  | cons d above ih =>
      obtain ⟨hstep, hrest⟩ := List.isChain_cons_cons.mp h
      have hlt := hrank.lt hstep
      have hle := ih hrest
      rw [List.length_cons]
      omega

/-- No supertype is a type parameter of what declares it. -/
theorem HandsOn.regular
    {parameter : ClassifierId}
    (hhands : R.HandsOn parameter)
    (c : ClassifierId) :
    ¬ R.DeclaresParameter c := by
  rintro ⟨s, hs, -, hmem⟩
  rcases hhands (c, s) (mem_mentioned hs) with ⟨hparameters, -, hne⟩ | ⟨hparameters, -⟩
  · exact hne (List.mem_singleton.mp (hparameters ▸ hmem))
  · exact List.not_mem_nil (hparameters ▸ hmem)

theorem HandsOn.arguments_of_inherits
    {parameter : ClassifierId}
    (hhands : R.HandsOn parameter)
    {t v : Ty}
    (ht : R.FullyApplied t)
    (h : R.Inherits t v) :
    v.arguments = t.arguments := by
  obtain ⟨s, hs, rfl⟩ := h
  have hcount : t.arguments.length = (R.typeParameters t.classifier).length := by
    cases ht with
    | intro _ hcount => exact hcount fun h => (nomatch h ▸ hs)
  rcases hhands (t.classifier, s) (mem_mentioned hs) with ⟨hparameters, hsup, hne⟩ |
    ⟨hparameters, hsup⟩
  · dsimp only at hparameters hsup hne
    rw [hparameters, List.length_singleton] at hcount
    obtain ⟨x, hx⟩ := List.length_eq_one_iff.mp hcount
    have hlookup : List.lookup s.classifier [(parameter, x)] = none := by
      simp [List.lookup_cons, beq_eq_false_iff_ne.mpr hne]
    rw [hparameters, hx, hsup]
    have hσ : Substitution.ofArguments [parameter] [x] = [(parameter, x)] := rfl
    have hself : (Ty.of parameter).substitute [(parameter, x)] = x :=
      Ty.substitute_generic _ (by simp)
    simp [hσ, Ty.generic, Ty.substitute, hlookup, hself]
  · dsimp only at hparameters hsup
    rw [hparameters, List.length_nil] at hcount
    rw [hparameters, List.length_eq_zero_iff.mp hcount, hsup]
    rfl

/-- A hierarchy with ranks, whose types hand on what they have, is in order. -/
theorem Orderly.of_rank
    (rank : ClassifierId → Nat)
    (parameter : ClassifierId)
    (hrank : R.Descends rank)
    (hle : ∀ c, rank c ≤ Limits.supertypeDepth)
    (hhands : R.HandsOn parameter)
    (hsupertypes : ∀ c, ∀ s ∈ R.supertypes c, R.FullyApplied s)
    (hbounds : ∀ c, ∀ bound ∈ R.upperBounds c, R.FullyApplied bound) :
    R.Orderly where
  acyclic := fun c h => Nat.lt_irrefl (rank c) (hrank.lt_of_transGen h)
  shallow := fun c _ h => Nat.le_trans (hrank.length_le h) (hle c)
  regular := hhands.regular
  coherent := by
    have hsame : ∀ {t v}, R.FullyApplied t → R.Views t v → v.arguments = t.arguments := by
      intro t v ht h
      induction h with
      | refl => rfl
      | tail hviews hstep ih =>
          have hu := ht.views hsupertypes hviews
          exact (hhands.arguments_of_inherits hu hstep).trans ih
    intro t v w ht hv hw _
    exact (hsame ht hv).trans (hsame ht hw).symm
  supertypes := hsupertypes
  bounds := hbounds

theorem FullyApplied.generic
    {c : ClassifierId}
    {arguments : List Ty}
    (hany : c ≠ .any)
    (hparameter : R.isTypeParameter c = false)
    (hcount : arguments.length = (R.typeParameters c).length)
    (harguments : ∀ a ∈ arguments, R.FullyApplied a) :
    R.FullyApplied (.generic c arguments) := by
  refine .intro ?_ (fun _ => hcount) harguments
  rintro (h | h)
  · exact absurd h hany
  · rw [show (Ty.generic c arguments).classifier = c from rfl, hparameter] at h
    cases h

theorem FullyApplied.of
    {c : ClassifierId}
    (hcount : R.typeParameters c = []) :
    R.FullyApplied (.of c) := by
  refine .intro (fun _ => rfl) (fun _ => ?_) fun a ha => (nomatch ha)
  rw [show (Ty.of c).classifier = c from rfl, hcount]
  rfl

/-! ### A hierarchy below the top type -/

/-- Lists are collections and sequences, both of which are iterable.  Dogs are animals, and
there is a type parameter for dogs. -/
def kennel : Registry :=
  { Registry.initial with
    registered :=
      #[ { name := ⟨"T"⟩, flags := [.typeParameter] },
        { name := ⟨"Iterable"⟩, typeParameters := [⟨16⟩] },
        { name := ⟨"Collection"⟩, typeParameters := [⟨16⟩],
          supertypes := [.generic ⟨17⟩ [.of ⟨16⟩]] },
        { name := ⟨"Sequence"⟩, typeParameters := [⟨16⟩],
          supertypes := [.generic ⟨17⟩ [.of ⟨16⟩]] },
        { name := ⟨"List"⟩, typeParameters := [⟨16⟩],
          supertypes := [.generic ⟨18⟩ [.of ⟨16⟩], .generic ⟨19⟩ [.of ⟨16⟩]] },
        { name := ⟨"Animal"⟩ },
        { name := ⟨"Dog"⟩, supertypes := [.of ⟨21⟩] },
        { name := ⟨"D"⟩, flags := [.typeParameter], upperBounds := [.of ⟨22⟩] } ] }

/-- Dogs and lists are the lowest of the kennel. -/
def kennelRank (c : ClassifierId) : Nat :=
  if c = ⟨20⟩ then 2 else if c ∈ [⟨18⟩, ⟨19⟩, ⟨22⟩] then 1 else 0

theorem kennelRank_le
    (c : ClassifierId) :
    kennelRank c ≤ 2 := by
  unfold kennelRank
  split_ifs <;> omega

theorem kennel_supertypes_fullyApplied
    (c : ClassifierId) :
    ∀ s ∈ kennel.supertypes c, kennel.FullyApplied s := by
  intro s hs
  have hall : ∀ p ∈ kennel.mentioned Classifier.supertypes,
      p.2 ∈ [.generic ⟨17⟩ [.of ⟨16⟩], .generic ⟨18⟩ [.of ⟨16⟩], .generic ⟨19⟩ [.of ⟨16⟩],
        .of ⟨21⟩] := by
    decide +kernel
  have hparameter : ∀ a ∈ [Ty.of ⟨16⟩], kennel.FullyApplied a := by
    simpa using FullyApplied.of (c := ⟨16⟩) (by decide +kernel)
  have hs := hall (c, s) (mem_mentioned hs)
  simp only [List.mem_cons, List.not_mem_nil, or_false] at hs
  rcases hs with rfl | rfl | rfl | rfl
  · exact .generic (by decide) (by decide +kernel) (by decide +kernel) hparameter
  · exact .generic (by decide) (by decide +kernel) (by decide +kernel) hparameter
  · exact .generic (by decide) (by decide +kernel) (by decide +kernel) hparameter
  · exact .of (by decide +kernel)

theorem kennel_bounds_fullyApplied
    (c : ClassifierId) :
    ∀ bound ∈ kennel.upperBounds c, kennel.FullyApplied bound := by
  intro bound hbound
  have hall : ∀ p ∈ kennel.mentioned Classifier.upperBounds, p.2 = .of ⟨22⟩ := by
    decide +kernel
  have heq : bound = .of ⟨22⟩ := hall (c, bound) (mem_mentioned hbound)
  rw [heq]
  exact .of (by decide +kernel)

theorem kennel_orderly : kennel.Orderly :=
  .of_rank kennelRank ⟨16⟩ (by decide +kernel)
    (fun c => Nat.le_trans (kennelRank_le c) (by decide)) (by decide +kernel)
    kennel_supertypes_fullyApplied kennel_bounds_fullyApplied

/-- A list of what is bounded by dogs can stand for an iterable of animals, because a
collection of dogs is in between. -/
theorem kennel_isAssignable_preorder :
    kennel.Orderly
      ∧ kennel.supertypes .any = []
      ∧ kennel.isAssignable (.generic ⟨20⟩ [.of ⟨23⟩]) (.generic ⟨20⟩ [.of ⟨23⟩]) = true
      ∧ kennel.isAssignable (.generic ⟨20⟩ [.of ⟨23⟩]) (.generic ⟨17⟩ [.of ⟨21⟩]) = true := by
  have hlist : kennel.FullyApplied (.generic ⟨20⟩ [.of ⟨23⟩]) :=
    .generic (by decide) (by decide +kernel) (by decide +kernel)
      (by simpa using FullyApplied.of (c := ⟨23⟩) (by decide +kernel))
  have hcollection : kennel.FullyApplied (.generic ⟨18⟩ [.of ⟨22⟩]) :=
    .generic (by decide) (by decide +kernel) (by decide +kernel)
      (by simpa using FullyApplied.of (c := ⟨22⟩) (by decide +kernel))
  have hiterable : kennel.FullyApplied (.generic ⟨17⟩ [.of ⟨21⟩]) :=
    .generic (by decide) (by decide +kernel) (by decide +kernel)
      (by simpa using FullyApplied.of (c := ⟨21⟩) (by decide +kernel))
  have htop : kennel.supertypes .any = [] := by decide +kernel
  refine ⟨kennel_orderly, htop, ?_, ?_⟩
  · exact (Orderly.isAssignable_preorder kennel_orderly htop).1 hlist (by decide +kernel)
  · exact (Orderly.isAssignable_preorder kennel_orderly htop).2 hlist hcollection hiterable
      (by decide +kernel) (by decide +kernel) (by decide +kernel)

/-! ### Above the top type -/

/-- Two classes, the first of which the top type declares as its supertype. -/
def overTop : Registry :=
  ({ Registry.initial with
      registered := #[{ name := ⟨"Root"⟩ }, { name := ⟨"Leaf"⟩ }] } : Registry).addSupertype
    .any (.of ⟨16⟩)

theorem overTop_orderly : overTop.Orderly := by
  refine .of_rank (fun c => if c = .any then 1 else 0) ⟨16⟩ (by decide +kernel) (fun c => ?_)
    (by decide +kernel) ?_ ?_
  · split <;> decide
  · intro c s hs
    have hall : ∀ p ∈ overTop.mentioned Classifier.supertypes, p.2 = .of ⟨16⟩ := by
      decide +kernel
    have heq : s = .of ⟨16⟩ := hall (c, s) (mem_mentioned hs)
    rw [heq]
    exact .of (by decide +kernel)
  · intro c bound hbound
    have hnone : overTop.mentioned Classifier.upperBounds = [] := by decide +kernel
    have hmem := mem_mentioned hbound
    rw [hnone] at hmem
    cases hmem

/-- The hierarchy is in order, and every comparison settles.  The second class can stand for
the top type and the top type for the first class, but the second class cannot stand for
the first. -/
theorem overTop_not_transitive :
    overTop.Orderly
      ∧ (∀ t ∈ [Ty.of ⟨17⟩, .of .any, .of ⟨16⟩], overTop.FullyApplied t)
      ∧ ¬ ∀ {a b c : Ty},
        overTop.FullyApplied a → overTop.FullyApplied b → overTop.FullyApplied c →
        overTop.Settles a b → overTop.Settles b c → overTop.Settles a c →
        overTop.isAssignable a b = true →
        overTop.isAssignable b c = true →
        overTop.isAssignable a c = true := by
  have hleaf : overTop.FullyApplied (.of ⟨17⟩) := .of (by decide +kernel)
  have htop : overTop.FullyApplied (.of .any) := .of (by decide +kernel)
  have hroot : overTop.FullyApplied (.of ⟨16⟩) := .of (by decide +kernel)
  refine ⟨overTop_orderly, ?_, fun htransitive => ?_⟩
  · simpa using ⟨hleaf, htop, hroot⟩
  · have hassignable := htransitive hleaf htop hroot (by decide +kernel) (by decide +kernel)
      (by decide +kernel) (by decide +kernel) (by decide +kernel)
    exact absurd hassignable (by decide +kernel)

end Registry
end Wiring
