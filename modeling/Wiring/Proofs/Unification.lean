import Wiring.Proofs.Hierarchy
import Wiring.Proofs.Typing.Answer
import Wiring.Relation.Unification

/-!
# Unification undoes substitution

A pattern is filled in by a substitution, and what comes out is unified with the pattern
again.  Substitution adds the marks of an occurrence to those of the type that replaces it,
and unification takes them off.  So the substitution comes back, restricted to the type
parameters of the pattern, if the types it binds have none of these marks themselves.

Both stop at a type parameter.  The arguments that a pattern gives to one are lost when it
is replaced, hence parameters that occur only there are not bound.

**Results.**
* `Registry.tryUnify_substitute`: unification gives back the bindings of the parameters
  that occur in the pattern, outside of star projections and arguments of parameters.
-/

namespace Wiring

theorem Substitution.lookup_concat
    (σ : Substitution)
    (p : ClassifierId)
    (v : Ty)
    (c : ClassifierId) :
    (σ ++ [(p, v)]).lookup c = (σ.lookup c).or (if c = p then some v else none) := by
  rw [List.lookup_append, List.lookup_cons]
  by_cases h : c = p
  · rw [beq_iff_eq.mpr h, if_pos h]
  · rw [beq_eq_false_iff_ne.mpr h, if_neg h]
    rfl

namespace Registry

variable {R : Registry} {m σ : Substitution} {p : Ty} {bound : List ClassifierId}

/-! ## Occurrences of type parameters -/

mutual

/-- The occurrences of type parameters in a type outside star projections, with or without
those inside the arguments of type parameters. -/
def occurrences (R : Registry) (inside : Bool) : Ty → List Ty
  | ⟨c, arguments, q, n, s⟩ =>
      if s then []
      else if R.isTypeParameter c then
        ⟨c, arguments, q, n, s⟩ :: if inside then occurrencesAll R inside arguments else []
      else occurrencesAll R inside arguments

/-- The occurrences of type parameters in the types of a list. -/
def occurrencesAll (R : Registry) (inside : Bool) : List Ty → List Ty
  | [] => []
  | t :: ts => occurrences R inside t ++ occurrencesAll R inside ts

end

theorem mem_occurrencesAll
    {inside : Bool}
    {ts : List Ty}
    {t o : Ty}
    (ht : t ∈ ts)
    (ho : o ∈ R.occurrences inside t) :
    o ∈ R.occurrencesAll inside ts := by
  induction ts with
  | nil => exact nomatch ht
  | cons first rest ih =>
      rw [occurrencesAll]
      rcases List.mem_cons.mp ht with rfl | ht
      · exact List.mem_append_left _ ho
      · exact List.mem_append_right _ (ih ht)

/-- Whether a substitution binds an occurrence of a type parameter to a type without marks
that the occurrence adds. -/
def BindsUnmarked (m : Substitution) (occurrence : Ty) : Prop :=
  ∃ v, m.lookup occurrence.classifier = some v ∧ v.star = false ∧ v.nullable = false
    ∧ ∀ q ∈ occurrence.qualifiers, q ∉ v.qualifiers

/-- Whether a pattern that was filled in by a substitution unifies with its instance and
gives back the bindings of the type parameters that occur in it, and no others. -/
def Undoes (R : Registry) (inside : Bool) (m : Substitution) (p : Ty) : Prop :=
  ∃ σ, R.tryUnify (p.substitute m) p = some σ
    ∧ ∀ c, σ.lookup c
      = if c ∈ (R.occurrences inside p).map Ty.classifier then m.lookup c else none

/-! ## One occurrence -/

/-- Whether a substitution has the bindings of another one for some parameters, and no
others. -/
def Restricts (m : Substitution) (bound : List ClassifierId) (σ : Substitution) : Prop :=
  ∀ c, σ.lookup c = if c ∈ bound then m.lookup c else none

/-- The marks that an occurrence adds are taken off again. -/
theorem parameterValue_replacedBy
    (occurrence : Ty)
    {v : Ty}
    (hnullable : v.nullable = false)
    (hqualifiers : ∀ q ∈ occurrence.qualifiers, q ∉ v.qualifiers) :
    parameterValue (occurrence.replacedBy v) occurrence = v := by
  obtain ⟨c, arguments, q, n, s⟩ := v
  dsimp only at hnullable hqualifiers
  subst hnullable
  have hq : (q ∪ occurrence.qualifiers).without occurrence.qualifiers = q := by
    refine QualifierSet.eq_of_mem_iff fun x => ?_
    rw [QualifierSet.mem_without, QualifierSet.mem_union]
    constructor
    · rintro ⟨h | h, hnot⟩
      · exact h
      · exact absurd h hnot
    · exact fun h => ⟨.inl h, fun hocc => hqualifiers x hocc h⟩
  simp [parameterValue, Ty.replacedBy, hq]

theorem isSubset_replacedBy
    (occurrence v : Ty) :
    occurrence.qualifiers.isSubset (occurrence.replacedBy v).qualifiers = true := by
  refine List.all_eq_true.mpr fun q hq => decide_eq_true ?_
  exact QualifierSet.mem_union.mpr (.inr hq)

/-- Binding one more parameter as it is bound already, or as it will be. -/
theorem Restricts.bindParameter
    (h : Restricts m bound σ)
    {c : ClassifierId}
    {v : Ty}
    (hv : m.lookup c = some v) :
    ∃ σ', Registry.bindParameter σ c v = some σ' ∧ Restricts m (bound ++ [c]) σ' := by
  have hc := h c
  unfold Registry.bindParameter
  by_cases hmem : c ∈ bound
  · rw [if_pos hmem, hv] at hc
    rw [hc]
    refine ⟨σ, if_pos rfl, fun d => ?_⟩
    rw [h d]
    by_cases hd : d = c
    · subst hd
      simp [hmem]
    · simp [hd]
  · rw [if_neg hmem] at hc
    rw [hc]
    refine ⟨σ ++ [(c, v)], rfl, fun d => ?_⟩
    rw [Substitution.lookup_concat, h d]
    by_cases hd : d = c
    · subst hd
      simp [hmem, hv]
    · simp [hd]

/-! ## Whole patterns -/

/-- A list of patterns is undone one after the other, if each of them is. -/
theorem Restricts.foldlM
    {unify : Ty → Ty → Substitution → Option Substitution}
    {patterns : List Ty}
    (hunify : ∀ p ∈ patterns, ∀ {bound σ}, Restricts m bound σ →
      ∃ σ', unify (p.substitute m) p σ = some σ'
        ∧ Restricts m (bound ++ (R.occurrences false p).map Ty.classifier) σ')
    (h : Restricts m bound σ) :
    ∃ σ', (((Ty.substituteAll m patterns).zip patterns).foldlM
        (fun σ p => unify p.1 p.2 σ) σ) = some σ'
      ∧ Restricts m (bound ++ (R.occurrencesAll false patterns).map Ty.classifier) σ' := by
  induction patterns generalizing bound σ with
  | nil =>
      refine ⟨σ, rfl, ?_⟩
      rw [occurrencesAll, List.map_nil, List.append_nil]
      exact h
  | cons p patterns ih =>
      obtain ⟨σ₁, hσ₁, h₁⟩ := hunify p List.mem_cons_self h
      obtain ⟨σ₂, hσ₂, h₂⟩ := ih (fun p hp => hunify p (List.mem_cons_of_mem _ hp)) h₁
      refine ⟨σ₂, ?_, ?_⟩
      · rw [Ty.substituteAll, List.zip_cons_cons, List.foldlM_cons, hσ₁]
        exact hσ₂
      · rw [occurrencesAll, List.map_append, ← List.append_assoc]
        exact h₂

/-- A type parameter is bound to what replaced it. -/
theorem Restricts.unify_parameter
    (hstar : p.star = false)
    (hparameter : R.isTypeParameter p.classifier = true)
    (hbinds : BindsUnmarked m p)
    (h : Restricts m bound σ)
    (levels : Nat) :
    ∃ σ', R.unifyWithin (levels + 1) (p.substitute m) p σ = some σ'
      ∧ Restricts m (bound ++ [p.classifier]) σ' := by
  obtain ⟨v, hv, hvstar, hnullable, hqualifiers⟩ := hbinds
  obtain ⟨σ', hσ', h'⟩ := h.bindParameter hv
  refine ⟨σ', ?_, h'⟩
  have hreplaced : (p.replacedBy v).star = false := hvstar
  rw [Ty.substitute_of_bound m hstar hv]
  simp [unifyWithin, hstar, hparameter, hreplaced, isSubset_replacedBy p v,
    parameterValue_replacedBy p hnullable hqualifiers, hσ']

/-- A pattern that is no type parameter is undone if its arguments are. -/
theorem Restricts.unify_arguments
    {levels : Nat}
    (hm : ∀ b ∈ m, R.isTypeParameter b.1 = true)
    (hstar : p.star = false)
    (hparameter : R.isTypeParameter p.classifier = false)
    (hparts : ∀ a ∈ p.arguments, ∀ {bound σ}, Restricts m bound σ →
      ∃ σ', R.unifyWithin levels (a.substitute m) a σ = some σ'
        ∧ Restricts m (bound ++ (R.occurrences false a).map Ty.classifier) σ')
    (h : Restricts m bound σ) :
    ∃ σ', R.unifyWithin (levels + 1) (p.substitute m) p σ = some σ'
      ∧ Restricts m (bound ++ (R.occurrencesAll false p.arguments).map Ty.classifier) σ' := by
  obtain ⟨σ', hσ', h'⟩ := h.foldlM hparts
  refine ⟨σ', ?_, h'⟩
  have hlookup : m.lookup p.classifier = none := by
    refine Substitution.lookup_eq_none fun b hb heq => ?_
    have hkey := hm b hb
    rw [heq, hparameter] at hkey
    cases hkey
  rw [Ty.substitute_of_unbound m hstar hlookup]
  obtain ⟨c, arguments, q, n, s⟩ := p
  cases hstar
  dsimp only at hparameter hσ' ⊢
  have hview : R.subtypeView? ⟨c, Ty.substituteAll m arguments, q, n, false⟩ c
      = some ⟨c, Ty.substituteAll m arguments, q, n, false⟩ :=
    R.subtypeView?_self _
  have hlength : (Ty.substituteAll m arguments).length = arguments.length := by
    simp
  simp only [unifyWithin, hparameter, hview, hlength, Bool.false_eq_true, if_false, if_true]
  exact hσ'

/-- A pattern is undone whatever was bound before, and the parameters that occur in it are
bound in addition. -/
theorem unifyWithin_substitute
    (hm : ∀ b ∈ m, R.isTypeParameter b.1 = true)
    {levels : Nat}
    (hnesting : p.nesting ≤ levels)
    (hbinds : ∀ o ∈ R.occurrences false p, BindsUnmarked m o)
    (h : Restricts m bound σ) :
    ∃ σ', R.unifyWithin levels (p.substitute m) p σ = some σ'
      ∧ Restricts m (bound ++ (R.occurrences false p).map Ty.classifier) σ' := by
  induction levels generalizing p bound σ with
  | zero =>
      have := p.nesting_pos
      omega
  | succ levels ih =>
      obtain ⟨c, arguments, q, n, s⟩ := p
      cases s with
      | true =>
          refine ⟨σ, by simp [unifyWithin], ?_⟩
          simpa [occurrences] using h
      | false =>
          cases hparameter : R.isTypeParameter c with
          | true =>
              have hoccurrences : R.occurrences false ⟨c, arguments, q, n, false⟩
                  = [⟨c, arguments, q, n, false⟩] := by
                simp [occurrences, hparameter]
              rw [hoccurrences] at hbinds ⊢
              exact h.unify_parameter rfl hparameter (hbinds _ (List.mem_singleton_self _))
                levels
          | false =>
              have hoccurrences : R.occurrences false ⟨c, arguments, q, n, false⟩
                  = R.occurrencesAll false arguments := by
                simp [occurrences, hparameter]
              rw [hoccurrences] at hbinds ⊢
              simp only [Ty.nesting, Bool.false_eq_true, if_false] at hnesting
              refine h.unify_arguments hm rfl hparameter fun a (ha : a ∈ arguments) _ _ h => ?_
              have hle := Ty.nesting_le_nestingAll ha
              exact ih (by omega) (fun o ho => hbinds o (mem_occurrencesAll ha ho)) h

/-- Unification gives back the bindings of the type parameters that occur in the pattern,
outside of star projections and arguments of type parameters. -/
theorem tryUnify_substitute
    (hm : ∀ b ∈ m, R.isTypeParameter b.1 = true)
    (hnesting : p.nesting ≤ Limits.relationDepth + 1)
    (hbinds : ∀ o ∈ R.occurrences false p, BindsUnmarked m o) :
    R.Undoes false m p := by
  have hnone : Restricts m [] [] := fun _ => rfl
  exact unifyWithin_substitute hm hnesting hbinds hnone

/-- Two type parameters, two classes, and a generic class. -/
def boxes : Registry :=
  { Registry.initial with
    registered :=
      #[ { name := ⟨"T"⟩, flags := [.typeParameter] },
        { name := ⟨"U"⟩, flags := [.typeParameter] },
        { name := ⟨"Foo"⟩ },
        { name := ⟨"Bar"⟩ },
        { name := ⟨"Box"⟩, typeParameters := [⟨16⟩, ⟨17⟩] } ]
    qualifiers := [⟨"app.io"⟩] }

/-- Both type parameters are bound. -/
def boxContents : Substitution :=
  [(⟨16⟩, .of ⟨18⟩), (⟨17⟩, .setOf (.of ⟨19⟩))]

/-- A parameter that occurs twice, once with a qualifier, and one that may be null. -/
def boxPattern : Ty :=
  .generic ⟨20⟩ [.setOf ((Ty.of ⟨16⟩).qualified ⟨0⟩),
    .generic ⟨20⟩ [(Ty.of ⟨17⟩).markedNullable, .of ⟨16⟩]]

theorem boxPattern_undoes :
    (∀ b ∈ boxContents, boxes.isTypeParameter b.1 = true)
      ∧ boxes.Undoes false boxContents boxPattern := by
  have hkeys : ∀ b ∈ boxContents, boxes.isTypeParameter b.1 = true := by decide +kernel
  refine ⟨hkeys, tryUnify_substitute hkeys (by decide +kernel) ?_⟩
  have hoccurrences : boxes.occurrences false boxPattern
      = [(Ty.of ⟨16⟩).qualified ⟨0⟩, (Ty.of ⟨17⟩).markedNullable, .of ⟨16⟩] := by
    decide +kernel
  have hfoo : boxContents.lookup ⟨16⟩ = some (.of ⟨18⟩) := rfl
  have hbar : boxContents.lookup ⟨17⟩ = some (.setOf (.of ⟨19⟩)) := rfl
  rw [hoccurrences]
  simp only [List.forall_mem_cons]
  refine ⟨⟨_, hfoo, rfl, rfl, ?_⟩, ⟨_, hbar, rfl, rfl, ?_⟩, ⟨_, hfoo, rfl, rfl, ?_⟩, ?_⟩
  · exact fun q _ => QualifierSet.not_mem_empty q
  · exact fun q _ => QualifierSet.not_mem_empty q
  · exact fun q _ => QualifierSet.not_mem_empty q
  · exact fun o ho => nomatch ho

/-- A type parameter with another one as its argument. -/
def nestedPattern : Ty :=
  .generic ⟨16⟩ [.of ⟨17⟩]

/-- The parameter that occurs as an argument of the other one is not bound. -/
theorem nestedPattern_not_undoes :
    (∀ b ∈ boxContents, boxes.isTypeParameter b.1 = true)
      ∧ nestedPattern.nesting ≤ 100
      ∧ (∀ o ∈ boxes.occurrences true nestedPattern, BindsUnmarked boxContents o)
      ∧ ¬ boxes.Undoes true boxContents nestedPattern := by
  have hoccurrences : boxes.occurrences true nestedPattern
      = [nestedPattern, .of ⟨17⟩] := by
    decide +kernel
  refine ⟨by decide +kernel, by decide +kernel, ?_, ?_⟩
  · have hfoo : boxContents.lookup ⟨16⟩ = some (.of ⟨18⟩) := rfl
    have hbar : boxContents.lookup ⟨17⟩ = some (.setOf (.of ⟨19⟩)) := rfl
    rw [hoccurrences]
    simp only [List.forall_mem_cons]
    refine ⟨⟨_, hfoo, rfl, rfl, ?_⟩, ⟨_, hbar, rfl, rfl, ?_⟩, ?_⟩
    · exact fun q _ => QualifierSet.not_mem_empty q
    · exact fun q _ => QualifierSet.not_mem_empty q
    · exact fun o ho => nomatch ho
  · rintro ⟨σ, hσ, hbindings⟩
    have hunify : boxes.tryUnify (nestedPattern.substitute boxContents) nestedPattern
        = some [(⟨16⟩, .of ⟨18⟩)] := by
      decide +kernel
    cases hunify.symm.trans hσ
    have hbar := hbindings ⟨17⟩
    rw [hoccurrences] at hbar
    exact absurd hbar (by decide +kernel)

end Registry
end Wiring
