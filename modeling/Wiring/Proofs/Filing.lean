import Wiring.Proofs.Hierarchy
import Wiring.Proofs.Offer
import Wiring.Proofs.Refinement

/-!
# Filing of global bindings

The catalog files a binding under everything above the classifier it produces, and a
request only looks at the bindings that are filed under its own classifier.  That passes
over no binding that matches an ordinary request.  But a declaration with assisted
parameters is filed under what it produces and matches requests for functions.  The top
type, star projections and type parameters are matched by bindings that are filed
elsewhere as well.

**Results.**
* `Catalog.build_covers_iff`: the bindings that are filed under the classifier of a request
  match it in the same way as all bindings do exactly if no binding filed elsewhere matches
  in one of these ways.
-/

namespace Wiring

/-! ## Instances of declarations -/

theorem Substitution.mem_insertNew
    {σ : Substitution}
    {p : ClassifierId}
    {v : Ty}
    {b : ClassifierId × Ty}
    (h : b ∈ σ.insertNew p v) :
    b ∈ σ ∨ b = (p, v) := by
  unfold insertNew at h
  split at h
  · exact .inl h
  · exact (List.mem_append.mp h).imp_right List.mem_singleton.mp

/-- Parameters that nothing binds are bound to star projections. -/
theorem Substitution.mem_starRest
    {σ : Substitution}
    {parameters : List ClassifierId}
    {b : ClassifierId × Ty}
    (h : b ∈ σ.starRest parameters) :
    b ∈ σ ∨ b.2 = .starProjection := by
  unfold starRest at h
  induction parameters generalizing σ with
  | nil => exact .inl h
  | cons p parameters ih =>
      rcases ih h with hb | hb
      · rcases mem_insertNew hb with hb | hb
        · exact .inl hb
        · exact .inr (by rw [hb])
      · exact .inr hb

namespace Registry

variable {R : Registry}

/-- A declaration is instantiated by binding type parameters, and anything else to star
projections only. -/
theorem instantiation?_binds
    {d : Declaration}
    {t : Ty}
    {σ : Substitution}
    (h : R.instantiation? d t = some σ)
    {b : ClassifierId × Ty}
    (hb : b ∈ σ) :
    R.isTypeParameter b.1 = true ∨ b.2 = .starProjection := by
  unfold instantiation? at h
  split at h
  · cases h
    rcases Substitution.mem_starRest hb with hb | hb
    · exact nomatch hb
    · exact .inr hb
  · obtain ⟨found, hfound, rfl⟩ := Option.map_eq_some_iff.mp h
    rcases Substitution.mem_starRest hb with hb | hb
    · have hall := unifyWithin_all (Q := fun b => R.isTypeParameter b.1 = true)
        (σ := []) (fun _ _ _ hparameter => hparameter) (fun _ hb => nomatch hb) hfound
      exact .inl (hall b hb)
    · exact .inr hb

/-- If only type parameters are replaced, and others by star projections, a type of
another classifier keeps it or becomes a star projection. -/
theorem classifier_erase_substitute
    {σ : Substitution}
    {t : Ty}
    (hσ : ∀ b ∈ σ, R.isTypeParameter b.1 = true ∨ b.2 = .starProjection)
    (ht : R.isTypeParameter t.classifier = false) :
    (R.erase (t.substitute σ)).star = true
      ∨ (R.erase (t.substitute σ)).classifier = t.classifier := by
  obtain ⟨c, arguments, q, n, s⟩ := t
  dsimp only at ht
  cases s with
  | true => simp [Ty.substitute, erase]
  | false =>
      cases hlookup : σ.lookup c with
      | none => simp [Ty.substitute, hlookup, erase, ht]
      | some replacement =>
          obtain ⟨before, after, hsplit, -⟩ := List.lookup_eq_some_iff.mp hlookup
          have hmem : (c, replacement) ∈ σ := by simp [hsplit]
          rcases hσ _ hmem with hc | hc
          · simp [ht] at hc
          · dsimp only at hc
            subst hc
            simp [Ty.substitute, hlookup, Ty.replacedBy, Ty.starProjection, erase]

/-- Unless it produces a bare type parameter, the instance of a declaration produces the
declared classifier or is a star projection. -/
theorem instantiate?_classifier
    {d d' : Declaration}
    {t : Ty}
    (h : R.instantiate? d t = some d')
    (hproduced : R.isTypeParameter d.type.classifier = false) :
    d'.type.star = true ∨ d'.type.classifier = d.type.classifier := by
  unfold instantiate? at h
  split at h
  · cases h
    exact .inr rfl
  · obtain ⟨σ, hσ, rfl⟩ := Option.map_eq_some_iff.mp h
    exact classifier_erase_substitute (fun b hb => instantiation?_binds hσ hb) hproduced

/-- What is assignable to an ordinary type is no star projection and can be viewed as its
classifier. -/
theorem view_of_isAssignable
    {s t : Ty}
    (h : R.isAssignable s t = true)
    (hs : R.isTypeParameter s.classifier = false)
    (hstar : t.star = false)
    (ht : R.isTypeParameter t.classifier = false)
    (htop : t.classifier ≠ .any) :
    s.star = false ∧ ∃ v, R.subtypeView? s t.classifier = some v := by
  simp only [isAssignable, assignableWithin, hstar, hs, ht, Bool.false_eq_true, if_false]
    at h
  split at h
  · cases h
  · rename_i hs'
    refine ⟨by simpa using hs', ?_⟩
    split at h
    · cases h
    · split at h
      · cases h
      · split at h
        · rename_i heq
          rw [← heq]
          exact ⟨s, subtypeView?_self R s⟩
        · split at h
          · rename_i v hv
            exact ⟨v, hv⟩
          · cases h

/-- The ways in which a declaration may match a request from elsewhere than where it is
filed: it takes assisted parameters; the request is for a star projection, the top type or
a type parameter; or it is not known what is above the produced classifier, because a
supertype there is a bare type parameter or there is too much of it. -/
inductive Strays (R : Registry) (d : Declaration) (t : Ty) : Prop
  | assisted : d.hasAssisted = true → Strays R d t
  | star : t.star = true → Strays R d t
  | top : t.classifier = .any → Strays R d t
  | parameter : R.isTypeParameter t.classifier = true → Strays R d t
  | above {c : ClassifierId} :
      R.Below d.type.classifier c → R.DeclaresParameter c → Strays R d t
  | tooLong :
      Limits.walkSteps < (R.supertypeClosure d.type.classifier).length → Strays R d t

/-- Otherwise the classifier of a request is above what a matching declaration
produces. -/
theorem mem_closure_of_match?
    {e : Entry}
    {t : Ty}
    {context : CallContext}
    {m : Match}
    (h : R.match? e t context = some m)
    (hproduced : R.isTypeParameter e.declaration.type.classifier = false)
    (hstays : ¬ R.Strays e.declaration t) :
    t.classifier ∈ R.supertypeClosure e.declaration.type.classifier := by
  have hassisted : e.declaration.hasAssisted = false := by
    simpa using fun h => hstays (.assisted h)
  have hstar : t.star = false := by simpa using fun h => hstays (.star h)
  have hparameter : R.isTypeParameter t.classifier = false := by
    simpa using fun h => hstays (.parameter h)
  have hlength : (R.supertypeClosure e.declaration.type.classifier).length
      ≤ Limits.walkSteps := by
    simpa using fun h => hstays (.tooLong h)
  obtain ⟨-, hinstance, -⟩ := match?_eq_some h
  have heq := hinstance.instance_eq
  rw [hinstance.assisted, hassisted] at heq
  obtain ⟨hinstantiated, hassignable⟩ := heq
  -- the instance is no star projection, so it has the declared classifier
  rcases instantiate?_classifier hinstantiated hproduced with hs | hc
  · simp [isAssignable, assignableWithin, hstar, hs] at hassignable
  · obtain ⟨-, v, hv⟩ := view_of_isAssignable hassignable (by rw [hc]; exact hproduced) hstar
      hparameter (fun h => hstays (.top h))
    refine mem_supertypeClosure hlength ?_
    rw [← hc]
    exact below_of_subtypeView (fun c hbelow hdeclares =>
      hstays (.above (hc ▸ hbelow) hdeclares)) hv

end Registry

/-! ## The catalog -/

/-- Taking elements out of a list before a search finds the same exactly if none of them
would be found. -/
theorem filterMap_filter_eq_iff
    {α β : Type}
    {p : α → Bool}
    {f : α → Option β}
    {as : List α} :
    (as.filter p).filterMap f = as.filterMap f ↔ ∀ a ∈ as, p a = false → f a = none := by
  induction as with
  | nil => simp
  | cons a as ih =>
      rw [List.forall_mem_cons, ← ih]
      cases hp : p a with
      | true =>
          rw [List.filter_cons_of_pos hp]
          cases hf : f a <;> simp [hf]
      | false =>
          rw [List.filter_cons_of_neg (by simp [hp])]
          cases hf : f a with
          | none => simp [hf]
          | some b =>
              have hle := (List.filter_sublist (p := p) (l := as)).filterMap f |>.length_le
              have hne : (as.filter p).filterMap f ≠ b :: as.filterMap f := by
                intro heq
                have hlength := congrArg List.length heq
                rw [List.length_cons] at hlength
                omega
              simp [hf, hne]

namespace Catalog

/-- Where the bindings of a built catalog are filed. -/
theorem build_filed
    {R : Registry}
    {source : CatalogSource}
    {K : Catalog}
    (h : build R source = .ok K)
    {b : FiledBinding}
    (hb : b ∈ K.filed)
    (c : ClassifierId) :
    b.isUnder c = (R.isTypeParameter b.entry.declaration.type.classifier
      || (R.supertypeClosure b.entry.declaration.type.classifier).contains c) := by
  unfold build at h
  split at h
  · cases h
  · split at h
    · cases h
    · cases h
      obtain ⟨e, -, hfile⟩ := List.mem_filterMap.mp hb
      unfold file? at hfile
      dsimp only at hfile
      split at hfile
      · cases hfile
      · split at hfile
        · rename_i hparameter
          cases hfile
          simp [FiledBinding.isUnder, hparameter]
        · rename_i hparameter
          cases hfile
          simp [FiledBinding.isUnder, hparameter]

/-- The bindings that are filed under the classifier of a request match it as all bindings
do exactly if no other binding matches in one of the ways that filing does not cover. -/
theorem build_covers_iff
    {R : Registry}
    {source : CatalogSource}
    {K : Catalog}
    (h : build R source = .ok K)
    (t : Ty)
    (context : CallContext) :
    (K.implicitFor t.classifier).filterMap (fun e => R.match? e t context)
        = K.bindings.filterMap (fun e => R.match? e t context)
      ↔ ∀ b ∈ K.filed, b.isUnder t.classifier = false → R.Strays b.entry.declaration t →
        R.match? b.entry t context = none := by
  unfold implicitFor bindings
  rw [List.filterMap_map, List.filterMap_map, filterMap_filter_eq_iff]
  constructor
  · intro hnone b hb helsewhere _
    exact hnone b hb helsewhere
  · intro hnone b hb helsewhere
    by_cases hstrays : R.Strays b.entry.declaration t
    · exact hnone b hb helsewhere hstrays
    · rw [build_filed h hb, Bool.or_eq_false_iff] at helsewhere
      obtain ⟨hproduced, hunlisted⟩ := helsewhere
      refine Option.eq_none_iff_forall_ne_some.mpr fun m hm => ?_
      have hmem := Registry.mem_closure_of_match? hm hproduced hstrays
      simp [hmem] at hunlisted

/-! ## A factory that is not found -/

/-- Two classes, `A` and `Foo`. -/
def makers : Registry :=
  { Registry.initial with
    registered := #[{ name := ⟨"A"⟩ }, { name := ⟨"Foo"⟩ }] }

/-- A global declaration of `Foo` that takes an `A` from its caller. -/
def makerSource : CatalogSource where
  declarations :=
    [ { name := ⟨"app.make"⟩
        type := .of ⟨17⟩
        parameters := [{ name := "a", type := .of ⟨16⟩, assisted := true }] } ]

/-- The catalog of that declaration. -/
def makerCatalog : Catalog :=
  match build makers makerSource with
  | .ok K => K
  | .error _ => {}

/-- Functions from `A` to `Foo`. -/
def makerType : Ty := .function [.of ⟨16⟩] (.of ⟨17⟩)

theorem makerCatalog_built : build makers makerSource = .ok makerCatalog := rfl

theorem makerCatalog_covers_iff :
    (makerCatalog.implicitFor makerType.classifier).filterMap
        (fun e => makers.match? e makerType .plain)
      = makerCatalog.bindings.filterMap (fun e => makers.match? e makerType .plain)
      ↔ ∀ b ∈ makerCatalog.filed, b.isUnder makerType.classifier = false →
        makers.Strays b.entry.declaration makerType →
        makers.match? b.entry makerType .plain = none :=
  build_covers_iff makerCatalog_built makerType .plain

/-- The declaration matches a request for such a function, but it is not filed under
functions. -/
theorem makerCatalog_not_covers :
    build makers makerSource = .ok makerCatalog
      ∧ (makerCatalog.implicitFor makerType.classifier).filterMap
          (fun e => makers.match? e makerType .plain)
        ≠ makerCatalog.bindings.filterMap (fun e => makers.match? e makerType .plain) := by
  refine ⟨makerCatalog_built, ?_⟩
  decide +kernel

end Catalog
end Wiring
