import Mathlib.Tactic.Common
import Wiring.Proofs.Derivation

/-!
# Steps of a search

How steps of a search compose, and which of them change nothing but the memo.

**Results.**
* `bind_eq_ok`, `bind_eq_error`: a sequence of two steps taken apart.
* `frameworkCandidates_onlyMemo`: looking for what the shape of a type offers leaves
  scopes, nodes and answers alone.
* `Offers.offered`: every tier of a scope holds candidates that the scope may offer.
-/

namespace Wiring

/-- What is merged after other merges. -/
theorem Graph.Merges.trans
    {B : Build}
    {g : Graph}
    {m m' : Memo}
    (h : g.Merges B m)
    (h' : (g.withMemo m).Merges B m') :
    g.Merges B m' := by
  induction h' with
  | none => exact h
  | collection kind t scope _ ih => exact .collection kind t scope ih
  | interceptors t scope _ ih => exact .interceptors t scope ih

namespace Resolve

section Sequences

variable {α β : Type} {s s' : Search} {e : ResolutionError}

theorem bind_eq_ok
    {x : Resolve α}
    {f : α → Resolve β}
    {b : β} :
    (x >>= f) s = .ok b s' ↔ ∃ a s₁, x s = .ok a s₁ ∧ f a s₁ = .ok b s' := by
  change EStateM.bind x f s = .ok b s' ↔ _
  unfold EStateM.bind
  cases x s <;> simp

theorem bind_eq_error
    {x : Resolve α}
    {f : α → Resolve β} :
    (x >>= f) s = .error e s' ↔
      x s = .error e s' ∨ ∃ a s₁, x s = .ok a s₁ ∧ f a s₁ = .error e s' := by
  change EStateM.bind x f s = .error e s' ↔ _
  unfold EStateM.bind
  cases x s <;> simp

theorem pure_eq_ok {a b : α} :
    (pure a : Resolve α) s = .ok b s' ↔ a = b ∧ s = s' := by
  change EStateM.Result.ok a s = .ok b s' ↔ _
  simp

theorem pure_ne_error {a : α} : (pure a : Resolve α) s ≠ .error e s' := by
  change EStateM.Result.ok a s ≠ .error e s'
  simp

theorem throw_ne_ok {e : ResolutionError} {a : α} :
    (throw e : Resolve α) s ≠ .ok a s' := by
  change EStateM.Result.error e s ≠ .ok a s'
  simp

theorem throw_eq_error {e e' : ResolutionError} :
    (throw e : Resolve α) s = .error e' s' ↔ e = e' ∧ s = s' := by
  change EStateM.Result.error e s = .error e' s' ↔ _
  simp

end Sequences

/-! ## Steps that change the memo only -/


/-- Whether or not the step fails, at most the memo of the graph is another one
afterwards. -/
def OnlyMemo (B : Build) {α : Type} (step : Resolve α) : Prop :=
  ∀ s, match step s with
    | .ok _ s' => ∃ m, s.graph.Merges B m ∧ s' = { s with graph := s.graph.withMemo m }
    | .error _ s' => ∃ m, s.graph.Merges B m ∧ s' = { s with graph := s.graph.withMemo m }

section OnlyMemo

variable {B : Build} {α β : Type}

theorem OnlyMemo.ok
    {step : Resolve α}
    (h : OnlyMemo B step)
    {s s' : Search}
    {a : α}
    (hs : step s = .ok a s') :
    ∃ m, s.graph.Merges B m ∧ s' = { s with graph := s.graph.withMemo m } := by
  have hm := h s
  rw [hs] at hm
  exact hm

theorem OnlyMemo.error
    {step : Resolve α}
    (h : OnlyMemo B step)
    {s s' : Search}
    {e : ResolutionError}
    (hs : step s = .error e s') :
    ∃ m, s.graph.Merges B m ∧ s' = { s with graph := s.graph.withMemo m } := by
  have hm := h s
  rw [hs] at hm
  exact hm

theorem onlyMemo_pure (a : α) : OnlyMemo B (pure a : Resolve α) :=
  fun s => ⟨s.graph.memo, .none, rfl⟩

theorem OnlyMemo.bind
    {x : Resolve α}
    {f : α → Resolve β}
    (hx : OnlyMemo B x)
    (hf : ∀ a, OnlyMemo B (f a)) :
    OnlyMemo B (x >>= f) := by
  intro s
  cases hs : (x >>= f) s with
  | ok b s' =>
      obtain ⟨a, s₁, h₁, h₂⟩ := bind_eq_ok.mp hs
      obtain ⟨m₁, hm₁, rfl⟩ := hx.ok h₁
      obtain ⟨m₂, hm₂, rfl⟩ := (hf a).ok h₂
      exact ⟨m₂, hm₁.trans hm₂, rfl⟩
  | error e s' =>
      rcases bind_eq_error.mp hs with h₁ | ⟨a, s₁, h₁, h₂⟩
      · exact hx.error h₁
      · obtain ⟨m₁, hm₁, rfl⟩ := hx.ok h₁
        obtain ⟨m₂, hm₂, rfl⟩ := (hf a).error h₂
        exact ⟨m₂, hm₁.trans hm₂, rfl⟩

theorem OnlyMemo.filterAuxM
    {test : α → Resolve Bool}
    (h : ∀ a, OnlyMemo B (test a))
    (as acc : List α) :
    OnlyMemo B (as.filterAuxM test acc) := by
  induction as generalizing acc with
  | nil => exact onlyMemo_pure acc
  | cons a as ih => exact (h a).bind (fun b => ih _)

theorem OnlyMemo.filterM
    {test : α → Resolve Bool}
    (h : ∀ a, OnlyMemo B (test a))
    (as : List α) :
    OnlyMemo B (as.filterM test) :=
  (OnlyMemo.filterAuxM h as []).bind (fun found => onlyMemo_pure found.reverse)

end OnlyMemo

theorem collected_onlyMemo
    (B : Build)
    (scope : ScopeId)
    (kind : Collection.Kind)
    (t : Ty) :
    OnlyMemo B (collected B scope kind t) := by
  intro s
  have hmerges : s.graph.Merges B _ := .collection kind t scope .none
  unfold collected
  dsimp only
  rcases hm : s.graph.memo.merged B.registry B.catalog B.options kind t
    (s.graph.path scope) with ⟨_ | found, m⟩
  · rw [hm] at hmerges
    exact ⟨m, hmerges, rfl⟩
  · rw [hm] at hmerges
    exact ⟨m, hmerges, rfl⟩

theorem isMakeable_onlyMemo (B : Build) (scope : ScopeId) (c : Candidate) :
    OnlyMemo B (isMakeable B scope c) := by
  cases c with
  | set type element =>
      exact (collected_onlyMemo B scope .set type).bind (fun found => onlyMemo_pure _)
  | _ => exact onlyMemo_pure true

theorem mapCandidate_onlyMemo (B : Build) (scope : ScopeId) (t : Ty) :
    OnlyMemo B (mapCandidate B scope t) := by
  unfold mapCandidate
  split
  · exact (collected_onlyMemo B scope .map t.nonNull).bind (fun found => onlyMemo_pure _)
  · exact onlyMemo_pure []

/-- Looking for what the shape of a type offers changes the memo only. -/
theorem frameworkCandidates_onlyMemo
    (B : Build)
    (s : Scope)
    (path : List Scope)
    (t : Ty)
    (own : List Candidate) :
    OnlyMemo B (frameworkCandidates B s path t own) :=
  (OnlyMemo.filterM (isMakeable_onlyMemo B s.id) _).bind (fun _ =>
    (mapCandidate_onlyMemo B s.id t).bind (fun _ => onlyMemo_pure _))

/-! ## What is offered -/

theorem mem_of_filterAuxM
    {α : Type}
    {test : α → Resolve Bool}
    {as acc found : List α}
    {s s' : Search}
    (h : as.filterAuxM test acc s = .ok found s')
    {a : α}
    (ha : a ∈ found) :
    a ∈ as ∨ a ∈ acc := by
  induction as generalizing acc s with
  | nil =>
      obtain ⟨rfl, -⟩ := pure_eq_ok.mp h
      exact .inr ha
  | cons b as ih =>
      obtain ⟨passes, s₁, -, h₂⟩ := bind_eq_ok.mp h
      rcases ih h₂ with hmem | hmem
      · exact .inl (List.mem_cons_of_mem b hmem)
      · cases passes with
        | false => exact .inr hmem
        | true =>
            rcases List.mem_cons.mp hmem with rfl | hmem
            · exact .inl List.mem_cons_self
            · exact .inr hmem

theorem mem_of_filterM
    {α : Type}
    {test : α → Resolve Bool}
    {as found : List α}
    {s s' : Search}
    (h : as.filterM test s = .ok found s')
    {a : α}
    (ha : a ∈ found) :
    a ∈ as := by
  obtain ⟨kept, s₁, h₁, h₂⟩ := bind_eq_ok.mp h
  obtain ⟨rfl, -⟩ := pure_eq_ok.mp h₂
  rcases mem_of_filterAuxM h₁ (List.mem_reverse.mp ha) with hmem | hmem
  · exact hmem
  · exact nomatch hmem

/-- What the shape of a type offers are candidates that a scope may offer. -/
theorem frameworkCandidates_offered
    {B : Build}
    {sc : Scope}
    {path : List Scope}
    {t : Ty}
    {offered : List Candidate}
    {s s' : Search}
    (h : frameworkCandidates B sc path t (sc.candidatesFor B.registry B.catalog t) s
      = .ok offered s')
    {c : Candidate}
    (hc : c ∈ offered) :
    Offered B sc t c := by
  obtain ⟨shaped, s₁, hshaped, h₁⟩ := bind_eq_ok.mp h
  obtain ⟨map, s₂, hmap, h₂⟩ := bind_eq_ok.mp h₁
  obtain ⟨rfl, -⟩ := pure_eq_ok.mp h₂
  rcases List.mem_append.mp hc with hc | hc
  · rcases List.mem_append.mp hc with hc | hc
    · rcases List.mem_append.mp hc with hc | hc
      · exact .own (List.mem_filter.mp (mem_of_filterM hshaped hc)).1
      · unfold selfCandidate at hc
        split at hc
        · rename_i hself
          rw [List.mem_singleton.mp hc]
          exact .self hself
        · exact nomatch hc
    · unfold childCandidate at hc
      split at hc
      · rename_i parameters returns hparts
        split at hc
        · rename_i hflag
          rw [List.mem_singleton.mp hc]
          exact .childComponent hparts (Bool.and_eq_true_iff.mp hflag).1
        · exact nomatch hc
      · exact nomatch hc
  · unfold mapCandidate at hmap
    split at hmap
    · rename_i hismap
      obtain ⟨found, s₃, -, h₃⟩ := bind_eq_ok.mp hmap
      obtain ⟨rfl, -⟩ := pure_eq_ok.mp h₃
      split at hc
      · rw [List.mem_singleton.mp hc]
        exact .map hismap
      · exact nomatch hc
    · obtain ⟨rfl, -⟩ := pure_eq_ok.mp hmap
      exact nomatch hc

/-- The global declarations that match are candidates that a scope may offer. -/
theorem implicitCandidates_offered
    {B : Build}
    {sc : Scope}
    {path : List Scope}
    {t : Ty}
    {external : Bool}
    {c : Candidate}
    (hc : c ∈ implicitCandidates B sc path t external) :
    Offered B sc t c := by
  obtain ⟨hmatched, -⟩ := List.mem_filter.mp hc
  obtain ⟨e, he, hfound⟩ := List.mem_filterMap.mp hmatched
  obtain ⟨m, hm, rfl⟩ := Option.map_eq_some_iff.mp hfound
  exact .implicit (List.mem_filter.mp he).1 hm

end Resolve

/-- Every tier of a scope holds candidates that the scope may offer. -/
theorem Offers.offered
    {B : Build}
    {s : Scope}
    {t : Ty}
    {candidates : List Candidate}
    {g g' : Graph}
    (h : Offers B s t g candidates g')
    {c : Candidate}
    (hc : c ∈ candidates) :
    Offered B s t c := by
  cases h with
  | explicit => exact .own (List.mem_filter.mp hc).1
  | internal => exact Resolve.implicitCandidates_offered hc
  | external => exact Resolve.implicitCandidates_offered hc
  | framework _ _ _ hrun => exact Resolve.frameworkCandidates_offered hrun hc

end Wiring
