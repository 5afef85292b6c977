import Wiring.Proofs.Choice.Memo

/-!
# What a scope chooses

Which candidate answers a request is a function of the scopes of an ancestry alone: the
nearest scope that offers anything chooses the most specific of what its first tier
offers.  A search comes to the same choice as long as nothing is remembered.

**Results.**
* `Offers.eq_offer`: what a search finds to be offered is what a scope offers.
* `Absent.along`: what a search finds to be absent is offered by no scope.
-/

namespace Wiring

/-- What the scopes of an ancestry come to for a type. -/
inductive Pick where
  /-- No scope offers anything. -/
  | nothing
  /-- The nearest scope that offers anything chooses a candidate. -/
  | chosen (s : Scope) (c : Candidate)
  /-- That scope cannot choose, or a collection cannot be merged. -/
  | refused
  deriving DecidableEq

namespace Pick

section

variable (B : Build)

/-- Whether what the shape of a type offers can be made: a set only if it exists. -/
def isMakeable (path : List Scope) : Candidate → Except ResolutionError Bool
  | .set type _ => do
      let found ← Collection.merged B.registry B.catalog B.options .set type path
      pure found.isSome
  | _ => pure true

/-- The map of a map type, if it exists. -/
def mapCandidate (path : List Scope) (t : Ty) : Except ResolutionError (List Candidate) := do
  if t.isMap then
    let found ← Collection.merged B.registry B.catalog B.options .map t.nonNull path
    pure (if found.isSome then [Candidate.map t.nonNull] else [])
  else pure []

/-- What the shape of a type offers. -/
def frameworkCandidates (s : Scope) (path : List Scope) (t : Ty) (own : List Candidate) :
    Except ResolutionError (List Candidate) := do
  let shaped ← (own.filter (fun c => !c.isExplicit)).filterM (isMakeable B path)
  let map ← mapCandidate B path t
  pure (shaped ++ Resolve.selfCandidate s t ++ Resolve.childCandidate B path t ++ map)

/-- The explicit candidates that can be used along an ancestry. -/
def explicitCandidates (s : Scope) (path : List Scope) (t : Ty) : List Candidate :=
  (s.candidatesFor B.registry B.catalog t).filter
    (fun c => c.isExplicit && Resolve.isVisible path c)

/-- The candidates of the first tier of a scope that has any. -/
def offer (s : Scope) (path : List Scope) (t : Ty) :
    Except ResolutionError (List Candidate) :=
  match explicitCandidates B s path t with
  | c :: cs => .ok (c :: cs)
  | [] =>
      match Resolve.implicitCandidates B s path t false with
      | c :: cs => .ok (c :: cs)
      | [] =>
          match Resolve.implicitCandidates B s path t true with
          | c :: cs => .ok (c :: cs)
          | [] =>
              frameworkCandidates B s path t (s.candidatesFor B.registry B.catalog t)

/-- The choice of an ancestry, nearest scope first. -/
def along (t : Ty) : List Scope → Pick
  | [] => nothing
  | s :: ancestors =>
      match offer B s (s :: ancestors) t with
      | .error _ => refused
      | .ok candidates =>
          match mostSpecific Candidate.rawType t candidates with
          | .absent => along t ancestors
          | .chosen c => chosen s c
          | .ambiguous _ => refused

end

variable {B : Build} {s : Scope} {ancestors : List Scope} {t : Ty}

/-- A scope that offers nothing leaves the choice to its ancestors. -/
theorem along_of_offer_nil
    (h : offer B s (s :: ancestors) t = .ok []) :
    along B t (s :: ancestors) = along B t ancestors := by
  rw [along, h]
  rfl

/-- A scope that offers something chooses from it. -/
theorem along_of_chosen
    {candidates : List Candidate}
    {c : Candidate}
    (h : offer B s (s :: ancestors) t = .ok candidates)
    (hc : mostSpecific Candidate.rawType t candidates = .chosen c) :
    along B t (s :: ancestors) = .chosen s c := by
  rw [along, h]
  dsimp only
  rw [hc]

end Pick

namespace Resolve

/-! ## Steps that look and do not search -/

/-- Whatever has been merged before, a step ends as a value of `Except` says. -/
def Computes (B : Build) (g : Graph) {α : Type} (step : Resolve α)
    (x : Except ResolutionError α) : Prop :=
  ∀ (m : Memo) (chain : Chain), g.Merges B m →
    match step ⟨g.withMemo m, chain⟩ with
    | .ok a _ => x = .ok a
    | .error e _ => x = .error e

section Computes

variable {B : Build} {g : Graph} {α β : Type}

theorem Computes.ok
    {s s' : Search}
    {step : Resolve α}
    {x : Except ResolutionError α}
    {a : α}
    (h : Computes B s.graph step x)
    (hstep : step s = .ok a s') :
    x = .ok a := by
  have hx := h s.graph.memo s.chain .none
  have hs : (⟨s.graph.withMemo s.graph.memo, s.chain⟩ : Search) = s := rfl
  rw [hs, hstep] at hx
  exact hx

theorem Computes.error
    {s s' : Search}
    {step : Resolve α}
    {x : Except ResolutionError α}
    {e : ResolutionError}
    (h : Computes B s.graph step x)
    (hstep : step s = .error e s') :
    x = .error e := by
  have hx := h s.graph.memo s.chain .none
  have hs : (⟨s.graph.withMemo s.graph.memo, s.chain⟩ : Search) = s := rfl
  rw [hs, hstep] at hx
  exact hx

theorem computes_pure (a : α) : Computes B g (pure a : Resolve α) (.ok a) :=
  fun _ _ _ => rfl

theorem Computes.bind
    {x : Resolve α}
    {f : α → Resolve β}
    {y : Except ResolutionError α}
    {h : α → Except ResolutionError β}
    (honly : OnlyMemo B x)
    (hx : Computes B g x y)
    (hf : ∀ a, Computes B g (f a) (h a)) :
    Computes B g (x >>= f) (y >>= h) := by
  intro m chain hm
  have hfirst := hx m chain hm
  cases hrun : (x >>= f) ⟨g.withMemo m, chain⟩ with
  | ok b s' =>
      obtain ⟨a, s₁, h₁, h₂⟩ := bind_eq_ok.mp hrun
      rw [h₁] at hfirst
      obtain ⟨m', hm', rfl⟩ := honly.ok h₁
      have hsecond := hf a m' chain (hm.trans hm')
      change f a ⟨g.withMemo m', chain⟩ = _ at h₂
      rw [h₂] at hsecond
      rw [hfirst]
      exact hsecond
  | error e s' =>
      rcases bind_eq_error.mp hrun with h₁ | ⟨a, s₁, h₁, h₂⟩
      · rw [h₁] at hfirst
        rw [hfirst]
        rfl
      · rw [h₁] at hfirst
        obtain ⟨m', hm', rfl⟩ := honly.ok h₁
        have hsecond := hf a m' chain (hm.trans hm')
        change f a ⟨g.withMemo m', chain⟩ = _ at h₂
        rw [h₂] at hsecond
        rw [hfirst]
        exact hsecond

theorem Computes.filterM
    {test : α → Resolve Bool}
    {test' : α → Except ResolutionError Bool}
    (honly : ∀ a, OnlyMemo B (test a))
    (h : ∀ a, Computes B g (test a) (test' a))
    (as : List α) :
    Computes B g (as.filterM test) (as.filterM test') := by
  have haux : ∀ (as acc : List α),
      Computes B g (as.filterAuxM test acc) (as.filterAuxM test' acc) := by
    intro as
    induction as with
    | nil => exact fun acc => computes_pure acc
    | cons a as ih => exact fun acc => .bind (honly a) (h a) (fun b => ih _)
  exact .bind (OnlyMemo.filterAuxM honly as []) (haux as [])
    (fun found => computes_pure found.reverse)

end Computes

section Offers

variable {B : Build} {g : Graph}

/-- A collection is merged as along the ancestry of the scope. -/
theorem collected_computes
    (hg : g.Faithful B)
    (scope : ScopeId)
    (kind : Collection.Kind)
    (t : Ty) :
    Computes B g (collected B scope kind t)
      (Collection.merged B.registry B.catalog B.options kind t (g.path scope)) := by
  intro m chain hm
  have hmerged : (m.merged B.registry B.catalog B.options kind t (g.path scope)).1
      = Collection.merged B.registry B.catalog B.options kind t (g.path scope) := by
    by_cases hscope : scope.index < g.scopes.size
    · exact Memo.merged_of_agrees _ _ _ kind t m _
        ((hg.merges hm).memo.agrees hg.tree.numbered (hg.rooted.lineage hscope))
    · rw [Graph.path_eq_nil hscope]
      rfl
  cases hrun : m.merged B.registry B.catalog B.options kind t (g.path scope) with
  | mk outcome m' =>
      have hstep : (g.withMemo m).memo.merged B.registry B.catalog B.options kind t
          ((g.withMemo m).path scope) = (outcome, m') := hrun
      rw [hrun] at hmerged
      unfold collected
      dsimp only
      rw [hstep, ← hmerged]
      cases outcome <;> rfl

theorem isMakeable_computes
    (hg : g.Faithful B)
    (scope : ScopeId)
    (c : Candidate) :
    Computes B g (isMakeable B scope c) (Pick.isMakeable B (g.path scope) c) := by
  cases c with
  | set type element =>
      exact .bind (collected_onlyMemo B scope .set type)
        (collected_computes hg scope .set type) (fun found => computes_pure _)
  | _ => exact computes_pure true

theorem mapCandidate_computes
    (hg : g.Faithful B)
    (scope : ScopeId)
    (t : Ty) :
    Computes B g (mapCandidate B scope t) (Pick.mapCandidate B (g.path scope) t) := by
  unfold mapCandidate Pick.mapCandidate
  split
  · exact .bind (collected_onlyMemo B scope .map t.nonNull)
      (collected_computes hg scope .map t.nonNull) (fun found => computes_pure _)
  · exact computes_pure []

/-- What the shape of a type offers, as along the ancestry of the scope. -/
theorem frameworkCandidates_computes
    (hg : g.Faithful B)
    (s : Scope)
    (t : Ty)
    (own : List Candidate) :
    Computes B g (frameworkCandidates B s (g.path s.id) t own)
      (Pick.frameworkCandidates B s (g.path s.id) t own) :=
  .bind (OnlyMemo.filterM (isMakeable_onlyMemo B s.id) _)
    (Computes.filterM (isMakeable_onlyMemo B s.id) (isMakeable_computes hg s.id) _)
    (fun _ => .bind (mapCandidate_onlyMemo B s.id t) (mapCandidate_computes hg s.id t)
      (fun _ => computes_pure _))

end Offers

end Resolve

/-- What a search finds to be offered is what the scope offers. -/
theorem Offers.eq_offer
    {B : Build}
    {s : Scope}
    {t : Ty}
    {candidates : List Candidate}
    {g g' : Graph}
    (h : Offers B s t g candidates g')
    (hg : g.Faithful B) :
    Pick.offer B s (g.path s.id) t = .ok candidates := by
  have hexplicit : Pick.explicitCandidates B s (g.path s.id) t
      = g.explicitCandidates B s t := rfl
  unfold Pick.offer
  rw [hexplicit]
  cases h with
  | explicit hne =>
      obtain ⟨c, cs, heq⟩ := List.exists_cons_of_ne_nil hne
      rw [heq]
  | internal hnil hne =>
      rw [hnil]
      dsimp only
      obtain ⟨c, cs, heq⟩ := List.exists_cons_of_ne_nil hne
      rw [heq]
  | external hnil hnil' hne =>
      rw [hnil, hnil']
      dsimp only
      obtain ⟨c, cs, heq⟩ := List.exists_cons_of_ne_nil hne
      rw [heq]
  | @framework chain chain' offered g₁ hnil hnil' hnil'' hrun =>
      rw [hnil, hnil', hnil'']
      exact (Resolve.frameworkCandidates_computes hg s t
        (s.candidatesFor B.registry B.catalog t)).ok (s := ⟨g, chain⟩) hrun

/-- What a search finds to be absent is offered by no scope. -/
theorem Absent.along
    {B : Build}
    {t : Ty}
    {scope : ScopeId}
    {path : List Scope}
    {g g' : Graph}
    (h : Absent B t (some scope) g g')
    (hg : g.Faithful B)
    (hpath : Lineage g.scopes scope path) :
    Pick.along B t path = .nothing := by
  generalize hstart : some scope = start at h
  induction h generalizing scope path with
  | top => exact nomatch hstart
  | unknown hscope _ =>
      cases hstart
      have hnone := hscope hg.rooted
      obtain ⟨s, ancestors, -, hs⟩ := hpath.head
      exact nomatch hnone.symm.trans hs
  | @step scope' s g g₁ g₂ _ hscope hoffers habsent ih =>
      cases hstart
      have hs : s.id = scope' := hg.tree.numbered _ _ hscope
      have hoffer := hoffers.eq_offer hg
      rw [hs, hpath.path_eq] at hoffer
      obtain ⟨m, hm, rfl⟩ := hoffers.withMemo
      cases hpath with
      | @root _ s' hs' hp =>
          obtain rfl : s = s' := Option.some.inj (hscope.symm.trans hs')
          rw [Pick.along_of_offer_nil hoffer]
          rfl
      | @child _ parent s' ancestors hs' hp hlt hancestors =>
          obtain rfl : s = s' := Option.some.inj (hscope.symm.trans hs')
          rw [Pick.along_of_offer_nil hoffer]
          exact ih (hg.merges hm) hancestors hp.symm

end Wiring
