import Mathlib.Data.List.Basic
import Wiring.Proofs.Choice
import Wiring.Proofs.Offer

/-!
# Scopes under other positions

Nothing but the ids of scopes depends on the positions of scopes.  If the scopes of an
ancestry are given other positions, different ones for different scopes, then they offer
the same candidates and choose the same one, with other positions in it.

**Results.**
* `Pick.along_rename`: the choice of an ancestry.
* `merged_rename`, `visible_rename`: what an ancestry merges.
* `ownerOf_rename`: the owner of a declaration's node.
-/

namespace Wiring

/-- A scope under another position, with other positions of its ancestors. -/
def Scope.rename (ρ : ScopeId → ScopeId) (s : Scope) : Scope :=
  { s with
    id := ρ s.id
    parent := s.parent.map ρ
    inheritedBindings := s.inheritedBindings.map (fun p => (p.1, ρ p.2))
    inheritedInputs :=
      s.inheritedInputs.map (fun i => { i with declaredIn := ρ i.declaredIn }) }

namespace Candidate

/-- A candidate that is declared in a scope under another position. -/
def rename (ρ : ScopeId → ScopeId) : Candidate → Candidate
  | declaration m => declaration { m with declaredIn := m.declaredIn.map ρ }
  | input index type declaredIn => input index type (declaredIn.map ρ)
  | c => c

variable (ρ : ScopeId → ScopeId) (c : Candidate)

@[simp] theorem rawType_rename : (c.rename ρ).rawType = c.rawType := by
  cases c <;> rfl

@[simp] theorem isExplicit_rename : (c.rename ρ).isExplicit = c.isExplicit := by
  cases c <;> rfl

@[simp] theorem component?_rename : (c.rename ρ).component? = c.component? := by
  cases c <;> rfl

/-- Different candidates stay different. -/
theorem rename_injective
    {ρ : ScopeId → ScopeId}
    (hρ : Function.Injective ρ) :
    Function.Injective (rename ρ) := by
  have hmap := Option.map_injective hρ
  intro c c' h
  cases c <;> cases c' <;> simp only [rename] at h <;> try cases h <;> rfl
  case declaration.declaration m m' =>
    cases m
    cases m'
    simp only [declaration.injEq, Match.mk.injEq] at h ⊢
    exact ⟨h.1, h.2.1, h.2.2.1, h.2.2.2.1, h.2.2.2.2.1, hmap h.2.2.2.2.2⟩
  case input.input =>
    simp only [input.injEq] at h ⊢
    exact ⟨h.1, h.2.1, hmap h.2.2⟩

end Candidate

/-- The choice among renamed scopes. -/
def Pick.rename (ρ : ScopeId → ScopeId) : Pick → Pick
  | nothing => nothing
  | chosen s c => chosen (s.rename ρ) (c.rename ρ)
  | refused => refused

@[simp] theorem Pick.rename_eq_nothing (ρ : ScopeId → ScopeId) (p : Pick) :
    p.rename ρ = .nothing ↔ p = .nothing := by
  cases p <;> simp [Pick.rename]

@[simp] theorem Pick.rename_eq_refused (ρ : ScopeId → ScopeId) (p : Pick) :
    p.rename ρ = .refused ↔ p = .refused := by
  cases p <;> simp [Pick.rename]

/-! ## Lists -/

/-- Repeated elements stay repeated, and different ones different. -/
theorem distinct_map
    {α β : Type}
    [DecidableEq α]
    [DecidableEq β]
    {f : α → β}
    (hf : Function.Injective f)
    (as : List α) :
    distinct (as.map f) = (distinct as).map f := by
  have hfold : ∀ (as seen : List α),
      (as.map f).foldl (fun seen b => if b ∈ seen then seen else seen ++ [b]) (seen.map f)
        = (as.foldl (fun seen a => if a ∈ seen then seen else seen ++ [a]) seen).map f := by
    intro as
    induction as with
    | nil => exact fun _ => rfl
    | cons a as ih =>
        intro seen
        have hmem : f a ∈ seen.map f ↔ a ∈ seen := List.mem_map_of_injective hf
        rw [List.map_cons, List.foldl_cons, List.foldl_cons]
        by_cases ha : a ∈ seen
        · rw [if_pos (hmem.mpr ha), if_pos ha]
          exact ih seen
        · rw [if_neg (fun h => ha (hmem.mp h)), if_neg ha]
          have hseen := ih (seen ++ [a])
          rw [List.map_append] at hseen
          exact hseen
  exact hfold as []

/-- A test that does not tell the images from the elements keeps the images of what it
keeps. -/
theorem filterM_map
    {ε α β : Type}
    {f : α → β}
    {test : β → Except ε Bool}
    {test' : α → Except ε Bool}
    (h : ∀ a, test (f a) = test' a)
    (as : List α) :
    (as.map f).filterM test = (as.filterM test').map (List.map f) := by
  have haux : ∀ (as acc : List α),
      (as.map f).filterAuxM test (acc.map f)
        = (as.filterAuxM test' acc).map (List.map f) := by
    intro as
    induction as with
    | nil => exact fun _ => rfl
    | cons a as ih =>
        intro acc
        rw [List.map_cons, List.filterAuxM, List.filterAuxM, h a]
        cases test' a with
        | error e => rfl
        | ok passes =>
            cases passes with
            | false => exact ih acc
            | true => exact ih (a :: acc)
  unfold List.filterM
  have hempty := haux as []
  rw [List.map_nil] at hempty
  rw [hempty]
  cases as.filterAuxM test' [] with
  | error e => rfl
  | ok found =>
      change Except.ok (found.map f).reverse = Except.ok (found.reverse.map f)
      rw [List.map_reverse]

/-- The choice among images, if they have the types of the elements. -/
theorem mostSpecific_map
    {α : Type}
    {f : α → α}
    {rawType : α → Ty}
    (hf : ∀ a, rawType (f a) = rawType a)
    (t : Ty)
    (as : List α) :
    mostSpecific rawType t (as.map f)
      = match mostSpecific rawType t as with
        | .absent => .absent
        | .chosen a => .chosen (f a)
        | .ambiguous several => .ambiguous (several.map f) := by
  have hfilter : (as.map f).filter (fun a => rawType a = t)
      = (as.filter (fun a => rawType a = t)).map f := by
    rw [List.filter_map]
    congr 1
    refine List.filter_congr (fun a _ => ?_)
    simp [hf]
  match as with
  | [] => rfl
  | [a] => rfl
  | a :: b :: rest =>
      unfold mostSpecific
      simp only [List.map_cons] at hfilter ⊢
      rw [hfilter]
      cases (a :: b :: rest).filter (fun a => rawType a = t) with
      | nil => rfl
      | cons c cs =>
          cases cs with
          | nil => rfl
          | cons c' cs => rfl

/-! ## Ancestries -/

section Ancestries

variable (ρ : ScopeId → ScopeId) (path : List Scope)

/-- The scope that builds a component is the one that built it before. -/
theorem ownerForTarget_rename (target : Ty) :
    ownerForTarget (path.map (Scope.rename ρ)) target
      = (ownerForTarget path target).map ρ := by
  induction path with
  | nil => rfl
  | cons s ancestors ih =>
      unfold ownerForTarget at ih ⊢
      rw [List.map_cons, List.find?_cons, List.find?_cons]
      have hcomponent : (s.rename ρ).component = s.component := rfl
      rw [hcomponent]
      split
      · rfl
      · exact ih

/-- The owner of a declaration's node. -/
theorem ownerOf_rename
    (scope : ScopeId)
    (declaredIn : Option ScopeId)
    (d : Declaration) :
    ownerOf (path.map (Scope.rename ρ)) (ρ scope) (declaredIn.map ρ) d
      = ρ (ownerOf path scope declaredIn d) := by
  have hdeclared : (declaredIn.map ρ).getD (ρ scope) = ρ (declaredIn.getD scope) := by
    cases declaredIn <;> rfl
  unfold ownerOf
  dsimp only
  rw [hdeclared]
  cases d.component with
  | none => rfl
  | some target =>
      dsimp only
      rw [ownerForTarget_rename]
      cases ownerForTarget path target <;> rfl

theorem isBuiltIn_rename (c : ClassifierId) :
    isBuiltIn (path.map (Scope.rename ρ)) c = isBuiltIn path c := by
  unfold isBuiltIn
  rw [List.any_map]
  rfl

theorem isVisible_rename (c : Candidate) :
    Resolve.isVisible (path.map (Scope.rename ρ)) (c.rename ρ)
      = Resolve.isVisible path c := by
  unfold Resolve.isVisible
  rw [Candidate.component?_rename]
  cases c.component? with
  | none => rfl
  | some target =>
      dsimp only
      rw [ownerForTarget_rename, Option.isSome_map]

variable (B : Build)

/-- What an ancestry merges of a collection. -/
theorem merged_rename
    (kind : Collection.Kind)
    (t : Ty) :
    Collection.merged B.registry B.catalog B.options kind t (path.map (Scope.rename ρ))
      = Collection.merged B.registry B.catalog B.options kind t path := by
  induction path with
  | nil => rfl
  | cons s ancestors ih =>
      have hroot : (s.rename ρ).isRoot = s.isRoot := by
        unfold Scope.isRoot Scope.rename
        cases s.parent <;> rfl
      have hext : ∀ inherited,
          Collection.extended B.registry B.catalog B.options kind t (s.rename ρ) inherited
            = Collection.extended B.registry B.catalog B.options kind t s inherited := by
        intro inherited
        unfold Collection.extended Collection.sources Collection.isDeclared
        rw [hroot]
        rfl
      rw [List.map_cons, Collection.merged, Collection.merged, ih]
      cases Collection.merged B.registry B.catalog B.options kind t ancestors with
      | error e => rfl
      | ok inherited => exact hext inherited

/-- The interceptors that an ancestry sees. -/
theorem visible_rename (t : Ty) :
    Interception.visible B.registry B.catalog t (path.map (Scope.rename ρ))
      = Interception.visible B.registry B.catalog t path := by
  induction path with
  | nil => rfl
  | cons s ancestors ih =>
      have hroot : (s.rename ρ).isRoot = s.isRoot := by
        unfold Scope.isRoot Scope.rename
        cases s.parent <;> rfl
      have hadded : Interception.added B.registry B.catalog t (s.rename ρ)
          = Interception.added B.registry B.catalog t s := by
        unfold Interception.added Interception.sources
        rw [hroot]
        rfl
      rw [List.map_cons, Interception.visible, Interception.visible, ih, hadded]

end Ancestries

/-! ## What is offered -/

section Offers

variable {ρ : ScopeId → ScopeId} (B : Build) (s : Scope) (path : List Scope) (t : Ty)

/-- A declaration that matches and is not tagged with a scope has no position in it. -/
theorem rename_match?
    (e : Entry)
    (context : CallContext) :
    (B.registry.match? e t context).map (fun m => (Candidate.declaration m).rename ρ)
      = (B.registry.match? e t context).map Candidate.declaration := by
  cases hm : B.registry.match? e t context with
  | none => rfl
  | some m =>
      obtain ⟨d, declared, receivers, rawType, assisted, declaredIn⟩ := m
      obtain rfl : declaredIn = none := (Registry.match?_eq_some hm).2.2
      rfl

theorem matchingBindings_rename :
    Scope.matchingBindings B.registry (s.rename ρ) t
      = (Scope.matchingBindings B.registry s t).map (Candidate.rename ρ) := by
  unfold Scope.matchingBindings
  rw [List.map_append, List.map_filterMap, List.map_filterMap]
  congr 1
  · change (s.inheritedBindings.map _).filterMap _ = _
    rw [List.filterMap_map]
    refine List.filterMap_congr (fun p _ => ?_)
    change Option.map _ (B.registry.match? p.1 t s.context)
      = Option.map _ (Option.map _ (B.registry.match? p.1 t s.context))
    rw [Option.map_map]
    rfl
  · refine List.filterMap_congr (fun e _ => ?_)
    change Option.map _ (B.registry.match? e t s.context)
      = Option.map _ (Option.map _ (B.registry.match? e t s.context))
    rw [Option.map_map]
    exact (rename_match? B t e s.context).symm

theorem matchingInputs_rename :
    Scope.matchingInputs B.registry (s.rename ρ) t
      = (Scope.matchingInputs B.registry s t).map (Candidate.rename ρ) := by
  unfold Scope.matchingInputs
  rw [List.map_append, List.map_map, List.map_map]
  congr 1
  change List.map _ (List.filter _ (s.inheritedInputs.map _)) = _
  rw [List.filter_map, List.map_map]
  rfl

/-- What a scope offers of itself. -/
theorem candidatesFor_rename (hρ : Function.Injective ρ) :
    (s.rename ρ).candidatesFor B.registry B.catalog t
      = (s.candidatesFor B.registry B.catalog t).map (Candidate.rename ρ) := by
  have hrest : ∀ (cs : List Candidate), (∀ c ∈ cs, c.rename ρ = c) →
      cs.map (Candidate.rename ρ) = cs :=
    fun cs hcs => (List.map_congr_left hcs).trans (List.map_id' cs)
  have hobject : (Scope.objectCandidate B.registry t).map (Candidate.rename ρ)
      = Scope.objectCandidate B.registry t := by
    unfold Scope.objectCandidate
    split <;> rfl
  have halias : (Scope.aliasCandidate B.registry B.catalog s t).map (Candidate.rename ρ)
      = Scope.aliasCandidate B.registry B.catalog (s.rename ρ) t := by
    unfold Scope.aliasCandidate
    split
    · cases B.catalog.alias? t.classifier with
      | none => rfl
      | some d =>
          change List.map _ (if s.context.canCall d.callKind then _ else _)
            = if s.context.canCall d.callKind then _ else _
          split <;> rfl
    · rfl
  have hprovider : (Scope.providerCandidate B.registry t).map (Candidate.rename ρ)
      = Scope.providerCandidate B.registry t := by
    unfold Scope.providerCandidate
    split
    · split <;> rfl
    · rfl
  have hset : (Scope.setCandidate t).map (Candidate.rename ρ) = Scope.setCandidate t := by
    unfold Scope.setCandidate
    split <;> rfl
  unfold Scope.candidatesFor
  rw [← distinct_map (Candidate.rename_injective hρ), matchingBindings_rename,
    matchingInputs_rename, ← halias]
  simp only [List.map_append, hobject, hprovider, hset]

/-- The global declarations that match have no position in them. -/
theorem implicitCandidates_rename (external : Bool) :
    Resolve.implicitCandidates B (s.rename ρ) (path.map (Scope.rename ρ)) t external
      = (Resolve.implicitCandidates B s path t external).map (Candidate.rename ρ) := by
  have hcontext : (s.rename ρ).context = s.context := rfl
  unfold Resolve.implicitCandidates
  dsimp only
  rw [hcontext]
  generalize (B.catalog.implicitFor t.classifier).filter _ = entries
  have hmatches : (entries.filterMap (fun e =>
        (B.registry.match? e t s.context).map Candidate.declaration)).map
          (Candidate.rename ρ)
      = entries.filterMap (fun e =>
        (B.registry.match? e t s.context).map Candidate.declaration) := by
    rw [List.map_filterMap]
    refine List.filterMap_congr (fun e _ => ?_)
    rw [Option.map_map]
    exact rename_match? B t e s.context
  conv_lhs => rw [← hmatches]
  rw [List.filter_map]
  congr 1
  refine List.filter_congr (fun c _ => ?_)
  exact isVisible_rename ρ path c

theorem explicitCandidates_rename (hρ : Function.Injective ρ) :
    Pick.explicitCandidates B (s.rename ρ) (path.map (Scope.rename ρ)) t
      = (Pick.explicitCandidates B s path t).map (Candidate.rename ρ) := by
  unfold Pick.explicitCandidates
  rw [candidatesFor_rename B s t hρ, List.filter_map]
  congr 1
  refine List.filter_congr (fun c _ => ?_)
  change ((c.rename ρ).isExplicit
    && Resolve.isVisible (path.map (Scope.rename ρ)) (c.rename ρ)) = _
  rw [Candidate.isExplicit_rename, isVisible_rename]

theorem isMakeable_rename (c : Candidate) :
    Pick.isMakeable B (path.map (Scope.rename ρ)) (c.rename ρ)
      = Pick.isMakeable B path c := by
  cases c with
  | set type element =>
      unfold Candidate.rename Pick.isMakeable
      dsimp only
      rw [merged_rename]
  | _ => rfl

/-- What the shape of a type offers. -/
theorem frameworkCandidates_rename (own : List Candidate) :
    Pick.frameworkCandidates B (s.rename ρ) (path.map (Scope.rename ρ)) t
        (own.map (Candidate.rename ρ))
      = (Pick.frameworkCandidates B s path t own).map (List.map (Candidate.rename ρ)) := by
  have hown : (own.map (Candidate.rename ρ)).filter (fun c => !c.isExplicit)
      = (own.filter (fun c => !c.isExplicit)).map (Candidate.rename ρ) := by
    rw [List.filter_map]
    congr 1
    refine List.filter_congr (fun c _ => ?_)
    simp
  have hself : (Resolve.selfCandidate s t).map (Candidate.rename ρ)
      = Resolve.selfCandidate (s.rename ρ) t := by
    have hcomponent : (s.rename ρ).component = s.component := rfl
    unfold Resolve.selfCandidate
    rw [hcomponent]
    split <;> rfl
  have hchild : (Resolve.childCandidate B path t).map (Candidate.rename ρ)
      = Resolve.childCandidate B (path.map (Scope.rename ρ)) t := by
    unfold Resolve.childCandidate
    split
    · rw [isBuiltIn_rename]
      split <;> rfl
    · rfl
  have hmap : Pick.mapCandidate B (path.map (Scope.rename ρ)) t
      = (Pick.mapCandidate B path t).map (List.map (Candidate.rename ρ)) := by
    unfold Pick.mapCandidate
    rw [merged_rename]
    split
    · cases Collection.merged B.registry B.catalog B.options .map t.nonNull path with
      | error e => rfl
      | ok found => cases found <;> rfl
    · rfl
  unfold Pick.frameworkCandidates
  rw [hown, filterM_map (isMakeable_rename B path), hmap, ← hself, ← hchild]
  cases (own.filter (fun c => !c.isExplicit)).filterM (Pick.isMakeable B path) with
  | error e => rfl
  | ok shaped =>
      cases Pick.mapCandidate B path t with
      | error e => rfl
      | ok map =>
          change Except.ok _ = Except.ok _
          simp only [List.map_append]

/-- The candidates of the first tier of a scope that has any. -/
theorem offer_rename (hρ : Function.Injective ρ) :
    Pick.offer B (s.rename ρ) (path.map (Scope.rename ρ)) t
      = (Pick.offer B s path t).map (List.map (Candidate.rename ρ)) := by
  unfold Pick.offer
  rw [explicitCandidates_rename B s path t hρ, implicitCandidates_rename,
    implicitCandidates_rename, candidatesFor_rename B s t hρ, frameworkCandidates_rename]
  cases Pick.explicitCandidates B s path t with
  | cons c cs => rfl
  | nil =>
      cases Resolve.implicitCandidates B s path t false with
      | cons c cs => rfl
      | nil => cases Resolve.implicitCandidates B s path t true <;> rfl

/-- The choice of an ancestry. -/
theorem Pick.along_rename (hρ : Function.Injective ρ) :
    Pick.along B t (path.map (Scope.rename ρ)) = (Pick.along B t path).rename ρ := by
  induction path with
  | nil => rfl
  | cons s ancestors ih =>
      have hoffer := offer_rename B s (s :: ancestors) t hρ
      rw [List.map_cons] at hoffer ⊢
      rw [Pick.along, Pick.along, hoffer]
      cases Pick.offer B s (s :: ancestors) t with
      | error e => rfl
      | ok candidates =>
          dsimp only [Except.map]
          rw [mostSpecific_map (Candidate.rawType_rename ρ)]
          cases mostSpecific Candidate.rawType t candidates with
          | absent => exact ih
          | chosen c => rfl
          | ambiguous several => rfl

end Offers

end Wiring
