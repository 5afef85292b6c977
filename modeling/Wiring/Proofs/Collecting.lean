import Wiring.Proofs.Batched
import Wiring.Proofs.Choice.Memo
import Wiring.Proofs.Collecting.Table

/-!
# What a collection consists of

A scope answers for a collection layer by layer: with what its parent answers, the global
entries at the root, and its own entries.  It need not be asked that way.  List what
contributes to the collection, the global entries first and then those of each scope from
the root down, each entry as it matches in the context of its scope.  The collection is the
table of this list, whatever was asked before.

**Results.**
* `merged_of_not_collides`, `merged_of_collides`: merging layer by layer, in terms of the
  list of all contributions.
* `layered_eq`: along the ancestry of a scope the layers make up this list.
* `Graph.Consulted.consult_eq`: the answer of a scope, after any other questions.
-/

namespace Wiring
namespace Collection

variable (R : Registry) (K : Catalog) (options : Options) (kind : Kind) (t : Ty)

/-! ## All contributions at once -/

/-- The entries that belong to a collection, as they match in a scope. -/
def matching (s : Scope) (entries : List Entry) : List Entry :=
  entries.filterMap (contribution? R kind t s.context)

/-- What contributes to a collection along an ancestry, nearest scope first: the global
entries as they match in the root, and then the entries of each scope from the root
down. -/
def contributions (path : List Scope) : List Entry :=
  (path.getLast?.map (fun root => matching R kind t root (globals K kind))).getD []
    ++ path.reverse.flatMap (fun s => matching R kind t s (locals s kind))

/-- Whether a collection exists along an ancestry. -/
def Exists (path : List Scope) : Prop :=
  contributions R K kind t path ≠ []
    ∨ t.nonNull ∈ K.multibinds
    ∨ (∃ s ∈ path, t.nonNull ∈ s.multibinds)
    ∨ options.emptyCollections = true

instance (path : List Scope) : Decidable (Exists R K options kind t path) :=
  inferInstanceAs (Decidable (_ ∨ _ ∨ _ ∨ _))

/-! ## Layers -/

/-- What a scope adds to the contributions of its parent. -/
def layer (s : Scope) : List Entry :=
  matching R kind t s (sources K kind s)

/-- The contributions of the scopes of an ancestry, layer by layer. -/
def layered : List Scope → List Entry
  | [] => []
  | s :: ancestors => layered ancestors ++ layer R K kind t s

/-- Whether a collection exists along an ancestry, layer by layer. -/
def isPresent : List Scope → Bool
  | [] => false
  | s :: ancestors =>
      isPresent ancestors || isDeclared K t s
        || !(layered R K kind t (s :: ancestors)).isEmpty || options.emptyCollections

/-- What a collection comes to along an ancestry, as far as nothing collides. -/
def outcome (path : List Scope) : Option (List Entry) :=
  if isPresent R K options kind t path then some (settled kind (layered R K kind t path))
  else none

variable {R K options kind t}

/-- Instances of a map entry have keys if the entry has one. -/
theorem isSome_mapKey_of_instantiate?
    {d d' : Declaration}
    (h : R.instantiate? d t = some d') :
    d'.mapKey.isSome = d.mapKey.isSome := by
  unfold Registry.instantiate? at h
  split at h
  · cases h
    rfl
  · obtain ⟨σ, -, rfl⟩ := Option.map_eq_some_iff.mp h
    exact Option.isSome_map

/-- Contributions to a collection have keys. -/
theorem isSome_key?_of_contribution?
    {context : CallContext}
    {e e' : Entry}
    (h : contribution? R kind t context e = some e') :
    (key? kind e').isSome = true := by
  unfold contribution? at h
  split at h
  · cases h
  · rename_i value hvalue
    obtain ⟨m, hm, rfl⟩ := Option.map_eq_some_iff.mp h
    obtain ⟨-, hinstance, -⟩ := Registry.match?_eq_some hm
    cases kind with
    | set => rfl
    | map =>
        have hkey : e.declaration.mapKey.isSome = true := by
          cases hkey : e.declaration.mapKey with
          | some k => rfl
          | none => simp [valueType?, hkey] at hvalue
        obtain ⟨t', hinstance⟩ := hinstance.exists_instantiate?
        have hkey' : m.declaration.mapKey.isSome = true := by
          rw [isSome_mapKey_of_instantiate? hinstance, hkey]
        simpa [key?] using hkey'

theorem isSome_key?_of_layered
    {path : List Scope}
    {e : Entry}
    (he : e ∈ layered R K kind t path) :
    (key? kind e).isSome = true := by
  induction path with
  | nil => cases he
  | cons s ancestors ih =>
      rcases List.mem_append.mp he with he | he
      · exact ih he
      · obtain ⟨e₀, -, hcontribution⟩ := List.mem_filterMap.mp he
        exact isSome_key?_of_contribution? hcontribution

/-- A scope extends what contributions of its ancestors came to by its own layer. -/
theorem extended_of_settled
    {inherited : Option (List Entry)}
    {entries : List Entry}
    (h : inherited.getD [] = settled kind entries)
    (s : Scope) :
    extended R K options kind t s inherited
      = match (layer R K kind t s).foldlM (add kind t s.name) (table kind entries) with
        | .error e => .error e
        | .ok entries =>
            if inherited.isSome || isDeclared K t s || !entries.isEmpty
                || options.emptyCollections then
              .ok (some (entries.map Prod.snd))
            else .ok none := by
  unfold extended
  rw [h]
  change (match (layer R K kind t s).foldlM (add kind t s.name)
    (rekeyed kind (settled kind entries) []) with
    | .error e => _
    | .ok entries => _) = _
  rw [rekeyed_settled]

@[simp] theorem isSome_outcome (path : List Scope) :
    (outcome R K options kind t path).isSome = isPresent R K options kind t path := by
  unfold outcome
  split <;> simp_all

theorem layered_eq_nil_of_not_isPresent
    {path : List Scope}
    (h : ¬ isPresent R K options kind t path = true) :
    layered R K kind t path = [] := by
  cases path with
  | nil => rfl
  | cons s ancestors =>
      simp only [isPresent, Bool.or_eq_true, not_or, Bool.not_eq_true, Bool.not_eq_false',
        List.isEmpty_iff] at h
      exact h.1.2

theorem outcome_getD (path : List Scope) :
    (outcome R K options kind t path).getD [] = settled kind (layered R K kind t path) := by
  unfold outcome
  split
  · rfl
  · rename_i habsent
    rw [layered_eq_nil_of_not_isPresent habsent]
    rfl

/-- What does not collide is merged. -/
theorem merged_of_not_collides
    {path : List Scope}
    (h : ¬ Collides kind (layered R K kind t path)) :
    merged R K options kind t path = .ok (outcome R K options kind t path) := by
  induction path with
  | nil => rfl
  | cons s ancestors ih =>
      have hbefore : ¬ Collides kind (layered R K kind t ancestors) :=
        fun hcollides => h (hcollides.append _)
      have hlayers : layered R K kind t (s :: ancestors)
          = layered R K kind t ancestors ++ layer R K kind t s := rfl
      have hempty : (table kind (layered R K kind t (s :: ancestors))).isEmpty
          = (layered R K kind t (s :: ancestors)).isEmpty :=
        isEmpty_table (fun e he => isSome_key?_of_layered he)
      rw [merged, ih hbefore]
      dsimp only
      rw [extended_of_settled (outcome_getD ancestors), foldlM_add h]
      simp only [← hlayers, hempty, isSome_outcome, map_snd_table]
      rw [outcome, isPresent]
      exact (apply_ite Except.ok _ _ _).symm

/-- What collides in some layer is refused there. -/
theorem merged_of_collides
    {path : List Scope}
    (h : Collides kind (layered R K kind t path)) :
    ∃ k scope existing repeated, merged R K options kind t path
      = .error (.duplicate t k scope existing repeated) := by
  induction path with
  | nil =>
      obtain ⟨k, e, he, -⟩ := h
      exact nomatch he
  | cons s ancestors ih =>
      rw [merged]
      by_cases hbefore : Collides kind (layered R K kind t ancestors)
      · obtain ⟨k, scope, existing, repeated, hrest⟩ := ih hbefore
        refine ⟨k, scope, existing, repeated, ?_⟩
        rw [hrest]
      · obtain ⟨k, existing, repeated, hadd⟩ := foldlM_add_error h hbefore t s.name
        refine ⟨k, s.name, existing, repeated, ?_⟩
        rw [merged_of_not_collides hbefore]
        dsimp only
        rw [extended_of_settled (outcome_getD ancestors), hadd]

/-! ## Layers along an ancestry -/

section Lineages

variable {scopes : Array Scope} {id : ScopeId} {path : List Scope}

/-- A scope with ancestors adds its own entries at the end. -/
theorem contributions_cons
    {ancestors : List Scope}
    (h : ancestors ≠ [])
    (s : Scope) :
    contributions R K kind t (s :: ancestors)
      = contributions R K kind t ancestors ++ matching R kind t s (locals s kind) := by
  have hlast : (s :: ancestors).getLast? = ancestors.getLast? := by
    obtain ⟨parent, rest, rfl⟩ := List.exists_cons_of_ne_nil h
    exact List.getLast?_cons_cons
  unfold contributions
  rw [hlast, List.reverse_cons, List.flatMap_append, List.flatMap_singleton,
    List.append_assoc]

/-- Only the last scope of a lineage is a root, so only that one adds global entries. -/
theorem layered_eq
    (h : Lineage scopes id path) :
    layered R K kind t path = contributions R K kind t path := by
  induction h with
  | root _ hp =>
      simp [layered, layer, contributions, sources, matching, Scope.isRoot, hp]
  | @child _ _ s ancestors _ hp _ hancestors ih =>
      have hlayer : layer R K kind t s = matching R kind t s (locals s kind) := by
        simp [layer, sources, Scope.isRoot, hp]
      rw [layered, ih, hlayer, contributions_cons hancestors.ne_nil]

/-- What lets a collection exist in the first scope of an ancestry. -/
theorem isPresent_cons_iff
    {s : Scope}
    {ancestors : List Scope}
    (h : Lineage scopes id (s :: ancestors)) :
    isPresent R K options kind t (s :: ancestors) = true
      ↔ isPresent R K options kind t ancestors = true ∨ isDeclared K t s = true
        ∨ contributions R K kind t (s :: ancestors) ≠ []
        ∨ options.emptyCollections = true := by
  simp only [isPresent, layered_eq h, Bool.or_eq_true, Bool.not_eq_true',
    List.isEmpty_eq_false_iff, or_assoc]

/-- A collection that exists in some layer exists, and the other way round. -/
theorem isPresent_iff
    (h : Lineage scopes id path) :
    isPresent R K options kind t path = true ↔ Exists R K options kind t path := by
  induction h with
  | @root id s hs hp =>
      have hdeclared : isDeclared K t s = true
          ↔ t.nonNull ∈ K.multibinds ∨ t.nonNull ∈ s.multibinds := by
        simp [isDeclared, Scope.isRoot, hp]
      rw [isPresent_cons_iff (.root hs hp), hdeclared]
      simp only [isPresent, Exists, List.exists_mem_cons_iff, List.not_mem_nil, false_and,
        exists_false]
      grind
  | @child id parent s ancestors hs hp hlt hancestors ih =>
      have hdeclared : isDeclared K t s = true ↔ t.nonNull ∈ s.multibinds := by
        simp [isDeclared, Scope.isRoot, hp]
      have hmore : contributions R K kind t ancestors ≠ [] →
          contributions R K kind t (s :: ancestors) ≠ [] := by
        rw [contributions_cons hancestors.ne_nil]
        exact fun hne hnil => hne (List.append_eq_nil_iff.mp hnil).1
      rw [isPresent_cons_iff (.child hs hp hlt hancestors), hdeclared, ih]
      simp only [Exists, List.exists_mem_cons_iff]
      grind

end Lineages

end Collection

/-! ## Questions to scopes -/

namespace Graph

variable {B : Build} {g g' : Graph}

/-- What a scope answers for a collection, and the graph with what the scopes keep of
it. -/
def consult (B : Build) (g : Graph) (scope : ScopeId) (kind : Collection.Kind) (t : Ty) :
    Except ResolutionError (Option (List Entry)) × Graph :=
  let answered := g.memo.merged B.registry B.catalog B.options kind t (g.path scope)
  (answered.1, g.withMemo answered.2)

/-- A search consults its graph. -/
theorem collected_eq
    (scope : ScopeId)
    (kind : Collection.Kind)
    (t : Ty)
    (s : Search) :
    Resolve.collected B scope kind t s
      = match s.graph.consult B scope kind t with
        | (.ok found, g) => .ok found { s with graph := g }
        | (.error e, g) => .error e { s with graph := g } := by
  unfold Resolve.collected consult
  dsimp only
  rcases s.graph.memo.merged B.registry B.catalog B.options kind t (s.graph.path scope)
    with ⟨_ | _, _⟩ <;> rfl

/-- The graphs that are reached by adding scopes below scopes that are there and by asking
any scopes for collections, for interceptors and for answers to requests. -/
inductive Consulted (B : Build) : Graph → Prop
  | empty : Consulted B .empty
  | scope {g g' : Graph} {parent : Option ScopeId} {spec : ScopeSpec}
      {found : Contributions} {id : ScopeId} :
      Consulted B g →
      (∀ p, parent = some p → p.index < g.scopes.size) →
      g.pushScope B parent spec found = .ok (id, g') →
      Consulted B g'
  | collection {g : Graph} (scope : ScopeId) (kind : Collection.Kind) (t : Ty) :
      Consulted B g →
      Consulted B (g.consult B scope kind t).2
  | interceptors {g : Graph} (scope : ScopeId) (t : Ty) :
      Consulted B g →
      Consulted B (g.withMemo
        (g.memo.visible B.registry B.catalog t (g.path scope)).2)
  | resolve {g : Graph} (scope : ScopeId) (r : Request) :
      Consulted B g →
      Consulted B (g.resolve B scope r).2
  | all {g : Graph} (scope : ScopeId) (rs : List Request) :
      Consulted B g →
      Consulted B (g.resolveAll B scope rs).2
  | entryPoints {g : Graph} (scope : ScopeId) :
      Consulted B g →
      Consulted B (g.resolveEntryPoints B scope).2

namespace Consulted

theorem withScope
    (h : Consulted B g)
    {parent : Option ScopeId}
    (hparent : ∀ p, parent = some p → p.index < g.scopes.size)
    (spec : ScopeSpec)
    (declarations : List Declaration) :
    Consulted B (g.withScope B parent spec declarations) := by
  unfold Graph.withScope
  split
  · rename_i hadd
    obtain ⟨found, -, hp⟩ := addScope_eq_ok hadd
    exact h.scope hparent hp
  · exact h

/-- What scopes keep is right, whatever they are asked. -/
theorem faithful (h : Consulted B g) : g.Faithful B := by
  have hresolve : ∀ {g : Graph} (scope : ScopeId) (r : Request), g.Faithful B →
      (g.resolve B scope r).2.Faithful B := fun scope r hg => (hg.resolve scope r).1
  have hmerged : ∀ {g : Graph}, g.Faithful B → g.merged.Faithful B :=
    fun hg => hg.congr rfl rfl
  induction h with
  | empty => exact Faithful.empty
  | scope _ hparent hp ih => exact ih.pushScope hparent hp
  | collection scope kind t _ ih => exact ih.merges (.collection kind t scope .none)
  | interceptors scope t _ ih => exact ih.merges (.interceptors t scope .none)
  | resolve scope r _ ih => exact hresolve scope r ih
  | all scope rs _ ih =>
      exact resolveAll_keeps (P := Graph.Faithful B) (hresolve scope) hmerged rs ih
  | entryPoints scope _ ih =>
      exact resolveEntryPoints_keeps (P := Graph.Faithful B) (hresolve scope) hmerged ih

/-- A scope answers what it would answer if nothing had been kept. -/
theorem consult_eq_merged
    (h : Consulted B g)
    {scope : ScopeId}
    (hscope : scope.index < g.scopes.size)
    (kind : Collection.Kind)
    (t : Ty) :
    (g.consult B scope kind t).1
      = Collection.merged B.registry B.catalog B.options kind t (g.path scope) :=
  Memo.merged_of_agrees _ _ _ kind t g.memo (g.path scope)
    (h.faithful.memo.agrees h.faithful.tree.numbered (h.faithful.rooted.lineage hscope))

/-- A scope that is there refuses a collection exactly if one of all contributions collides
with an earlier one; otherwise it answers with what they come to, if the collection
exists. -/
theorem consult_eq
    (h : Consulted B g)
    {scope : ScopeId}
    (hscope : scope.index < g.scopes.size)
    (kind : Collection.Kind)
    (t : Ty) :
    let path := g.path scope
    let contributed := Collection.contributions B.registry B.catalog kind t path
    ((∃ k name existing repeated, (g.consult B scope kind t).1
          = .error (.duplicate t k name existing repeated))
        ↔ Collection.Collides kind contributed)
      ∧ (¬ Collection.Collides kind contributed →
        (g.consult B scope kind t).1
          = .ok (if Collection.Exists B.registry B.catalog B.options kind t path then
              some (Collection.settled kind contributed) else none)) := by
  intro path contributed
  have hlineage : Lineage g.scopes scope path := h.faithful.rooted.lineage hscope
  have hlayers : Collection.layered B.registry B.catalog kind t path = contributed :=
    Collection.layered_eq hlineage
  have hok : ¬ Collection.Collides kind contributed → (g.consult B scope kind t).1
      = .ok (Collection.outcome B.registry B.catalog B.options kind t path) := by
    intro hfree
    rw [h.consult_eq_merged hscope]
    exact Collection.merged_of_not_collides (by rwa [hlayers])
  refine ⟨⟨fun hrefused => ?_, fun hcollides => ?_⟩, fun hfree => ?_⟩
  · obtain ⟨k, name, existing, repeated, hrefused⟩ := hrefused
    by_contra hfree
    rw [hok hfree] at hrefused
    cases hrefused
  · rw [h.consult_eq_merged hscope]
    exact Collection.merged_of_collides (by rwa [hlayers])
  · rw [hok hfree, Collection.outcome, hlayers]
    simp only [Collection.isPresent_iff hlineage]

end Consulted
/-! ## Entries of two scopes -/

/-- A class of plugins and one of names. -/
def plugins : Build where
  registry :=
    { Registry.initial with registered := #[{ name := ⟨"Plugin"⟩ }, { name := ⟨"Name"⟩ }] }

/-- Plugins by their names. -/
def pluginMap : Ty := .mapOf (.of ⟨17⟩) (.of ⟨16⟩)

/-- A declaration that contributes a plugin under a name. -/
def plugin (name key : String) (policy : DuplicatePolicy) : Declaration :=
  { name := ⟨name⟩
    type := .of ⟨16⟩
    role := .mapEntry
    policy := policy
    mapKey := some { type := .of ⟨17⟩, value := key } }

/-- An application with two plugins. -/
def applicationGraph : Graph :=
  Graph.empty.withScope plugins none { name := "App" }
    [plugin "app.print" "print" .fail, plugin "app.share" "share" .fail]

/-- A page of the application with three more: one in case there is none of its name, one
in place of the application's, and one of a new name. -/
def pageGraph : Graph :=
  applicationGraph.withScope plugins (some ⟨0⟩) { name := "Page" }
    [ plugin "page.share" "share" .drop,
      plugin "page.print" "print" .override,
      plugin "page.edit" "edit" .fail ]

/-- The application was asked for its plugins before. -/
def askedGraph : Graph := (pageGraph.consult plugins ⟨0⟩ .map pluginMap).2

theorem askedGraph_consulted : Consulted plugins askedGraph := by
  have happlication : Consulted plugins applicationGraph := by
    refine Consulted.empty.withScope ?_ _ _
    exact fun p hp => nomatch hp
  have hpage : Consulted plugins pageGraph := by
    refine happlication.withScope ?_ _ _
    rintro p ⟨⟩
    decide +kernel
  exact hpage.collection ⟨0⟩ .map pluginMap

/-- The plugins of the page keep the order of the application's. -/
theorem askedGraph_consult_eq :
    let path := askedGraph.path ⟨1⟩
    let contributed :=
      Collection.contributions plugins.registry plugins.catalog .map pluginMap path
    Consulted plugins askedGraph ∧ 1 < askedGraph.scopes.size
      ∧ (((∃ k name existing repeated, (askedGraph.consult plugins ⟨1⟩ .map pluginMap).1
            = .error (.duplicate pluginMap k name existing repeated))
          ↔ Collection.Collides .map contributed)
        ∧ (¬ Collection.Collides .map contributed →
          (askedGraph.consult plugins ⟨1⟩ .map pluginMap).1
            = .ok (if Collection.Exists plugins.registry plugins.catalog plugins.options
                .map pluginMap path then some (Collection.settled .map contributed)
              else none)))
      ∧ (askedGraph.consult plugins ⟨1⟩ .map pluginMap).1.toOption.join.map
          (List.map Entry.origin)
        = some [⟨"page.print"⟩, ⟨"app.share"⟩, ⟨"page.edit"⟩] := by
  have hscope : 1 < askedGraph.scopes.size := by decide +kernel
  refine ⟨askedGraph_consulted, hscope, ?_, by decide +kernel⟩
  exact Consulted.consult_eq askedGraph_consulted hscope .map pluginMap

end Graph
end Wiring
