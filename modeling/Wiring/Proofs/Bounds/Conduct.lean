import Wiring.Proofs.Dialogue
import Wiring.Proofs.Ownership.Tree
import Wiring.Proofs.Traversal

/-!
# The dialogues of a search

Answering a request makes nested requests while it looks through candidates and builds
nodes.  Between them it leaves the open requests and the counters alone and adds scopes
below scopes that are there only.  An error of a nested request ends it at once, and of
its own it reports a limit only where expanding modules does.

**Results.**
* `Resolve.answerConduct`: this for the answer to a request, put together from the steps
  of the search.
-/

namespace Wiring

/-! ## Errors that are not limits -/

/-- A fold that fails does so at one of its steps. -/
theorem error_of_foldlM
    {α β ε : Type}
    {f : β → α → Except ε β}
    {as : List α}
    {b : β}
    {e : ε}
    (h : as.foldlM f b = .error e) :
    ∃ b a, f b a = .error e := by
  induction as generalizing b with
  | nil => cases h
  | cons a as ih =>
      rw [List.foldlM_cons] at h
      cases hstep : f b a with
      | error e' =>
          rw [hstep] at h
          cases h
          exact ⟨b, a, hstep⟩
      | ok b' =>
          rw [hstep] at h
          exact ih h

theorem addBinding_error
    {options : Options}
    {scope : String}
    {bindings : List Entry}
    {entry : Entry}
    {e : ResolutionError}
    (h : Scope.addBinding options scope bindings entry = .error e) :
    e.isLimit = false := by
  unfold Scope.addBinding at h
  split at h
  · cases h
  · split at h
    · cases h
    · cases h
    · split at h
      · cases h
      · cases h
        rfl

theorem Graph.pushScope_error
    {B : Build}
    {g : Graph}
    {parent : Option ScopeId}
    {spec : ScopeSpec}
    {found : Contributions}
    {e : ResolutionError}
    (h : g.pushScope B parent spec found = .error e) :
    e.isLimit = false := by
  unfold Graph.pushScope Scope.create at h
  dsimp only at h
  split at h
  · rename_i hcreate
    cases h
    split at hcreate
    · rename_i hfold
      cases hcreate
      obtain ⟨bindings, entry, hadd⟩ := error_of_foldlM hfold
      exact addBinding_error hadd
    · cases hcreate
  · cases h

/-- Appending a scope reports a limit only where expanding its modules does. -/
theorem Graph.addScope_error
    {B : Build}
    {g : Graph}
    {parent : Option ScopeId}
    {spec : ScopeSpec}
    {declarations : List Declaration}
    {e : ResolutionError}
    (h : g.addScope B parent spec declarations = .error e)
    (hlimit : e.isLimit = true) :
    ∃ declarations, expand B.catalog.module? declarations = .error e := by
  unfold Graph.addScope at h
  split at h
  · rename_i hexpand
    cases h
    exact ⟨declarations, hexpand⟩
  · rw [Graph.pushScope_error h] at hlimit
    cases hlimit

theorem Collection.add_error
    {kind : Collection.Kind}
    {t : Ty}
    {scope : String}
    {entries : Collection.Keyed}
    {entry : Entry}
    {e : ResolutionError}
    (h : Collection.add kind t scope entries entry = .error e) :
    e.isLimit = false := by
  unfold Collection.add at h
  split at h
  · cases h
  · split at h
    · cases h
    · split at h
      · cases h
        rfl
      · cases h
      · cases h

theorem Memo.merged_error
    {R : Registry}
    {K : Catalog}
    {options : Options}
    {kind : Collection.Kind}
    {t : Ty}
    {path : List Scope}
    {m m' : Memo}
    {e : ResolutionError}
    (h : m.merged R K options kind t path = (.error e, m')) :
    e.isLimit = false := by
  induction path generalizing m' with
  | nil => cases h
  | cons s ancestors ih =>
      unfold Memo.merged at h
      split at h
      · cases h
      · split at h
        · rename_i habove
          cases h
          exact ih habove
        · split at h
          · rename_i hextended
            cases h
            unfold Collection.extended at hextended
            dsimp only at hextended
            split at hextended
            · rename_i hfold
              cases hextended
              obtain ⟨entries, entry, hadd⟩ := error_of_foldlM hfold
              exact Collection.add_error hadd
            · split at hextended <;> cases hextended
          · cases h

/-! ## What happens between nested requests -/

/-- Whether a graph has the scopes of another one, and others below them. -/
structure Graph.Branches (g g' : Graph) : Prop where
  size_le : g.scopes.size ≤ g'.scopes.size
  rooted : g.Rooted → g'.Rooted
  numbered : g.Numbered → g'.Numbered

namespace Graph.Branches

theorem of_scopes_eq
    {g g' : Graph}
    (h : g'.scopes = g.scopes) :
    g.Branches g' := by
  refine ⟨by rw [h], fun hg i s p hs hp => ?_, fun hg => hg.of_scopes_eq h⟩
  rw [h] at hs
  exact hg i s p hs hp

theorem refl (g : Graph) : g.Branches g := of_scopes_eq rfl

theorem trans
    {g g' g'' : Graph}
    (h : g.Branches g')
    (h' : g'.Branches g'') :
    g.Branches g'' :=
  ⟨h.size_le.trans h'.size_le, fun hg => h'.rooted (h.rooted hg),
    fun hg => h'.numbered (h.numbered hg)⟩

/-- A scope is appended below one that is there. -/
theorem pushScope
    {B : Build}
    {g g' : Graph}
    {scope inner : ScopeId}
    {spec : ScopeSpec}
    {found : Contributions}
    (hp : g.pushScope B (some scope) spec found = .ok (inner, g'))
    (hscope : scope.index < g.scopes.size) :
    g.Branches g' := by
  refine ⟨?_, fun hg => hg.pushScope hp ?_, fun hg => hg.pushScope hp⟩
  · obtain ⟨s₀, s, rfl, -⟩ := Graph.pushScope_eq_ok hp
    simp
  · rintro p ⟨⟩
    exact hscope

end Graph.Branches

/-- Whether a search has gone on, but with the same requests open. -/
structure Search.Moves (s s' : Search) : Prop where
  requests : s'.chain.requests = s.chain.requests
  counter : s'.chain.counter = s.chain.counter
  graph : s.graph.Branches s'.graph

namespace Search.Moves

theorem refl (s : Search) : s.Moves s := ⟨rfl, rfl, .refl _⟩

theorem trans
    {s s' s'' : Search}
    (h : s.Moves s')
    (h' : s'.Moves s'') :
    s.Moves s'' :=
  ⟨h'.requests.trans h.requests, h'.counter.trans h.counter, h.graph.trans h'.graph⟩

end Search.Moves

/-- Whether an error is no limit, or the limit of an expansion of modules. -/
def Build.Raises (B : Build) (e : ResolutionError) : Prop :=
  e.isLimit = true → ∃ declarations, expand B.catalog.module? declarations = .error e

theorem Build.raises_of_not_limit
    {B : Build}
    {e : ResolutionError}
    (h : e.isLimit = false) :
    B.Raises e :=
  fun hlimit => nomatch h.symm.trans hlimit

/-- How a search goes on between nested requests. -/
def Build.manner (B : Build) : Manner ResolutionError Search where
  moves := Search.Moves
  answers s s' := s.graph.Branches s'.graph
  raises := B.Raises
  passes _ := True
  refl := .refl
  trans := .trans
  relays h := (h trivial).elim

namespace Build

variable {B : Build}

/-- Something that holds of a graph, and still does with more scopes below those that are
there. -/
def standing (holds : Graph → Prop)
    (h : ∀ {g g' : Graph}, g.Branches g' → holds g → holds g') : Standing B.manner where
  holds s := holds s.graph
  moved hmoves := h hmoves.graph
  answered := h

/-- Given scopes are there. -/
def known (scopes : ScopeId → Prop) : Standing B.manner :=
  standing (fun g => ∀ scope, scopes scope → scope.index < g.scopes.size)
    (fun hg h scope hscope => Nat.lt_of_lt_of_le (h scope hscope) hg.size_le)

theorem known_imp
    {scopes scopes' : ScopeId → Prop}
    (h : ∀ scope, scopes scope → scopes' scope)
    (s : Search)
    (hs : (known (B := B) scopes').holds s) :
    (known (B := B) scopes).holds s :=
  fun scope hscope => hs scope (h scope hscope)

/-- Every scope knows its position. -/
def numbered : Standing B.manner := standing Graph.Numbered (fun hg h => hg.numbered h)

end Build

namespace Resolve

/-- The dialogues of a step whose nested requests are made by a parameter. -/
abbrev Conducted (B : Build) (P : Standing B.manner) {α : Type}
    (step : (ScopeId → Request → Resolve NodeId) → Resolve α) :=
  Conduct B.manner P
    (fun recur : ScopeId × Request → Resolve NodeId => step (fun scope r => recur (scope, r)))

/-! ## Steps without nested requests -/

section Quiet

variable {B : Build} {P : Standing B.manner} {α : Type}

/-- A step that leaves the chain and the scopes alone, and does not fail. -/
theorem quiet_of_scopes_eq
    {step : Resolve α}
    (h : ∀ s, ∃ a g, step s = .ok a ⟨g, s.chain⟩ ∧ g.scopes = s.graph.scopes) :
    B.manner.Quiet P step := by
  intro s _
  obtain ⟨a, g, hstep, hscopes⟩ := h s
  rw [hstep]
  exact ⟨rfl, rfl, .of_scopes_eq hscopes⟩

/-- A step that leaves everything alone, and may fail. -/
theorem quiet_of_unchanged
    {step : Resolve α}
    (hok : ∀ s a s', step s = .ok a s' → s' = s)
    (herror : ∀ s e s', step s = .error e s' → s' = s ∧ e.isLimit = false) :
    B.manner.Quiet P step := by
  intro s _
  cases hstep : step s with
  | ok a s' =>
      rw [hok s a s' hstep]
      exact .refl s
  | error e s' =>
      obtain ⟨rfl, hlimit⟩ := herror s e s' hstep
      exact ⟨Build.raises_of_not_limit hlimit, .refl _⟩

theorem quiet_graph : B.manner.Quiet P graph :=
  quiet_of_scopes_eq (fun _ => ⟨_, _, rfl, rfl⟩)

theorem quiet_chainFrom (p : NodeId → Bool) : B.manner.Quiet P (chainFrom p) :=
  quiet_of_scopes_eq (fun _ => ⟨_, _, rfl, rfl⟩)

theorem quiet_remember (scope : ScopeId) (t : Ty) (id : NodeId) :
    B.manner.Quiet P (remember scope t id) :=
  quiet_of_scopes_eq (fun _ => ⟨_, _, rfl, rfl⟩)

theorem quiet_modifyNode (id : NodeId) (f : Node → Node) :
    B.manner.Quiet P (modifyNode id f) :=
  quiet_of_scopes_eq (fun _ => ⟨_, _, rfl, rfl⟩)

theorem quiet_interceptorsFor (scope : ScopeId) (t : Ty) :
    B.manner.Quiet P (interceptorsFor B scope t) :=
  quiet_of_scopes_eq (fun _ => ⟨_, _, rfl, rfl⟩)

theorem quiet_pushNode (n : Node) (key : Option Ty) : B.manner.Quiet P (pushNode n key) := by
  cases key with
  | none => exact quiet_of_scopes_eq (fun _ => ⟨_, _, rfl, rfl⟩)
  | some t => exact quiet_of_scopes_eq (fun _ => ⟨_, _, rfl, rfl⟩)

theorem quiet_throw
    {e : ResolutionError}
    (h : e.isLimit = false) :
    B.manner.Quiet P (throw e : Resolve α) :=
  fun s _ => ⟨Build.raises_of_not_limit h, .refl s⟩

theorem quiet_revisit (repeated : NodeId) (inside : List NodeId) :
    B.manner.Quiet P (revisit repeated inside) := by
  refine quiet_of_unchanged (fun s a s' h => (revisit_eq_ok h).2.1) (fun s e s' h => ?_)
  obtain ⟨hs, links, rfl⟩ := revisit_eq_error h
  exact ⟨hs, rfl⟩

theorem quiet_recalled (scope : ScopeId) (t : Ty) : B.manner.Quiet P (recalled scope t) := by
  refine quiet_of_unchanged (fun s found s' h => ?_) (fun s e s' h => ?_)
  · cases found with
    | none => exact (recalled_eq_none h).1
    | some id => exact (recalled_eq_some h).1
  · obtain ⟨hs, links, rfl⟩ := recalled_eq_error h
    exact ⟨hs, rfl⟩

theorem collected_error
    {scope : ScopeId}
    {kind : Collection.Kind}
    {t : Ty}
    {s s' : Search}
    {e : ResolutionError}
    (h : collected B scope kind t s = .error e s') :
    e.isLimit = false := by
  unfold collected at h
  dsimp only at h
  split at h
  · cases h
  · rename_i hmerged
    cases h
    exact Memo.merged_error hmerged

theorem OnlyMemo.quiet
    {step : Resolve α}
    (h : OnlyMemo B step)
    (herror : ∀ {s e s'}, step s = .error e s' → e.isLimit = false) :
    B.manner.Quiet P step := by
  intro s _
  cases hstep : step s with
  | ok a s' =>
      obtain ⟨m, -, rfl⟩ := h.ok hstep
      exact ⟨rfl, rfl, .of_scopes_eq rfl⟩
  | error e s' =>
      obtain ⟨m, -, rfl⟩ := h.error hstep
      exact ⟨Build.raises_of_not_limit (herror hstep), rfl, rfl, .of_scopes_eq rfl⟩

theorem quiet_collected (scope : ScopeId) (kind : Collection.Kind) (t : Ty) :
    B.manner.Quiet P (collected B scope kind t) :=
  (collected_onlyMemo B scope kind t).quiet collected_error

/-- A list that cannot be filtered has an element that cannot be tested. -/
theorem error_of_filterM
    {test : α → Resolve Bool}
    {as : List α}
    {s s' : Search}
    {e : ResolutionError}
    (h : as.filterM test s = .error e s') :
    ∃ a s₁ s₂, test a s₁ = .error e s₂ := by
  rcases bind_eq_error.mp h with h₁ | ⟨kept, s₁, -, h₂⟩
  · clear h
    generalize ([] : List α) = acc at h₁
    induction as generalizing acc s with
    | nil => exact absurd h₁ pure_ne_error
    | cons a as ih =>
        rcases bind_eq_error.mp h₁ with htest | ⟨passes, s₂, -, hrest⟩
        · exact ⟨a, s, s', htest⟩
        · exact ih _ hrest
  · exact absurd h₂ pure_ne_error

theorem frameworkCandidates_error
    {sc : Scope}
    {path : List Scope}
    {t : Ty}
    {own : List Candidate}
    {s s' : Search}
    {e : ResolutionError}
    (h : frameworkCandidates B sc path t own s = .error e s') :
    e.isLimit = false := by
  rcases bind_eq_error.mp h with hshaped | ⟨shaped, s₁, -, hmap⟩
  · obtain ⟨c, s₁, s₂, htest⟩ := error_of_filterM hshaped
    unfold isMakeable at htest
    split at htest
    · rcases bind_eq_error.mp htest with hcollected | ⟨found, s₃, -, h₃⟩
      · exact collected_error hcollected
      · exact absurd h₃ pure_ne_error
    · exact absurd htest pure_ne_error
  · rcases bind_eq_error.mp hmap with hmap | ⟨map, s₂, -, h₂⟩
    · unfold mapCandidate at hmap
      split at hmap
      · rcases bind_eq_error.mp hmap with hcollected | ⟨found, s₃, -, h₃⟩
        · exact collected_error hcollected
        · exact absurd h₃ pure_ne_error
      · exact absurd hmap pure_ne_error
    · exact absurd h₂ pure_ne_error

theorem quiet_frameworkCandidates
    (sc : Scope)
    (path : List Scope)
    (t : Ty)
    (own : List Candidate) :
    B.manner.Quiet P (frameworkCandidates B sc path t own) :=
  (frameworkCandidates_onlyMemo B sc path t own).quiet frameworkCandidates_error

/-- A step that appends scopes below scopes that are there. -/
theorem quiet_extend
    {f : Graph → Except ResolutionError (α × Graph)}
    (hok : ∀ s, P.holds s → ∀ a g, f s.graph = .ok (a, g) → s.graph.Branches g)
    (herror : ∀ g e, f g = .error e → B.Raises e) :
    B.manner.Quiet P (extend f) := by
  intro s hs
  unfold extend
  cases hf : f s.graph with
  | ok p => exact ⟨rfl, rfl, hok s hs p.1 p.2 hf⟩
  | error e => exact ⟨herror s.graph e hf, .refl s⟩

theorem quiet_pushScope
    (scope : ScopeId)
    (spec : ScopeSpec)
    (found : Contributions) :
    B.manner.Quiet (Build.known (· = scope))
      (extend (fun g => g.pushScope B (some scope) spec found)) :=
  quiet_extend (fun _ hs _ _ hp => .pushScope hp (hs scope rfl))
    (fun _ _ hp => Build.raises_of_not_limit (Graph.pushScope_error hp))

theorem quiet_addScope
    (scope : ScopeId)
    (spec : ScopeSpec)
    (declarations : List Declaration) :
    B.manner.Quiet (Build.known (· = scope))
      (extend (fun g => g.addScope B (some scope) spec declarations)) := by
  refine quiet_extend (fun s hs inner g h => ?_) (fun _ _ h => Graph.addScope_error h)
  obtain ⟨found, -, hp⟩ := Graph.addScope_eq_ok h
  exact .pushScope hp (hs scope rfl)

theorem quiet_narrow (id : NodeId) (declared : Declaration) (assisted : Bool) :
    B.manner.Quiet P (modifyGraph (fun g => g.narrowAt B id declared assisted)) :=
  quiet_of_scopes_eq (fun _ => ⟨_, _, rfl, Graph.narrowAt_scopes _ _ _ _ _⟩)

theorem quiet_relocated? (scope owner : ScopeId) (key : Option Ty) :
    B.manner.Quiet P (relocated? scope owner key) := by
  intro s _
  cases h : relocated? scope owner key s with
  | ok found s' =>
      rcases relocated?_eq_ok h with ⟨-, rfl, -⟩ | ⟨t, id, -, -, -, -, -, rfl⟩
      · exact .refl s'
      · exact ⟨rfl, rfl, .of_scopes_eq rfl⟩
  | error e s' =>
      obtain ⟨rfl, links, rfl⟩ := relocated?_eq_error h
      exact ⟨Build.raises_of_not_limit rfl, .refl s'⟩

end Quiet

/-! ## Nodes -/

section Nodes

variable (B : Build) {P : Standing B.manner}

/-- A step without nested requests. -/
def quietly {α : Type} {step : Resolve α} (h : B.manner.Quiet P step) :
    Conducted B P (fun _ => step) :=
  .quiet h

/-- Several requests. -/
def eachConduct (scope : ScopeId) (requests : List Request) :
    Conducted B P (fun resolve => each resolve scope requests) :=
  .mapM (fun r => .call (scope, r)) requests

/-- A step with a node on the chain. -/
def withNodeConduct {α : Type} {step : (ScopeId → Request → Resolve NodeId) → Resolve α}
    (C : Conducted B P step) (id : NodeId) :
    Conducted B P (fun resolve => withNode id (step resolve)) :=
  (C.around (fun s => { s with chain := s.chain.pushNode id })
    (fun s => { s with chain := s.chain.popNode })
    (fun s => ⟨rfl, rfl, .refl s.graph⟩) (fun s => ⟨rfl, rfl, .refl s.graph⟩)).congrAt
    (fun recur s => by
      dsimp only [withNode, bracket]
      cases step (fun scope r => recur (scope, r)) { s with chain := s.chain.pushNode id }
        <;> rfl)

/-- Append a node and remember it. -/
def beginNode (n : Node) (key : Option Ty) (scope : ScopeId) : Resolve NodeId := fun s =>
  .ok s.graph.nextId { s with graph := s.graph.begin n key scope }

theorem quiet_beginNode
    {B : Build}
    {P : Standing B.manner}
    (n : Node)
    (key : Option Ty)
    (scope : ScopeId) :
    B.manner.Quiet P (beginNode n key scope) :=
  quiet_of_scopes_eq (fun s => ⟨_, _, rfl, s.graph.begin_scopes n key scope⟩)

/-- A new node, whose dependencies are requested by a step. -/
def buildNodeConduct (n : Node) (key : Option Ty) (scope : ScopeId)
    {dependencies : (ScopeId → Request → Resolve NodeId) → Resolve (List NodeId)}
    (C : Conducted B P dependencies) :
    Conducted B P (fun resolve => buildNode n key scope (dependencies resolve)) :=
  ((quietly B (quiet_beginNode n key scope)).bind (fun id =>
    ((withNodeConduct B C id).bind (fun ids =>
      ((quietly B (quiet_modifyNode id (fun n => { n with resolved := ids }))).bind
        (fun _ => .pure id) :)) :))).congrAt
    (fun _ s => (buildNode_eq n key scope _ s).symm)

/-- What an interceptor asks for. -/
def attachConduct (id : NodeId) (owner : ScopeId) (t : Ty) (e : Entry) :
    Conducted B P (fun resolve => attach resolve id owner t e) :=
  let position := e.declaration.factoryPosition t
  let dependencies := e.declaration.requestsExcept position
  (withNodeConduct B (eachConduct B owner dependencies) id).bind (fun resolved => .pure
    ({ declaration := e.declaration
       receivers := e.receivers
       factoryParameter := position
       dependencies := dependencies
       resolved := resolved } : Interceptor))

/-- What several interceptors ask for. -/
def attachEachConduct (id : NodeId) (owner : ScopeId) (t : Ty) (entries : List Entry) :
    Conducted B P (fun resolve => entries.mapM (fun e => attach resolve id owner t e)) :=
  .mapM (attachConduct B id owner t) entries

/-- The interceptors of a node. -/
def attachInterceptorsConduct (id : NodeId) (owner : ScopeId) :
    Conducted B P (fun resolve => attachInterceptors B resolve id owner) :=
  ((quietly B quiet_graph).bind (fun g =>
    (Conduct.option
      (fun (n : Node) => ((quietly B (quiet_interceptorsFor owner n.type)).bind (fun visible =>
        ((attachEachConduct B id owner n.type visible).bind (fun attached =>
          quietly B
            (quiet_modifyNode id (fun n => { n with interceptors := attached }))) :)) :))
      (.pure ⟨⟩) (g.node? id) :))).congr
    (fun _ => bind_congr (fun g => by cases g.node? id <;> rfl))

/-- A node for a declaration that is not on the chain. -/
def freshNodeConduct (scope owner : ScopeId) (key : Option Ty) (e : Entry)
    (declared : Declaration) (type : Ty) (assisted : Bool) :
    Conducted B P
      (fun resolve => freshNode B resolve scope owner key e declared type assisted) :=
  ((buildNodeConduct B (.ofDeclaration e declared type assisted owner) key scope
      (eachConduct B owner e.declaration.requests)).bind (fun id =>
    ((quietly B (quiet_narrow id declared assisted)).bind (fun _ =>
      ((attachInterceptorsConduct B id owner).bind (fun _ => .pure id) :)) :))).congr
    (fun _ => (freshNode_eq scope owner key e declared type assisted).symm)

/-- The node that invokes a declaration. -/
def declarationNodeConduct (scope : ScopeId) (declaredIn : Option ScopeId) (key : Option Ty)
    (e : Entry) (declared : Declaration) (assisted : Bool) :
    Conducted B P
      (fun resolve => declarationNode B resolve scope declaredIn key e declared assisted) :=
  let type := if assisted then key.getD e.declaration.type else e.declaration.type
  ((quietly B quiet_graph).bind (fun g =>
    let owner := ownerOf (g.path scope) scope declaredIn e.declaration
    ((quietly B (quiet_chainFrom (isAgain g e.declaration.name type))).bind (fun again =>
      (Conduct.list (fun repeated inside => quietly B (quiet_revisit repeated inside))
        ((quietly B (quiet_relocated? scope owner key)).bind (fun found =>
          (Conduct.option (fun id => .pure id)
            (freshNodeConduct B scope owner key e declared type assisted) found :)) :)
        again :)) :))).congr
    (fun _ => bind_congr (fun _ => bind_congr (fun again => by
      cases again with
      | nil => exact bind_congr (fun found => by cases found <;> rfl)
      | cons repeated inside => rfl)))

/-- The nodes of the entries of a collection. -/
def entryNodesConduct (scope : ScopeId) (entries : List Entry) :
    Conducted B P (fun resolve => entryNodes B resolve scope entries) :=
  .mapM (fun e => declarationNodeConduct B scope none none e e.declaration false) entries

/-- The node that invokes a function alias. -/
def aliasNodeConduct (scope : ScopeId) (key : Ty) (d : Declaration) (type : Ty) :
    Conducted B P (fun resolve => aliasNode resolve scope key d type) :=
  ((quietly B quiet_graph).bind (fun g =>
    ((quietly B (quiet_chainFrom (isAgain g d.name type))).bind (fun again =>
      (Conduct.list (fun repeated inside => quietly B (quiet_revisit repeated inside))
        (buildNodeConduct B (.ofAlias d type scope) (some key) scope
          (eachConduct B scope d.requests))
        again :)) :))).congr
    (fun _ => bind_congr (fun _ => bind_congr (fun again => by cases again <;> rfl)))

/-- The node of a collection. -/
def collectionNodeConduct (scope : ScopeId) (key : Ty) (kind : Collection.Kind) (type : Ty) :
    Conducted B P (fun resolve => collectionNode B resolve scope key kind type) :=
  ((quietly B (quiet_collected scope kind type)).bind (fun merged =>
    (buildNodeConduct B (.ofCollection kind type scope (merged.getD [])) (some key) scope
      (entryNodesConduct B scope (merged.getD [])) :))).congr
    (fun _ => rfl)

/-- The node of a provider, below a scope that is there. -/
def providerNodeConduct (scope : ScopeId) (r : Request) (type : Ty) (parameters : List Ty)
    (returns : Ty) :
    Conducted B (Build.known (· = scope))
      (fun resolve => providerNode B resolve scope r type parameters returns) :=
  ((quietly B quiet_graph).bind (fun g =>
    ((quietly B (quiet_pushScope scope (g.providerSpec B scope type parameters) {})).bind
      (fun inner =>
        (buildNodeConduct B (.ofProvider r type scope inner parameters returns) (some r.type)
          scope (eachConduct B inner [r.provided returns]) :)) :))).congr
    (fun _ => rfl)

/-- The node of a factory of a child component, below a scope that is there. -/
def childComponentNodeConduct (scope : ScopeId) (r : Request) (type : Ty)
    (parameters : List Ty) (component : Ty) :
    Conducted B (Build.known (· = scope))
      (fun resolve => childComponentNode B resolve scope r type parameters component) :=
  let origin := (B.registry.name? component.classifier).getD r.origin
  (Conduct.option
    (fun (c : Component) => ((quietly B (quiet_addScope scope
        (Graph.componentSpec B c .childComponent component parameters)
        c.declarations)).bind (fun inner =>
      (buildNodeConduct B (.ofChildComponent c origin type scope inner parameters)
        (some r.type) scope
        (eachConduct B inner (c.entryPoints.map (fun t => { type := t, origin := origin })))
        :)) :))
    (quietly B (quiet_throw rfl)) (B.catalog.component? component.classifier)).congr
    (fun _ => by
      unfold childComponentNode
      cases B.catalog.component? component.classifier <;> rfl)

/-- The node of an input. -/
theorem quiet_inputNode
    {B : Build}
    {P : Standing B.manner}
    (scope : ScopeId)
    (key : Ty)
    (index : Nat)
    (type : Ty)
    (declaredIn : Option ScopeId) :
    B.manner.Quiet P (inputNode scope key index type declaredIn) := by
  refine quiet_of_scopes_eq (fun s => ?_)
  rw [inputNode_eq]
  split
  · exact ⟨_, _, rfl, rfl⟩
  · exact ⟨_, _, rfl, s.graph.begin_scopes _ _ _⟩

/-- The node of a candidate, for a scope that is there. -/
def nodeOfConduct (scope : ScopeId) (r : Request) :
    (c : Candidate) →
      Conducted B (Build.known (· = scope)) (fun resolve => nodeOf B resolve scope r c)
  | .declaration m =>
      declarationNodeConduct B scope m.declaredIn (some r.type)
        { declaration := m.declaration, receivers := m.receivers } m.declared m.assisted
  | .input index type declaredIn =>
      quietly B (quiet_inputNode scope r.type index type declaredIn)
  | .object type => quietly B (quiet_pushNode (.plain type scope .object) (some r.type))
  | .self type => quietly B (quiet_pushNode (.plain type scope .self) (some r.type))
  | .funAlias d type => aliasNodeConduct B scope r.type d type
  | .provider type parameters returns =>
      providerNodeConduct B scope r type parameters returns
  | .set type _ => collectionNodeConduct B scope r.type .set type
  | .map type => collectionNodeConduct B scope r.type .map type
  | .childComponent type parameters component =>
      childComponentNodeConduct B scope r type parameters component

end Nodes

/-! ## Tiers -/

section Tiers

variable (B : Build) {P : Standing B.manner}

/-- The first of two steps that finds something. -/
def orTryConduct {α : Type}
    {first second : (ScopeId → Request → Resolve NodeId) → Resolve (Option α)}
    (C : Conducted B P first) (D : Conducted B P second) :
    Conducted B P (fun resolve => orTry (first resolve) (second resolve)) :=
  (C.bind (fun found => (Conduct.option (fun a => .pure (some a)) D found :))).congr
    (fun _ => bind_congr (fun found => by cases found <;> rfl))

/-- The candidates of one tier. -/
def tryTierConduct (scope : ScopeId) (r : Request) (tier : Tier)
    (candidates : List Candidate) :
    Conducted B (Build.known (· = scope))
      (fun resolve => tryTier B resolve scope r tier candidates) :=
  match hc : mostSpecific Candidate.rawType r.type candidates with
  | .absent => (Conduct.pure none).congr (fun _ => by unfold tryTier; rw [hc])
  | .chosen c =>
      ((nodeOfConduct B scope r c).bind (fun id => .pure (some id))).congr
        (fun _ => by unfold tryTier; rw [hc])
  | .ambiguous several =>
      (quietly B (quiet_throw rfl)).congr (fun _ => by unfold tryTier; rw [hc])

/-- All tiers of a scope. -/
def ownTiersConduct (s : Scope) (r : Request) (path : List Scope) :
    Conducted B (Build.known (· = s.id)) (fun resolve => ownTiers B resolve s r path) :=
  let own := s.candidatesFor B.registry B.catalog r.type
  orTryConduct B (tryTierConduct B s.id r .explicit _) <|
  orTryConduct B (tryTierConduct B s.id r .internal _) <|
  orTryConduct B (tryTierConduct B s.id r .external _) <|
  (quietly B (quiet_frameworkCandidates s path r.type own)).bind
    (tryTierConduct B s.id r .framework)

/-- What the search of the parent comes to. -/
def inheritConduct (scope : ScopeId) (t : Ty)
    {up : (ScopeId → Request → Resolve NodeId) → Resolve (Option NodeId)}
    (C : Conducted B P up) :
    Conducted B P (fun resolve => inherit scope t (up resolve)) :=
  (C.bind (fun found =>
    (Conduct.option
      (fun id => ((quietly B (quiet_remember scope t id)).bind
        (fun _ => .pure (some id)) :))
      (.pure none) found :))).congr
    (fun _ => bind_congr (fun found => by cases found <;> rfl))

/-- Whether a position is that of a scope on a path. -/
def On (path : List Scope) (id : ScopeId) : Prop := ∃ s ∈ path, s.id = id

/-- A scope and its ancestors, all of which are there. -/
def lookupConduct (r : Request) :
    (scope : Option ScopeId) → (path : List Scope) →
      Conducted B (Build.known (On path)) (fun resolve => lookup B resolve r scope path)
  | none, path => (Conduct.pure none).congr (fun _ => by cases path <;> rfl)
  | some scope, [] => (quietly B (quiet_recalled scope r.type)).congr (fun _ => rfl)
  | some scope, s :: ancestors =>
      let own (g : Graph) : Conducted B (Build.known (On (s :: ancestors)))
          (fun resolve => ownTiers B resolve s r (g.path s.id)) :=
        (ownTiersConduct B s r (g.path s.id)).weaken
          (Build.known_imp (fun _ hid => ⟨s, List.mem_cons_self, hid.symm⟩))
      let above : Conducted B (Build.known (On (s :: ancestors)))
          (fun resolve => lookup B resolve r s.parent ancestors) :=
        (lookupConduct r s.parent ancestors).weaken
          (Build.known_imp (fun _ ⟨s', hs', hid⟩ => ⟨s', List.mem_cons_of_mem s hs', hid⟩))
      let tiers : Conducted B (Build.known (On (s :: ancestors)))
          (fun resolve => graph >>= fun g => orTry (ownTiers B resolve s r (g.path s.id))
            (inherit s.id r.type (lookup B resolve r s.parent ancestors))) :=
        (quietly B quiet_graph).bind
          (fun g => orTryConduct B (own g) (inheritConduct B s.id r.type above))
      (orTryConduct B (quietly B (quiet_recalled scope r.type)) tiers).congr
        (fun _ => (lookup_eq r scope s ancestors).symm)

theorem quiet_unresolved
    {B : Build}
    {P : Standing B.manner}
    (scope : ScopeId)
    (r : Request) :
    B.manner.Quiet P (unresolved scope r) := by
  intro s _
  unfold unresolved
  by_cases hnullable : r.type.nullable = true
  · rw [if_pos hnullable]
    exact ⟨rfl, rfl, .of_scopes_eq rfl⟩
  · rw [if_neg hnullable]
    by_cases hrequired : (!r.required) = true
    · rw [if_pos hrequired]
      exact ⟨rfl, rfl, .of_scopes_eq rfl⟩
    · rw [if_neg hrequired]
      exact ⟨Build.raises_of_not_limit rfl, .refl s⟩

/-- The scopes on a path are there. -/
theorem lt_size_of_on
    {g : Graph}
    (hg : g.Numbered)
    {scope : Option ScopeId}
    {path : List Scope}
    (h : IsPath g scope path)
    {id : ScopeId}
    (hid : On path id) :
    id.index < g.scopes.size := by
  obtain ⟨s, hs, rfl⟩ := hid
  induction path generalizing scope with
  | nil => exact nomatch hs
  | cons s' ancestors ih =>
      cases scope with
      | none => exact h.elim
      | some scope =>
          rcases List.mem_cons.mp hs with rfl | hs
          · rw [hg _ _ h.1]
            exact Graph.lt_size_of_scope? h.1
          · exact ih h.2 hs

/-- The answer to a request that was just opened. -/
def answerConduct (scope : ScopeId) (r : Request) :
    Conducted B Build.numbered (fun resolve => answer B resolve scope r) :=
  let r' := { r with type := B.registry.normalize r.type }
  (Conduct.atState
    (fun (s : Search) => ((lookupConduct B r' (some scope) (s.graph.path scope)).bind
      (fun found =>
        (Conduct.option (fun id => .pure id) (quietly B (quiet_unresolved scope r')) found
          :)) :))
    (fun s hs _ hid => lt_size_of_on hs (s.graph.isPath_path scope) hid)).congrAt
    (fun _ s => by
      dsimp only
      rw [answer_eq]
      exact congrFun (bind_congr (fun found => by cases found <;> rfl)) s)

end Tiers

end Resolve
end Wiring
