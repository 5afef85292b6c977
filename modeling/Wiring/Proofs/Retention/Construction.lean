import Wiring.Proofs.Answers

/-!
# Construction of nodes keeps answers

A scope remembers a new answer only after it was found to have none, and the owner of a
node likewise.  Meanwhile further answers may be remembered, but those were not there
before the search either.  So no answer from before a search is replaced, whether the
search succeeds or fails.

`Ends` says this of any step of a search: something holds in the end, with an answer or
with an error.

**Results.**
* `Resolve.Ends.bind`, `Resolve.Ends.mapM`, and others: `Ends` for composed steps.
* `Resolve.nodeOf_retains`: the node of a candidate is built without replacing an answer
  from before, if the scope had none for the request.
-/

namespace Wiring

/-! ## Answers that are looked up -/

/-- An entry that is found is found among those that are kept. -/
theorem lookup_filter_of_pos
    {α β : Type}
    [BEq α]
    [LawfulBEq α]
    {p : α × β → Bool}
    {entries : List (α × β)}
    {key : α}
    {value : β}
    (h : entries.lookup key = some value)
    (hp : p (key, value) = true) :
    (entries.filter p).lookup key = some value := by
  induction entries with
  | nil => exact nomatch h
  | cons e entries ih =>
      rw [List.lookup_cons] at h
      by_cases hkey : key = e.1
      · subst hkey
        have hself : (e.1 == e.1) = true := beq_self_eq_true e.1
        rw [hself] at h
        cases h
        rw [List.filter_cons_of_pos hp, List.lookup_cons, hself]
      · have hne : (key == e.1) = false := by simpa using hkey
        rw [hne] at h
        by_cases hkept : p e = true
        · rw [List.filter_cons_of_pos hkept, List.lookup_cons, hne]
          exact ih h
        · rw [List.filter_cons_of_neg hkept]
          exact ih h

namespace Answers

variable {answers : Answers} {scope scope' : ScopeId} {t t' : Ty} {id id' : NodeId}

/-- Other answers are found as before. -/
theorem find?_insert_of_ne
    (h : answers.find? scope t = some id)
    (hne : (scope, t) ≠ (scope', t')) :
    (answers.insert scope' t' id').find? scope t = some id := by
  have hkey : ((scope, t) == (scope', t')) = false := by simpa using hne
  unfold find? insert
  rw [List.lookup_cons, hkey]
  exact lookup_filter_of_pos h (decide_eq_true hne)

/-- Answers that name a scope and a node from before are found after cutting back. -/
theorem find?_restrict
    {nodes scopes : Nat}
    (h : answers.find? scope t = some id)
    (hid : id.index < nodes)
    (hscope : scope.index < scopes) :
    (answers.restrict nodes scopes).find? scope t = some id :=
  lookup_filter_of_pos h (by simp [hid, hscope])

end Answers

/-! ## Retained answers -/

/-- Whether a graph still has all answers of a list, and its scopes know their
positions. -/
structure Graph.Retains (base : Answers) (g : Graph) : Prop where
  numbered : g.Numbered
  kept {scope : ScopeId} {t : Ty} {id : NodeId} :
    base.find? scope t = some id → g.answers.find? scope t = some id

namespace Graph.Retains

variable {base : Answers} {g g' : Graph}

theorem refl (hg : g.Numbered) : g.Retains g.answers :=
  ⟨hg, id⟩

/-- What a graph does not answer was not answered. -/
theorem absent
    (h : g.Retains base)
    {scope : ScopeId}
    {t : Ty}
    (hnone : g.answers.find? scope t = none) :
    base.find? scope t = none := by
  cases hfind : base.find? scope t with
  | none => rfl
  | some id => exact nomatch (h.kept hfind).symm.trans hnone

theorem of_eq
    (h : g.Retains base)
    (hscopes : g'.scopes = g.scopes)
    (hanswers : g'.answers = g.answers) :
    g'.Retains base := by
  refine ⟨fun i s hs => ?_, fun hfind => ?_⟩
  · rw [hscopes] at hs
    exact h.numbered i s hs
  · rw [hanswers]
    exact h.kept hfind

/-- An answer is remembered where there was none. -/
theorem remember
    (h : g.Retains base)
    {scope : ScopeId}
    {t : Ty}
    (hnone : base.find? scope t = none)
    (id : NodeId) :
    (g.remember scope t id).Retains base := by
  refine ⟨h.numbered, fun {scope' t' id'} hfind => ?_⟩
  refine Answers.find?_insert_of_ne (h.kept hfind) ?_
  rintro ⟨⟩
  exact nomatch hfind.symm.trans hnone

theorem begin
    (h : g.Retains base)
    (n : Node)
    {key : Option Ty}
    {scope : ScopeId}
    (hkey : ∀ t, key = some t →
      base.find? n.owner t = none ∧ base.find? scope t = none) :
    (g.begin n key scope).Retains base := by
  have happend : (g.append n).Retains base := h.of_eq rfl rfl
  unfold Graph.begin
  cases key with
  | none => exact happend
  | some t =>
      obtain ⟨howner, hscope⟩ := hkey t rfl
      dsimp only
      split
      · exact happend.remember howner _
      · exact (happend.remember howner _).remember hscope _

theorem narrowAt
    (h : g.Retains base)
    (B : Build)
    (id : NodeId)
    (declared : Declaration)
    (assisted : Bool) :
    (g.narrowAt B id declared assisted).Retains base :=
  h.of_eq (Graph.narrowAt_scopes _ _ _ _ _) (Graph.narrowAt_answers _ _ _ _ _)

theorem pushScope
    {B : Build}
    (h : g.Retains base)
    {parent : Option ScopeId}
    {spec : ScopeSpec}
    {found : Contributions}
    {inner : ScopeId}
    (hp : g.pushScope B parent spec found = .ok (inner, g')) :
    g'.Retains base := by
  refine ⟨h.numbered.pushScope hp, fun hfind => ?_⟩
  rw [(Graph.pushScope_answers hp).1]
  exact h.kept hfind

end Graph.Retains

namespace Resolve

/-! ## How steps end -/

/-- Whether something holds after a step, if it ends with an answer and if it ends with
an error. -/
def Ends {α : Type} (P : Search → Prop) (step : Resolve α) (s : Search) : Prop :=
  match step s with
  | .ok _ s' => P s'
  | .error _ s' => P s'

namespace Ends

variable {α β : Type} {P : Search → Prop} {s s' : Search}

theorem ok
    {step : Resolve α}
    (h : Ends P step s)
    {a : α}
    (hstep : step s = .ok a s') :
    P s' := by
  unfold Ends at h
  rwa [hstep] at h

theorem error
    {step : Resolve α}
    (h : Ends P step s)
    {e : ResolutionError}
    (hstep : step s = .error e s') :
    P s' := by
  unfold Ends at h
  rwa [hstep] at h

theorem of_outcomes
    {step : Resolve α}
    (hok : ∀ a s', step s = .ok a s' → P s')
    (herror : ∀ e s', step s = .error e s' → P s') :
    Ends P step s := by
  unfold Ends
  split
  · exact hok _ _ ‹_›
  · exact herror _ _ ‹_›

theorem of_ok
    {step : Resolve α}
    {a : α}
    (h : P s')
    (heq : step s = .ok a s') :
    Ends P step s := by
  unfold Ends
  rwa [heq]

theorem of_error
    {step : Resolve α}
    {e : ResolutionError}
    (h : P s')
    (heq : step s = .error e s') :
    Ends P step s := by
  unfold Ends
  rwa [heq]

/-- A step that does what another one does in another state. -/
theorem congr
    {step step' : Resolve α}
    (h : Ends P step' s')
    (heq : step s = step' s') :
    Ends P step s := by
  unfold Ends
  rw [heq]
  exact h

/-- A step that leaves the state alone. -/
theorem of_unchanged
    {step : Resolve α}
    (h : P s)
    (hstep : Ends (fun s' => s' = s) step s) :
    Ends P step s :=
  of_outcomes (fun _ _ heq => hstep.ok heq ▸ h) (fun _ _ heq => hstep.error heq ▸ h)

theorem pure (h : P s) (a : α) : Ends P (pure a) s := h

theorem throw (h : P s) (e : ResolutionError) : Ends P (throw e : Resolve α) s := h

theorem bind
    {x : Resolve α}
    {f : α → Resolve β}
    (hx : Ends P x s)
    (hf : ∀ a s₁, x s = .ok a s₁ → P s₁ → Ends P (f a) s₁) :
    Ends P (x >>= f) s := by
  refine of_outcomes (fun b s' h => ?_) (fun e s' h => ?_)
  · obtain ⟨a, s₁, h₁, h₂⟩ := bind_eq_ok.mp h
    exact (hf a s₁ h₁ (hx.ok h₁)).ok h₂
  · rcases bind_eq_error.mp h with h₁ | ⟨a, s₁, h₁, h₂⟩
    · exact hx.error h₁
    · exact (hf a s₁ h₁ (hx.ok h₁)).error h₂

/-- What every step of a list keeps is kept by all of them. -/
theorem mapM
    {f : α → Resolve β}
    (hf : ∀ a s, P s → Ends P (f a) s)
    (as : List α)
    (h : P s) :
    Ends P (as.mapM f) s := by
  induction as generalizing s with
  | nil =>
      rw [List.mapM_nil]
      exact .pure h []
  | cons a as ih =>
      rw [List.mapM_cons]
      refine .bind (hf a s h) (fun b s₁ _ h₁ => ?_)
      exact .bind (ih h₁) (fun bs s₂ _ h₂ => .pure h₂ _)

theorem orTry
    {first second : Resolve (Option α)}
    (hfirst : Ends P first s)
    (hsecond : ∀ s₁, first s = .ok none s₁ → P s₁ → Ends P second s₁) :
    Ends P (orTry first second) s := by
  refine .bind hfirst (fun found s₁ h₁ hP => ?_)
  cases found with
  | some a => exact .pure hP _
  | none => exact hsecond s₁ h₁ hP

theorem extend
    {f : Graph → Except ResolutionError (α × Graph)}
    (h : P s)
    (hf : ∀ a g, f s.graph = .ok (a, g) → P { s with graph := g }) :
    Ends P (extend f) s := by
  refine of_outcomes (fun a s' hstep => ?_) (fun e s' hstep => ?_)
  · obtain ⟨hrun, hchain⟩ := extend_eq_ok hstep
    have hkept := hf a s'.graph hrun
    rw [← hchain] at hkept
    exact hkept
  · rw [extend_eq_error hstep]
    exact h

/-- A step between two changes of the chain. -/
theorem bracket
    {before after : Chain → Chain}
    {step : Resolve α}
    (h : Ends P step { s with chain := before s.chain })
    (hafter : ∀ s', P s' → P { s' with chain := after s'.chain }) :
    Ends P (bracket before after step) s := by
  unfold Ends Resolve.bracket
  cases hstep : step { s with chain := before s.chain } with
  | ok a s' => exact hafter s' (h.ok hstep)
  | error e s' => exact hafter s' (h.error hstep)

end Ends

theorem ends_revisit (repeated : NodeId) (inside : List NodeId) (s : Search) :
    Ends (fun s' => s' = s) (revisit repeated inside) s :=
  .of_outcomes (fun _ _ h => (revisit_eq_ok h).2.1) (fun _ _ h => (revisit_eq_error h).1)

/-! ## Steps that retain answers -/

/-- Whether a step retains answers wherever it is run. -/
def Retaining (base : Answers) {α : Type} (step : Resolve α) : Prop :=
  ∀ s : Search, s.graph.Retains base → Ends (fun s' => s'.graph.Retains base) step s

section Retaining

variable {base : Answers} {α : Type}

theorem OnlyMemo.retaining
    {B : Build}
    {step : Resolve α}
    (h : OnlyMemo B step) :
    Retaining base step := by
  intro s hs
  refine .of_outcomes (fun a s' hstep => ?_) (fun e s' hstep => ?_)
  · obtain ⟨m, -, rfl⟩ := h.ok hstep
    exact hs.of_eq rfl rfl
  · obtain ⟨m, -, rfl⟩ := h.error hstep
    exact hs.of_eq rfl rfl

/-- The chain does not matter. -/
theorem Retaining.bracket
    {step : Resolve α}
    (h : Retaining base step)
    (before after : Chain → Chain) :
    Retaining base (bracket before after step) :=
  fun _ hs => .bracket (h _ hs) (fun _ hs' => hs')

theorem retaining_modifyNode
    (id : NodeId)
    (f : Node → Node) :
    Retaining base (modifyNode id f) :=
  fun _ hs => hs.of_eq rfl rfl

/-- A new node is built where there was no answer, neither of the owner nor of the scope
that asks. -/
theorem buildNode_retains
    {n : Node}
    {key : Option Ty}
    {scope : ScopeId}
    {dependencies : Resolve (List NodeId)}
    (hdependencies : Retaining base dependencies)
    (hkey : ∀ t, key = some t → base.find? n.owner t = none ∧ base.find? scope t = none) :
    Retaining base (buildNode n key scope dependencies) := by
  intro s hs
  refine .congr ?_ (buildNode_eq n key scope dependencies s)
  refine .bind (hdependencies.bracket _ _ _ (hs.begin n hkey)) (fun ids s₁ _ hs₁ => ?_)
  exact .bind (retaining_modifyNode _ _ s₁ hs₁) (fun _ _ _ hs₂ => .pure hs₂ _)

end Retaining

/-! ## Nodes of candidates -/

section Nodes

variable {B : Build} {base : Answers} {resolve : ScopeId → Request → Resolve NodeId}

theorem each_retains
    (hresolve : ∀ scope r, Retaining base (resolve scope r))
    (scope : ScopeId)
    (rs : List Request) :
    Retaining base (each resolve scope rs) :=
  fun _ hs => .mapM (fun r s hs => hresolve scope r s hs) rs hs

theorem attach_retains
    (hresolve : ∀ scope r, Retaining base (resolve scope r))
    (id : NodeId)
    (owner : ScopeId)
    (t : Ty)
    (e : Entry) :
    Retaining base (attach resolve id owner t e) :=
  fun s hs => .bind ((each_retains hresolve owner _).bracket _ _ s hs)
    (fun _ _ _ hs₁ => .pure hs₁ _)

theorem attachInterceptors_retains
    (hresolve : ∀ scope r, Retaining base (resolve scope r))
    (id : NodeId)
    (owner : ScopeId) :
    Retaining base (attachInterceptors B resolve id owner) := by
  intro s hs
  unfold Ends attachInterceptors
  rw [graph_bind_eq]
  cases s.graph.node? id with
  | none => exact hs
  | some n =>
      refine Ends.bind ?_ (fun entries s₁ _ hs₁ => ?_)
      · exact hs.of_eq rfl rfl
      · refine .bind (.mapM (fun e s hs => attach_retains hresolve id owner _ e s hs) _ hs₁)
          (fun attached s₂ _ hs₂ => ?_)
        exact retaining_modifyNode _ _ s₂ hs₂

theorem freshNode_retains
    (hresolve : ∀ scope r, Retaining base (resolve scope r))
    {scope owner : ScopeId}
    {key : Option Ty}
    (hkey : ∀ t, key = some t → base.find? owner t = none ∧ base.find? scope t = none)
    (e : Entry)
    (declared : Declaration)
    (type : Ty)
    (assisted : Bool) :
    Retaining base (freshNode B resolve scope owner key e declared type assisted) := by
  intro s hs
  rw [freshNode_eq]
  refine .bind (buildNode_retains (each_retains hresolve owner _) hkey s hs)
    (fun id s₁ _ hs₁ => ?_)
  refine .bind (hs₁.narrowAt B id declared assisted) (fun _ s₂ _ hs₂ => ?_)
  exact .bind (attachInterceptors_retains hresolve id owner s₂ hs₂)
    (fun _ _ _ hs₃ => .pure hs₃ id)

/-- An answer is only taken over from the owner if the requesting scope had none, and a
node only built if neither had one. -/
theorem declarationNode_retains
    (hresolve : ∀ scope r, Retaining base (resolve scope r))
    {scope : ScopeId}
    {key : Option Ty}
    (hkey : ∀ t, key = some t → base.find? scope t = none)
    (declaredIn : Option ScopeId)
    (e : Entry)
    (declared : Declaration)
    (assisted : Bool) :
    Retaining base (declarationNode B resolve scope declaredIn key e declared assisted) := by
  intro s hs
  have heq := @declarationNode_eq B resolve scope declaredIn key e declared assisted s
  dsimp only at heq
  split at heq
  · exact .congr (.of_unchanged hs (ends_revisit _ _ s)) heq
  · refine .congr (.bind ?_ (fun found s₁ h₁ hs₁ => ?_)) heq
    · refine .of_outcomes (fun found s₁ h₁ => ?_) (fun err s₁ h₁ => ?_)
      · rcases relocated?_eq_ok h₁ with ⟨-, rfl, -⟩ | ⟨t, id, ht, -, -, -, -, rfl⟩
        · exact hs
        · exact hs.remember (hkey t ht) id
      · rw [(relocated?_eq_error h₁).1]
        exact hs
    · rcases relocated?_eq_ok h₁ with ⟨rfl, rfl, hnone⟩ | ⟨t, id, -, rfl, -⟩
      · refine freshNode_retains hresolve (fun t ht => ⟨?_, hkey t ht⟩) _ _ _ _ s₁ hs
        by_cases howner : ownerOf (s₁.graph.path scope) scope declaredIn e.declaration = scope
        · rw [howner]
          exact hkey t ht
        · exact hs.absent (hnone t ht howner)
      · exact .pure hs₁ id

theorem entryNodes_retains
    (hresolve : ∀ scope r, Retaining base (resolve scope r))
    (scope : ScopeId)
    (entries : List Entry) :
    Retaining base (entryNodes B resolve scope entries) := by
  intro s hs
  refine .mapM (fun e s hs => ?_) entries hs
  have hkey : ∀ t, none = some t → base.find? scope t = none := fun t ht => nomatch ht
  exact declarationNode_retains hresolve hkey none e _ false s hs

theorem inputNode_retains
    {scope : ScopeId}
    {t : Ty}
    (hnone : base.find? scope t = none)
    (index : Nat)
    (type : Ty)
    (declaredIn : Option ScopeId) :
    Retaining base (inputNode scope t index type declaredIn) := by
  intro s hs
  have heq := inputNode_eq scope t index type declaredIn s
  cases hfind : s.graph.answers.find? (declaredIn.getD scope) t with
  | some id =>
      rw [hfind] at heq
      exact .of_ok (hs.remember hnone id) heq
  | none =>
      rw [hfind] at heq
      have hbegin : (s.graph.begin (.plain type (declaredIn.getD scope) (.input index))
          (some t) scope).Retains base := by
        refine hs.begin _ (fun t' ht' => ?_)
        cases ht'
        exact ⟨hs.absent hfind, hnone⟩
      exact .of_ok hbegin heq

/-- A new node of the requesting scope itself. -/
theorem ownNode_retains
    {n : Node}
    {t : Ty}
    (hnone : base.find? n.owner t = none)
    {dependencies : Resolve (List NodeId)}
    (hdependencies : Retaining base dependencies) :
    Retaining base (buildNode n (some t) n.owner dependencies) := by
  refine buildNode_retains hdependencies (fun t' ht' => ?_)
  cases ht'
  exact ⟨hnone, hnone⟩

theorem aliasNode_retains
    (hresolve : ∀ scope r, Retaining base (resolve scope r))
    {scope : ScopeId}
    {t : Ty}
    (hnone : base.find? scope t = none)
    (d : Declaration)
    (type : Ty) :
    Retaining base (aliasNode resolve scope t d type) := by
  intro s hs
  have heq := @aliasNode_eq resolve scope t d type s
  split at heq
  · exact .congr (.of_unchanged hs (ends_revisit _ _ s)) heq
  · exact .congr (ownNode_retains (n := .ofAlias d type scope) hnone
      (each_retains hresolve scope _) s hs) heq

theorem collectionNode_retains
    (hresolve : ∀ scope r, Retaining base (resolve scope r))
    {scope : ScopeId}
    {t : Ty}
    (hnone : base.find? scope t = none)
    (kind : Collection.Kind)
    (type : Ty) :
    Retaining base (collectionNode B resolve scope t kind type) := by
  intro s hs
  refine .bind ((collected_onlyMemo B scope kind type).retaining s hs)
    (fun merged s₁ _ hs₁ => ?_)
  exact ownNode_retains (n := .ofCollection kind type scope (merged.getD [])) hnone
    (entryNodes_retains hresolve scope _) s₁ hs₁

theorem providerNode_retains
    (hresolve : ∀ scope r, Retaining base (resolve scope r))
    {scope : ScopeId}
    {r : Request}
    (hnone : base.find? scope r.type = none)
    (type : Ty)
    (parameters : List Ty)
    (returns : Ty) :
    Retaining base (providerNode B resolve scope r type parameters returns) := by
  intro s hs
  unfold Ends providerNode
  rw [graph_bind_eq]
  refine Ends.bind (.extend hs (fun inner g hp => hs.pushScope hp)) (fun inner s₁ _ hs₁ => ?_)
  exact ownNode_retains (n := .ofProvider r type scope inner parameters returns) hnone
    (each_retains hresolve inner _) s₁ hs₁

theorem childComponentNode_retains
    (hresolve : ∀ scope r, Retaining base (resolve scope r))
    {scope : ScopeId}
    {r : Request}
    (hnone : base.find? scope r.type = none)
    (type : Ty)
    (parameters : List Ty)
    (component : Ty) :
    Retaining base (childComponentNode B resolve scope r type parameters component) := by
  intro s hs
  unfold childComponentNode
  cases B.catalog.component? component.classifier with
  | none => exact hs
  | some c =>
      refine .bind (.extend hs (fun inner g hp => ?_)) (fun inner s₁ _ hs₁ => ?_)
      · obtain ⟨found, -, hp⟩ := Graph.addScope_eq_ok hp
        exact hs.pushScope hp
      · exact ownNode_retains (n := .ofChildComponent c _ type scope inner parameters) hnone
          (each_retains hresolve inner _) s₁ hs₁

/-- The node of a candidate is built without replacing an answer. -/
theorem nodeOf_retains
    (hresolve : ∀ scope r, Retaining base (resolve scope r))
    {scope : ScopeId}
    {r : Request}
    (hnone : base.find? scope r.type = none)
    (c : Candidate) :
    Retaining base (nodeOf B resolve scope r c) := by
  have hleaf : ∀ type kind, Retaining base (leaf (.plain type scope kind) r.type) :=
    fun type kind s hs => by
      have happend : (s.graph.append (.plain type scope kind)).Retains base :=
        hs.of_eq rfl rfl
      exact happend.remember hnone s.graph.nextId
  cases c with
  | declaration m =>
      refine declarationNode_retains hresolve (fun t ht => ?_) _ _ _ _
      cases ht
      exact hnone
  | input index type declaredIn => exact inputNode_retains hnone index type declaredIn
  | object type => exact hleaf type .object
  | self type => exact hleaf type .self
  | funAlias d type => exact aliasNode_retains hresolve hnone d type
  | provider type parameters returns =>
      exact providerNode_retains hresolve hnone type parameters returns
  | set type element => exact collectionNode_retains hresolve hnone .set type
  | map type => exact collectionNode_retains hresolve hnone .map type
  | childComponent type parameters component =>
      exact childComponentNode_retains hresolve hnone type parameters component

end Nodes

end Resolve
end Wiring
