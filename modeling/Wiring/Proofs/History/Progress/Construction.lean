import Wiring.Proofs.History.Straight
import Wiring.Proofs.Ownership.Search

/-!
# Searches where an answer is straight

If a request has a straight answer in one graph, then a search for it in an alike scope
of another graph cannot find that nothing is there, that several candidates fit or that
a collection does not merge.  It can only run out of depth or steps, or run into a
circle that is not put off.

**Results.**
* `Resolve.nodeOf_spares`: this for the node of a candidate.
* `Resolve.request_spares`: this for a request at any depth.
-/

namespace Wiring

/-- Whether an error reports a circle. -/
def ResolutionError.isCircular : ResolutionError → Bool
  | circular _ => true
  | _ => false

/-- Whether an error depends on the course of a search. -/
def ResolutionError.Excused (e : ResolutionError) : Prop :=
  e.isLimit = true ∨ e.isCircular = true

namespace Resolve

/-- A step only stops at errors that depend on the course of the search. -/
def Spares {α : Type} (step : Resolve α) (s : Search) : Prop :=
  ∀ e s', step s = .error e s' → e.Excused

section Spares

variable {α β : Type} {s : Search}

theorem spares_pure (a : α) : Spares (pure a : Resolve α) s :=
  fun _ _ h => absurd h pure_ne_error

theorem spares_modifyGraph (f : Graph → Graph) : Spares (modifyGraph f) s := by
  intro e s' h
  cases h

theorem Spares.bind
    {x : Resolve α}
    {f : α → Resolve β}
    (hx : Spares x s)
    (hf : ∀ a s₁, x s = .ok a s₁ → Spares (f a) s₁) :
    Spares (x >>= f) s := by
  intro e s' h
  rcases bind_eq_error.mp h with h₁ | ⟨a, s₁, h₁, h₂⟩
  · exact hx e s' h₁
  · exact hf a s₁ h₁ e s' h₂

theorem Spares.withNode
    {id : NodeId}
    {step : Resolve α}
    (h : Spares step { s with chain := s.chain.pushNode id }) :
    Spares (withNode id step) s := by
  intro e s' hstep
  obtain ⟨s₁, h₁, -⟩ := withNode_eq_error hstep
  exact h e s₁ h₁

/-- A new node is built if its dependencies are resolved. -/
theorem Spares.buildNode
    {n : Node}
    {key : Option Ty}
    {scope : ScopeId}
    {dependencies : Resolve (List NodeId)}
    (h : ∀ chain, Spares dependencies ⟨s.graph.begin n key scope, chain⟩) :
    Spares (buildNode n key scope dependencies) s := by
  intro e s' hstep
  rw [buildNode_eq] at hstep
  refine Spares.bind (Spares.withNode (h _)) (fun ids s₁ _ => ?_) e s' hstep
  exact .bind (spares_modifyGraph _) (fun _ _ _ => spares_pure _)

theorem spares_circular
    {step : Resolve α}
    (h : ∀ e s', step s = .error e s' → s' = s ∧ ∃ links, e = .circular links) :
    Spares step s := by
  intro e s' hstep
  obtain ⟨-, links, rfl⟩ := h e s' hstep
  exact .inr rfl

end Spares

/-! ## Nodes of declarations -/

section Nodes

variable {B : Build} {resolve : ScopeId → Request → Resolve NodeId} {g' : Graph}
  {S : Answering}

/-- Nested requests are spared in alike scopes of faithful graphs. -/
def SparesNested (B : Build) (resolve : ScopeId → Request → Resolve NodeId) (g' : Graph)
    (S : Answering) : Prop :=
  ∀ scope' scope r id s, s.graph.Faithful B → g'.Alike s.graph scope' scope →
    S scope' r.type r.required id → Spares (resolve scope r) s

theorem each_spares
    (hresolve : ∀ scope r, Sound B (resolve scope r) (.request scope r))
    (hspares : SparesNested B resolve g' S)
    {scope' scope : ScopeId}
    {rs : List Request}
    {ids : List NodeId}
    (hS : S.Each scope' rs ids)
    {s : Search}
    (hs : s.graph.Faithful B)
    (hscope : g'.Alike s.graph scope' scope) :
    Spares (each resolve scope rs) s := by
  induction hS generalizing s with
  | nil => exact spares_pure []
  | @cons r id rs ids hfirst _ ih =>
      have hunfold : each resolve scope (r :: rs) =
          (resolve scope r >>= fun id => each resolve scope rs >>= fun ids =>
            pure (id :: ids)) := List.mapM_cons
      rw [hunfold]
      refine .bind (hspares scope' scope r id s hs hscope hfirst) (fun a s₁ h₁ => ?_)
      obtain ⟨-, hd⟩ := (hresolve scope r).ok hs.tree.numbered h₁ (fun _ => trivial)
      exact .bind (ih (hd.faithful trivial hs) (hscope.grows hd.grows))
        (fun _ _ _ => spares_pure _)

/-- The dependencies of a new node. -/
theorem buildEach_spares
    (hresolve : ∀ scope r, Sound B (resolve scope r) (.request scope r))
    (hspares : SparesNested B resolve g' S)
    {scope' evaluated : ScopeId}
    {rs : List Request}
    {ids : List NodeId}
    (hS : S.Each scope' rs ids)
    {s : Search}
    (hs : s.graph.Faithful B)
    (hscope : g'.Alike s.graph scope' evaluated)
    (n : Node)
    (key : Option Ty)
    (scope : ScopeId) :
    Spares (buildNode n key scope (each resolve evaluated rs)) s := by
  refine .buildNode (fun chain => each_spares hresolve hspares hS ?_ ?_)
  · exact hs.congr (Graph.begin_scopes _ _ _ _) (Graph.begin_memo _ _ _ _)
  · exact hscope.grows ((Graph.Grows.refl _).begin n key scope)

/-- The interceptors of a node. -/
theorem attachEach_spares
    (hresolve : ∀ scope r, Sound B (resolve scope r) (.request scope r))
    (hspares : SparesNested B resolve g' S)
    {id : NodeId}
    {owner' owner : ScopeId}
    {t : Ty}
    {entries : List Entry}
    {attached : List Interceptor}
    (hS : List.Forall₂
      (fun i a =>
        S.Each owner' (i.declaration.requestsExcept (i.declaration.factoryPosition t))
          a.resolved) entries attached)
    {s : Search}
    (hs : s.graph.Faithful B)
    (howner : g'.Alike s.graph owner' owner) :
    Spares (entries.mapM (attach resolve id owner t)) s := by
  induction hS generalizing s with
  | nil => exact spares_pure []
  | @cons e a entries attached hfirst _ ih =>
      rw [List.mapM_cons]
      refine .bind ?_ (fun first s₁ h₁ => ?_)
      · exact .bind (.withNode (each_spares hresolve hspares hfirst hs howner))
          (fun _ _ _ => spares_pure _)
      · obtain ⟨ids, -, -, hd⟩ := attach_ok hresolve hs.tree.numbered h₁
        exact .bind (ih (hd.faithful trivial hs) (howner.grows hd.grows))
          (fun _ _ _ => spares_pure _)

theorem attachInterceptors_spares
    (hresolve : ∀ scope r, Sound B (resolve scope r) (.request scope r))
    (hspares : SparesNested B resolve g' S)
    {id : NodeId}
    {owner' owner : ScopeId}
    {n : Node}
    {attached : List Interceptor}
    (hS : List.Forall₂
      (fun i a =>
        S.Each owner' (i.declaration.requestsExcept (i.declaration.factoryPosition n.type))
          a.resolved)
      (Interception.visible B.registry B.catalog n.type (g'.path owner')) attached)
    {s : Search}
    (hs : s.graph.Faithful B)
    (howner : g'.Alike s.graph owner' owner)
    (hn : s.graph.node? id = some n) :
    Spares (attachInterceptors B resolve id owner) s := by
  obtain ⟨ρ, rfl, hρ⟩ := howner
  have hagrees := hs.memo.agrees hs.tree.numbered hρ.right
  have hvisible : (s.graph.memo.visible B.registry B.catalog n.type
      (s.graph.path (ρ owner'))).1
        = Interception.visible B.registry B.catalog n.type (g'.path owner') := by
    rw [hρ.path_eq, ← visible_rename ρ]
    exact Memo.visible_of_agrees _ _ _ n.type _ _ hagrees
  intro e s' h
  rw [attachInterceptors_eq hn] at h
  dsimp only at h
  rw [hvisible] at h
  refine Spares.bind (attachEach_spares hresolve hspares hS ?_ ?_)
    (fun _ _ _ => spares_modifyGraph _) e s' h
  · exact hs.merges (.interceptors n.type (ρ owner') .none)
  · exact ⟨ρ, rfl, hρ.left, hρ.right⟩

/-- A node whose type no dependencies narrow keeps it. -/
theorem narrowAt_node?_of_firm
    {g : Graph}
    {id : NodeId}
    {declared : Declaration}
    {assisted : Bool}
    {n : Node}
    (hn : g.node? id = some n)
    (hfirm : assisted = false → ∀ types, B.registry.refine declared n.type types = n.type) :
    (g.narrowAt B id declared assisted).node? id = some n := by
  rcases g.narrowAt_cases B id declared assisted with heq | ⟨hassisted, types, heq⟩
  · rw [heq]
    exact hn
  · rw [heq, Graph.change_node? hn, hfirm hassisted]

/-- A declaration that is invoked on its own account. -/
theorem freshNode_spares
    (hresolve : ∀ scope r, Sound B (resolve scope r) (.request scope r))
    (hspares : SparesNested B resolve g' S)
    {owner' owner : ScopeId}
    {type : Ty}
    {e : Entry}
    {declared : Declaration}
    {assisted : Bool}
    {n : Node}
    (hn : g'.Invokes B S owner' type e declared assisted n)
    {s : Search}
    (hs : s.graph.Faithful B)
    (howner : g'.Alike s.graph owner' owner)
    (scope : ScopeId)
    (key : Option Ty) :
    Spares (freshNode B resolve scope owner key e declared type assisted) s := by
  rw [freshNode_eq]
  refine .bind (buildEach_spares hresolve hspares hn.resolved hs howner _ key scope)
    (fun id s₁ h₁ => ?_)
  obtain ⟨-, hd⟩ := (buildNode_sound (each_sound hresolve owner _)
    (Node.ofDeclaration_plans e declared type assisted owner) key scope).ok
      hs.tree.numbered h₁ (fun _ => trivial)
  obtain ⟨ids, hbuilt⟩ := hd.node_built
  have hid : s.graph.nodes.size ≤ id.index := by
    rw [hd.node_eq]
    exact Nat.le_refl _
  refine .bind (spares_modifyGraph _) (fun _ s₂ h₂ => ?_)
  cases h₂
  obtain ⟨n', hn', rfl⟩ : ∃ n',
      (s₁.graph.narrowAt B id declared assisted).node? id = some n' ∧ n'.type = type :=
    ⟨_, narrowAt_node?_of_firm hbuilt hn.firm, rfl⟩
  refine .bind (attachInterceptors_spares hresolve hspares hn.interceptors ?_ ?_ hn')
    (fun _ _ _ => spares_pure _)
  · exact (hd.faithful trivial hs).congr (Graph.narrowAt_scopes B s₁.graph id declared _)
      (Graph.narrowAt_memo B s₁.graph id declared _)
  · exact howner.grows (hd.grows.narrowAt hid declared assisted)

/-- A declaration, whether it is invoked already or not. -/
theorem declarationNode_spares
    (hresolve : ∀ scope r, Sound B (resolve scope r) (.request scope r))
    (hspares : SparesNested B resolve g' S)
    {owner' scope : ScopeId}
    {declaredIn : Option ScopeId}
    {key : Option Ty}
    {type : Ty}
    {e : Entry}
    {declared : Declaration}
    {assisted : Bool}
    {n : Node}
    (hn : g'.Invokes B S owner' type e declared assisted n)
    (htype : (if assisted then key.getD e.declaration.type else e.declaration.type) = type)
    {s : Search}
    (hs : s.graph.Faithful B)
    (howner : g'.Alike s.graph owner'
      (ownerOf (s.graph.path scope) scope declaredIn e.declaration)) :
    Spares (declarationNode B resolve scope declaredIn key e declared assisted) s := by
  intro err s' h
  rw [declarationNode_eq, htype] at h
  dsimp only at h
  split at h
  · exact spares_circular (fun _ _ => revisit_eq_error) err s' h
  · refine Spares.bind (spares_circular (fun _ _ => relocated?_eq_error))
      (fun found s₁ h₁ => ?_) err s' h
    rcases relocated?_eq_ok h₁ with ⟨rfl, rfl, -⟩ | ⟨t, kept, -, rfl, -⟩
    · exact freshNode_spares hresolve hspares hn hs howner scope key
    · exact spares_pure kept

/-- The entries of a collection. -/
theorem entryNodes_spares
    (hresolve : ∀ scope r, Sound B (resolve scope r) (.request scope r))
    (hspares : SparesNested B resolve g' S)
    {scope' scope : ScopeId}
    {entries : List Entry}
    {ids : List NodeId}
    (hS : g'.InvokesEach B S scope' entries ids)
    {s : Search}
    (hs : s.graph.Faithful B)
    (hscope : g'.Alike s.graph scope' scope) :
    Spares (entryNodes B resolve scope entries) s := by
  induction hS generalizing s with
  | nil => exact spares_pure []
  | @cons e id entries ids hfirst _ ih =>
      have hunfold : entryNodes B resolve scope (e :: entries) =
          (declarationNode B resolve scope none none e e.declaration false >>= fun id =>
            entryNodes B resolve scope entries >>= fun ids => pure (id :: ids)) :=
        List.mapM_cons
      obtain ⟨n, -, -, hn⟩ := hfirst
      obtain ⟨ρ, rfl, hρ⟩ := hscope
      rw [hunfold]
      refine .bind ?_ (fun first s₁ h₁ => ?_)
      · have hself : s.graph.Above (ρ scope')
            (((none : Option ScopeId).map ρ).getD (ρ scope')) := .refl
        exact declarationNode_spares hresolve hspares hn rfl hs
          (hρ.owner hs.tree hself e.declaration)
      · obtain ⟨-, hd⟩ := (declarationNode_sound hresolve (ρ scope') (.entry e)).ok
          hs.tree.numbered h₁ (fun _ => trivial)
        exact .bind (ih (hd.faithful trivial hs) ⟨ρ, rfl, hρ.grows hd.grows⟩)
          (fun _ _ _ => spares_pure _)

end Nodes

/-! ## Nodes of candidates -/

section Candidates

variable {B : Build} {resolve : ScopeId → Request → Resolve NodeId} {g' : Graph}
  {S : Answering} {ρ : Equiv.Perm ScopeId} {s₀ : Scope} {σ : Search}

/-- A step that opens a scope and goes on there. -/
theorem opened_spares
    {f : Graph → Except ResolutionError (ScopeId × Graph)}
    {inner : ScopeId}
    {g₁ : Graph}
    (hf : f σ.graph = .ok (inner, g₁))
    {build : ScopeId → Resolve NodeId}
    (hbuild : Spares (build inner) ⟨g₁, σ.chain⟩) :
    Spares (extend f >>= build) σ := by
  have hextend : extend f σ = .ok inner ⟨g₁, σ.chain⟩ := by
    unfold extend
    rw [hf]
  refine .bind (fun e s' h => ?_) (fun a s₁ h => ?_)
  · rw [hextend] at h
    cases h
  · rw [hextend] at h
    cases h
    exact hbuild

/-- The node of a collection that was merged along an alike ancestry. -/
theorem collectionNode_spares
    (hresolve : ∀ scope r, Sound B (resolve scope r) (.request scope r))
    (hspares : SparesNested B resolve g' S)
    (hscope : g'.AlikeBy ρ σ.graph s₀.id)
    (hσ : σ.graph.Faithful B)
    {kind : Collection.Kind}
    {type : Ty}
    {found : Option (List Entry)}
    {ids : List NodeId}
    (hmerged : Collection.merged B.registry B.catalog B.options kind type (g'.path s₀.id)
      = .ok found)
    (hS : g'.InvokesEach B S s₀.id (found.getD []) ids)
    (key : Ty) :
    Spares (collectionNode B resolve (ρ s₀.id) key kind type) σ := by
  have hcomputes := collected_computes hσ (ρ s₀.id) kind type
  rw [hscope.path_eq, merged_rename ρ, hmerged] at hcomputes
  unfold collectionNode
  refine .bind (fun e s' h => nomatch hcomputes.error h) (fun merged s₁ h₁ => ?_)
  · cases hcomputes.ok h₁
    obtain ⟨m, hm, rfl⟩ := (collected_onlyMemo B (ρ s₀.id) kind type).ok h₁
    have hgrows : ∀ n, σ.graph.Grows
        ((σ.graph.withMemo m).begin n (some key) (ρ s₀.id)) := fun n =>
      ((Graph.Grows.refl σ.graph).withMemo m).begin n (some key) (ρ s₀.id)
    refine .buildNode (fun chain => entryNodes_spares hresolve hspares hS ?_ ?_)
    · exact (hσ.merges hm).congr (Graph.begin_scopes _ _ _ _) (Graph.begin_memo _ _ _ _)
    · exact ⟨ρ, rfl, hscope.grows (hgrows _)⟩

/-- Providers in alike scopes open scopes of the same name. -/
theorem providerSpec_of_alike
    (hs₀ : g'.scope? s₀.id = some s₀)
    (hscope : g'.AlikeBy ρ σ.graph s₀.id)
    (type : Ty)
    (parameters : List Ty) :
    g'.providerSpec B s₀.id type parameters
      = σ.graph.providerSpec B (ρ s₀.id) type parameters := by
  have hs : σ.graph.scope? (ρ s₀.id) = some (s₀.rename ρ) := hscope.scope? hs₀
  have hname : g'.scopeName s₀.id = σ.graph.scopeName (ρ s₀.id) := by
    unfold Graph.scopeName
    rw [hs₀, hs]
    rfl
  unfold Graph.providerSpec
  rw [hname]

/-- The node of a provider. -/
theorem providerNode_spares
    (hresolve : ∀ scope r, Sound B (resolve scope r) (.request scope r))
    (hspares : SparesNested B resolve g' S)
    (hg' : g'.Faithful B)
    (hs₀ : g'.scope? s₀.id = some s₀)
    (hscope : g'.AlikeBy ρ σ.graph s₀.id)
    (hσ : σ.graph.Faithful B)
    {r r' : Request}
    {type returns : Ty}
    {parameters : List Ty}
    {inner' : ScopeId}
    {ids : List NodeId}
    (hopens : g'.Opens B s₀ (g'.providerSpec B s₀.id type parameters) {} inner')
    (hS : S.Each inner' [r'.provided returns] ids) :
    Spares (providerNode B resolve (ρ s₀.id) r type parameters returns) σ := by
  rw [providerSpec_of_alike hs₀ hscope] at hopens
  obtain ⟨inner, g₁, hpush, halike⟩ := hscope.opened hg' hσ hs₀ hopens
  have hsplit : providerNode B resolve (ρ s₀.id) r type parameters returns σ =
      (extend (fun g => g.pushScope B (some (ρ s₀.id))
          (σ.graph.providerSpec B (ρ s₀.id) type parameters) {}) >>= fun inner =>
        buildNode (.ofProvider r type (ρ s₀.id) inner parameters returns) (some r.type)
          (ρ s₀.id) (each resolve inner [r.provided returns])) σ := rfl
  have hσ₁ := hσ.pushScope (fun p hp => by cases hp; exact hscope.right.lt_size) hpush
  have hrequest : S.Each inner' [r.provided returns] ids := hS.congr rfl
  intro e s' h
  rw [hsplit] at h
  exact opened_spares hpush
    (buildEach_spares hresolve hspares hrequest hσ₁ halike _ _ _) e s' h

/-- The node of a factory of a child component. -/
theorem childComponentNode_spares
    (hresolve : ∀ scope r, Sound B (resolve scope r) (.request scope r))
    (hspares : SparesNested B resolve g' S)
    (hg' : g'.Faithful B)
    (hs₀ : g'.scope? s₀.id = some s₀)
    (hscope : g'.AlikeBy ρ σ.graph s₀.id)
    (hσ : σ.graph.Faithful B)
    {r : Request}
    {type component : Ty}
    {parameters : List Ty}
    {c : Component}
    {found : Contributions}
    {origin : QName}
    {inner' : ScopeId}
    {ids : List NodeId}
    (hcomponent : B.catalog.component? component.classifier = some c)
    (hfound : expand B.catalog.module? c.declarations = .ok found)
    (hopens : g'.Opens B s₀ (Graph.componentSpec B c .childComponent component parameters)
      found inner')
    (hS : S.Each inner' (c.requests origin) ids) :
    Spares (childComponentNode B resolve (ρ s₀.id) r type parameters component) σ := by
  obtain ⟨inner, g₁, hpush, halike⟩ := hscope.opened hg' hσ hs₀ hopens
  have hadd : σ.graph.addScope B (some (ρ s₀.id))
      (Graph.componentSpec B c .childComponent component parameters) c.declarations
        = .ok (inner, g₁) := by
    unfold Graph.addScope
    rw [hfound]
    exact hpush
  have hσ₁ := hσ.pushScope (fun p hp => by cases hp; exact hscope.right.lt_size) hpush
  have hrequests : ∀ origin', S.Each inner' (c.requests origin') ids :=
    fun origin' => hS.congr (by simp [Component.requests])
  unfold childComponentNode
  rw [hcomponent]
  exact opened_spares hadd
    (buildEach_spares hresolve hspares (hrequests _) hσ₁ halike _ _ _)

/-- The node of a candidate that was chosen for an alike scope. -/
theorem nodeOf_spares
    (hresolve : ∀ scope r, Sound B (resolve scope r) (.request scope r))
    (hspares : SparesNested B resolve g' S)
    (hg' : g'.Faithful B)
    (hs₀ : g'.scope? s₀.id = some s₀)
    (hscope : g'.AlikeBy ρ σ.graph s₀.id)
    (hσ : σ.graph.Faithful B)
    {r : Request}
    {c : Candidate}
    {n : Node}
    (hc : g'.Supports B S s₀ r.type c n)
    (hoffered : Offered B (s₀.rename ρ) r.type (c.rename ρ)) :
    Spares (nodeOf B resolve (ρ s₀.id) r (c.rename ρ)) σ := by
  have hs : σ.graph.scope? (s₀.rename ρ).id = some (s₀.rename ρ) := hscope.scope? hs₀
  cases hc with
  | declaration hn =>
      rename_i m
      have habove := hoffered.above_declaredIn hσ.tree hs
      exact declarationNode_spares hresolve hspares hn rfl hσ
        (hscope.owner hσ.tree habove m.declaration)
  | input =>
      intro e s' h
      change inputNode _ _ _ _ _ σ = _ at h
      rw [inputNode_eq] at h
      split at h <;> cases h
  | object => exact fun _ _ h => nomatch h
  | self => exact fun _ _ h => nomatch h
  | funAlias hS =>
      intro e s' h
      change aliasNode _ _ _ _ _ σ = _ at h
      rw [aliasNode_eq] at h
      split at h
      · exact spares_circular (fun _ _ => revisit_eq_error) e s' h
      · exact buildEach_spares hresolve hspares hS hσ ⟨ρ, rfl, hscope⟩ _ _ _ e s' h
  | set hmerged hS =>
      exact collectionNode_spares hresolve hspares hscope hσ hmerged hS r.type
  | map hmerged hS =>
      exact collectionNode_spares hresolve hspares hscope hσ hmerged hS r.type
  | provider hopens hS =>
      exact providerNode_spares hresolve hspares hg' hs₀ hscope hσ hopens hS
  | childComponent hcomponent hfound hopens hS =>
      exact childComponentNode_spares hresolve hspares hg' hs₀ hscope hσ hcomponent hfound
        hopens hS

end Candidates

end Resolve
end Wiring
