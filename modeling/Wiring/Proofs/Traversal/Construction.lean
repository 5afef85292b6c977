import Mathlib.Data.List.TakeWhile
import Wiring.Proofs.Growth

/-!
# The construction of nodes is a derivation

A step that ends with an answer is a derivation from the graph it started with to the
graph it ended with, and one that ends with an error is a failing search.  Either way
the stack of the derivation is the list of nodes on the chain, and a step that ends
with an answer leaves that list as it was.

This module shows it of the construction of nodes, given that it holds of the nested
requests.

**Results.**
* `buildNode_sound`: a new node and its dependencies.
* `declarationNode_sound`: the node of a declaration.
* `nodeOf_sound`: the node of a candidate.
-/

namespace Wiring
namespace Resolve

/-- A step that ends with an answer `a` derives `J a`; one that ends with an error is a
failing search.  The scope that chose a candidate has to be there. -/
def Sound (B : Build) {α : Type} (step : Resolve α) (J : α → Judgement) : Prop :=
  ∀ s : Search, s.graph.Numbered → (∀ a, (J a).Located s.graph) →
    match step s with
    | .ok a s' =>
        s'.chain.nodes = s.chain.nodes
          ∧ Derives B s.chain.nodes s.graph (J a) s'.graph
    | .error _ s' => Fails B s.chain.nodes s.graph s'.graph

section

variable {B : Build} {α : Type}

theorem Sound.ok
    {step : Resolve α}
    {J : α → Judgement}
    (h : Sound B step J)
    {s s' : Search}
    {a : α}
    (hs : s.graph.Numbered)
    (hstep : step s = .ok a s')
    (hJ : ∀ a, (J a).Located s.graph) :
    s'.chain.nodes = s.chain.nodes ∧ Derives B s.chain.nodes s.graph (J a) s'.graph := by
  have hsound := h s hs hJ
  rw [hstep] at hsound
  exact hsound

theorem Sound.error
    {step : Resolve α}
    {J : α → Judgement}
    (h : Sound B step J)
    {s s' : Search}
    {e : ResolutionError}
    (hs : s.graph.Numbered)
    (hstep : step s = .error e s')
    (hJ : ∀ a, (J a).Located s.graph) :
    Fails B s.chain.nodes s.graph s'.graph := by
  have hsound := h s hs hJ
  rw [hstep] at hsound
  exact hsound

/-- A step is taken apart by how it ends. -/
theorem sound_of_located
    {step : Resolve α}
    {J : α → Judgement}
    (hok : ∀ s a s', s.graph.Numbered → step s = .ok a s' →
      s'.chain.nodes = s.chain.nodes ∧ Derives B s.chain.nodes s.graph (J a) s'.graph)
    (herror : ∀ s e s', s.graph.Numbered → (∀ a, (J a).Located s.graph) →
      step s = .error e s' → Fails B s.chain.nodes s.graph s'.graph) :
    Sound B step J := by
  intro s hs hJ
  cases hstep : step s with
  | ok a s' => exact hok s a s' hs hstep
  | error e s' => exact herror s e s' hs hJ hstep

theorem sound_of_ok_of_error
    {step : Resolve α}
    {J : α → Judgement}
    (hok : ∀ s a s', s.graph.Numbered → step s = .ok a s' →
      s'.chain.nodes = s.chain.nodes ∧ Derives B s.chain.nodes s.graph (J a) s'.graph)
    (herror : ∀ s e s', s.graph.Numbered → step s = .error e s' →
      Fails B s.chain.nodes s.graph s'.graph) :
    Sound B step J :=
  sound_of_located hok (fun s e s' hs _ hstep => herror s e s' hs hstep)

/-- A step that derives one judgement derives every judgement that follows from it. -/
theorem Sound.imp
    {step : Resolve α}
    {J J' : α → Judgement}
    (h : Sound B step J)
    (himp : ∀ a stack g g', Derives B stack g (J a) g' → Derives B stack g (J' a) g')
    (hJ : ∀ a g, (J a).Located g) :
    Sound B step J' := by
  refine sound_of_ok_of_error ?_ ?_
  · intro s a s' hs hstep
    obtain ⟨hchain, hd⟩ := h.ok hs hstep (fun a => hJ a _)
    exact ⟨hchain, himp _ _ _ _ hd⟩
  · intro s e s' hs hstep
    exact h.error hs hstep (fun a => hJ a _)

end

/-! ## Lists of demands -/

section Demands

variable {B : Build} {resolve : ScopeId → Request → Resolve NodeId}

theorem each_sound
    (hresolve : ∀ scope r, Sound B (resolve scope r) (.request scope r))
    (scope : ScopeId)
    (requests : List Request) :
    Sound B (each resolve scope requests)
      (.demands scope (requests.map .request)) := by
  induction requests with
  | nil =>
      intro s _ _
      exact ⟨rfl, .noDemands⟩
  | cons r rs ih =>
      have hunfold : each resolve scope (r :: rs) =
          (resolve scope r >>= fun id => each resolve scope rs >>= fun ids =>
            pure (id :: ids)) := List.mapM_cons
      rw [hunfold]
      refine sound_of_ok_of_error ?_ ?_
      · intro s a s' hs hstep
        obtain ⟨id, s₁, h₁, hstep⟩ := bind_eq_ok.mp hstep
        obtain ⟨ids, s₂, h₂, hstep⟩ := bind_eq_ok.mp hstep
        obtain ⟨rfl, rfl⟩ := pure_eq_ok.mp hstep
        obtain ⟨hchain₁, hd₁⟩ := (hresolve scope r).ok hs h₁ (fun _ => trivial)
        obtain ⟨hchain₂, hd₂⟩ := ih.ok (hd₁.numbered hs) h₂ (fun _ => trivial)
        rw [hchain₁] at hchain₂ hd₂
        exact ⟨hchain₂, .requestDemand hd₁ hd₂⟩
      · intro s e s' hs hstep
        rcases bind_eq_error.mp hstep with h₁ | ⟨id, s₁, h₁, hstep⟩
        · exact (hresolve scope r).error hs h₁ (fun _ => trivial)
        · obtain ⟨hchain₁, hd₁⟩ := (hresolve scope r).ok hs h₁ (fun _ => trivial)
          rcases bind_eq_error.mp hstep with h₂ | ⟨ids, s₂, h₂, hstep⟩
          · have hf := ih.error (hd₁.numbered hs) h₂ (fun _ => trivial)
            rw [hchain₁] at hf
            exact .after (.requestDemand hd₁ .noDemands) hf
          · exact absurd hstep pure_ne_error

end Demands

/-! ## New nodes -/

section Nodes

variable {B : Build}

theorem withNode_eq_ok
    {α : Type}
    {id : NodeId}
    {step : Resolve α}
    {a : α}
    {s s' : Search}
    (h : withNode id step s = .ok a s') :
    ∃ s₁, step { s with chain := s.chain.pushNode id } = .ok a s₁
      ∧ s' = { s₁ with chain := s₁.chain.popNode } := by
  unfold withNode bracket at h
  split at h
  · rename_i b s₁ hstep
    cases h
    exact ⟨s₁, hstep, rfl⟩
  · cases h

theorem withNode_eq_error
    {α : Type}
    {id : NodeId}
    {step : Resolve α}
    {e : ResolutionError}
    {s s' : Search}
    (h : withNode id step s = .error e s') :
    ∃ s₁, step { s with chain := s.chain.pushNode id } = .error e s₁
      ∧ s' = { s₁ with chain := s₁.chain.popNode } := by
  unfold withNode bracket at h
  split at h
  · cases h
  · rename_i b s₁ hstep
    cases h
    exact ⟨s₁, hstep, rfl⟩

/-- With a node on the chain meanwhile, a step derives what it derives on the longer
stack, and leaves the chain as it was. -/
theorem Sound.withNode_ok
    {α : Type}
    {step : Resolve α}
    {J : α → Judgement}
    (h : Sound B step J)
    {id : NodeId}
    {a : α}
    {s s' : Search}
    (hs : s.graph.Numbered)
    (hstep : withNode id step s = .ok a s')
    (hJ : ∀ a, (J a).Located s.graph) :
    s'.chain.nodes = s.chain.nodes
      ∧ Derives B (s.chain.nodes ++ [id]) s.graph (J a) s'.graph := by
  obtain ⟨s₁, hinner, rfl⟩ := withNode_eq_ok hstep
  have hnodes : (s.chain.pushNode id).nodes = s.chain.nodes ++ [id] := rfl
  obtain ⟨hchain, hd⟩ := h.ok (s := { s with chain := s.chain.pushNode id }) hs hinner hJ
  refine ⟨?_, hd⟩
  simp [Chain.popNode, hchain, hnodes]

theorem Sound.withNode_error
    {α : Type}
    {step : Resolve α}
    {J : α → Judgement}
    (h : Sound B step J)
    {id : NodeId}
    {e : ResolutionError}
    {s s' : Search}
    (hs : s.graph.Numbered)
    (hstep : withNode id step s = .error e s')
    (hJ : ∀ a, (J a).Located s.graph) :
    Fails B (s.chain.nodes ++ [id]) s.graph s'.graph := by
  obtain ⟨s₁, hinner, rfl⟩ := withNode_eq_error hstep
  have hf := h.error (s := { s with chain := s.chain.pushNode id }) hs hinner hJ
  exact hf

theorem buildNode_eq
    (n : Node)
    (key : Option Ty)
    (scope : ScopeId)
    (dependencies : Resolve (List NodeId))
    (s : Search) :
    buildNode n key scope dependencies s =
      (withNode s.graph.nextId dependencies >>= fun ids =>
        modifyNode s.graph.nextId (fun n => { n with resolved := ids }) >>= fun _ =>
          pure s.graph.nextId)
        { s with graph := s.graph.begin n key scope } := by
  cases key with
  | none => rfl
  | some t =>
      unfold buildNode Graph.begin
      by_cases hscope : scope = n.owner
      · simp only [hscope, ne_eq, not_true_eq_false, if_false, if_true]
        rfl
      · simp only [hscope, ne_eq, not_false_eq_true, if_false, if_true]
        rfl

theorem buildNode_sound
    {evaluated : ScopeId}
    {demands : List Demand}
    {dependencies : Resolve (List NodeId)}
    (hdependencies : Sound B dependencies (.demands evaluated demands))
    {n : Node}
    (hn : n.Plans evaluated demands)
    (key : Option Ty)
    (scope : ScopeId) :
    Sound B (buildNode n key scope dependencies)
      (.node n key scope evaluated demands) := by
  refine sound_of_ok_of_error ?_ ?_
  · intro s id s' hs hstep
    rw [buildNode_eq] at hstep
    obtain ⟨ids, s₁, h₁, hstep⟩ := bind_eq_ok.mp hstep
    obtain ⟨_, s₂, h₂, hstep⟩ := bind_eq_ok.mp hstep
    obtain ⟨rfl, rfl⟩ := pure_eq_ok.mp hstep
    cases h₂
    have hbegin := hs.of_scopes_eq (Graph.begin_scopes s.graph n key scope)
    obtain ⟨hchain, hd⟩ := hdependencies.withNode_ok hbegin h₁ (fun _ => trivial)
    exact ⟨hchain, .node hn hd⟩
  · intro s e s' hs hstep
    rw [buildNode_eq] at hstep
    have hbegin := hs.of_scopes_eq (Graph.begin_scopes s.graph n key scope)
    rcases bind_eq_error.mp hstep with h₁ | ⟨ids, s₁, h₁, hstep⟩
    · exact .inside hn (hdependencies.withNode_error hbegin h₁ (fun _ => trivial))
    · rcases bind_eq_error.mp hstep with h₂ | ⟨_, s₂, h₂, hstep⟩
      · cases h₂
      · exact absurd hstep pure_ne_error

/-- Without dependencies nothing is left to record. -/
theorem begin_change_resolved
    (g : Graph)
    (n : Node)
    (key : Option Ty)
    (scope : ScopeId)
    (hn : n.resolved = []) :
    (g.begin n key scope).change g.nextId (fun n => { n with resolved := [] })
      = g.begin n key scope := by
  have hnodes : (g.begin n key scope).nodes = (g.append n).nodes := by
    obtain ⟨answers, heq⟩ := Graph.exists_begin_eq g n key scope
    rw [heq]
  have hmodify : (g.append n).nodes.modify g.nodes.size
      (fun n => { n with resolved := [] }) = (g.append n).nodes := by
    apply Array.ext_getElem?
    intro i
    rw [Array.getElem?_modify]
    split
    · rename_i hi
      subst hi
      simp [Graph.append, ← hn]
    · rfl
  unfold Graph.change
  rw [hnodes]
  simp only [Graph.nextId]
  rw [hmodify, ← hnodes]

/-- A node without dependencies is built as any other. -/
theorem derives_leaf
    {stack : List NodeId}
    {g : Graph}
    {n : Node}
    {key : Option Ty}
    {scope evaluated : ScopeId}
    (hn : n.Plans evaluated []) :
    Derives B stack g (.node n key scope evaluated [] g.nextId) (g.begin n key scope) := by
  have hd : Derives B stack g (.node n key scope evaluated [] g.nextId) _ :=
    .node hn .noDemands
  rwa [begin_change_resolved g n key scope hn.resolved] at hd

theorem leaf_sound
    {n : Node}
    (hn : n.Plans n.owner [])
    (t : Ty) :
    Sound B (leaf n t) (.node n (some t) n.owner n.owner []) := by
  intro s _ _
  have hbegin : s.graph.begin n (some t) n.owner
      = (s.graph.append n).remember n.owner t s.graph.nextId := by
    simp [Graph.begin]
  refine ⟨rfl, ?_⟩
  have hd : Derives B s.chain.nodes s.graph
      (.node n (some t) n.owner n.owner [] s.graph.nextId) _ := derives_leaf hn
  rw [hbegin] at hd
  exact hd

end Nodes

/-! ## Nodes of declarations -/

section Declarations

variable {B : Build} {resolve : ScopeId → Request → Resolve NodeId}

theorem graph_bind_eq
    {α : Type}
    (next : Graph → Resolve α)
    (s : Search) :
    (graph >>= next) s = next s.graph s := rfl

theorem refineNode_eq
    (id : NodeId)
    (declared : Declaration)
    (s : Search) :
    refineNode B id declared s =
      .ok () { s with graph := s.graph.refineAt B id declared } := by
  unfold refineNode Graph.refineAt
  rw [graph_bind_eq]
  cases s.graph.node? id <;> rfl

/-- A step run on the stack with one more node. -/
theorem attach_ok
    (hresolve : ∀ scope r, Sound B (resolve scope r) (.request scope r))
    {id : NodeId}
    {owner : ScopeId}
    {t : Ty}
    {e : Entry}
    {attached : Interceptor}
    {s s' : Search}
    (hs : s.graph.Numbered)
    (h : attach resolve id owner t e s = .ok attached s') :
    ∃ ids, attached = .ofEntry e t ids
      ∧ s'.chain.nodes = s.chain.nodes
      ∧ Derives B (s.chain.nodes ++ [id]) s.graph
        (.demands owner
          ((e.declaration.requestsExcept (e.declaration.factoryPosition t)).map .request)
          ids) s'.graph := by
  unfold attach at h
  obtain ⟨ids, s₁, h₁, h⟩ := bind_eq_ok.mp h
  obtain ⟨rfl, rfl⟩ := pure_eq_ok.mp h
  obtain ⟨hchain, hd⟩ := (each_sound hresolve owner _).withNode_ok hs h₁ (fun _ => trivial)
  exact ⟨ids, rfl, hchain, hd⟩

theorem attach_error
    (hresolve : ∀ scope r, Sound B (resolve scope r) (.request scope r))
    {id : NodeId}
    {owner : ScopeId}
    {t : Ty}
    {e : Entry}
    {err : ResolutionError}
    {s s' : Search}
    (hs : s.graph.Numbered)
    (h : attach resolve id owner t e s = .error err s') :
    Fails B (s.chain.nodes ++ [id]) s.graph s'.graph := by
  unfold attach at h
  rcases bind_eq_error.mp h with h₁ | ⟨ids, s₁, h₁, h⟩
  · exact (each_sound hresolve owner _).withNode_error hs h₁ (fun _ => trivial)
  · exact absurd h pure_ne_error

/-- All interceptors are attached on the stack with the node. -/
theorem attachEach_ok
    (hresolve : ∀ scope r, Sound B (resolve scope r) (.request scope r))
    {id : NodeId}
    {owner : ScopeId}
    {t : Ty}
    (entries : List Entry)
    {attached : List Interceptor}
    {s s' : Search}
    (hs : s.graph.Numbered)
    (h : entries.mapM (attach resolve id owner t) s = .ok attached s') :
    s'.chain.nodes = s.chain.nodes
      ∧ Derives B (s.chain.nodes ++ [id]) s.graph
        (.interceptors id owner t entries attached) s'.graph := by
  induction entries generalizing s attached with
  | nil =>
      rw [List.mapM_nil] at h
      obtain ⟨rfl, rfl⟩ := pure_eq_ok.mp h
      exact ⟨rfl, .noInterceptors⟩
  | cons e es ih =>
      rw [List.mapM_cons] at h
      obtain ⟨first, s₁, h₁, h⟩ := bind_eq_ok.mp h
      obtain ⟨rest, s₂, h₂, h⟩ := bind_eq_ok.mp h
      obtain ⟨rfl, rfl⟩ := pure_eq_ok.mp h
      obtain ⟨ids, rfl, hchain₁, hd₁⟩ := attach_ok hresolve hs h₁
      obtain ⟨hchain₂, hd₂⟩ := ih (hd₁.numbered hs) h₂
      rw [hchain₁] at hchain₂ hd₂
      exact ⟨hchain₂, .interceptor hd₁ hd₂⟩

theorem attachEach_error
    (hresolve : ∀ scope r, Sound B (resolve scope r) (.request scope r))
    {id : NodeId}
    {owner : ScopeId}
    {t : Ty}
    (entries : List Entry)
    {err : ResolutionError}
    {s s' : Search}
    (hs : s.graph.Numbered)
    (h : entries.mapM (attach resolve id owner t) s = .error err s') :
    Fails B (s.chain.nodes ++ [id]) s.graph s'.graph := by
  induction entries generalizing s with
  | nil =>
      rw [List.mapM_nil] at h
      exact absurd h pure_ne_error
  | cons e es ih =>
      rw [List.mapM_cons] at h
      rcases bind_eq_error.mp h with h₁ | ⟨first, s₁, h₁, h⟩
      · exact attach_error hresolve hs h₁
      · obtain ⟨ids, rfl, hchain₁, hd₁⟩ := attach_ok hresolve hs h₁
        rcases bind_eq_error.mp h with h₂ | ⟨rest, s₂, h₂, h⟩
        · have hf := ih (hd₁.numbered hs) h₂
          rw [hchain₁] at hf
          exact .after hd₁ hf
        · exact absurd h pure_ne_error

/-! ### Nodes on the chain -/

/-- Asking again for a node on the chain only ends with that node, and only if the
cycle is put off. -/
theorem revisit_eq_ok
    {repeated id : NodeId}
    {inside : List NodeId}
    {s s' : Search}
    (h : revisit repeated inside s = .ok id s') :
    id = repeated ∧ s' = s
      ∧ ∃ n ∈ repeated :: inside, s.graph.breaksCycles n = true := by
  unfold revisit at h
  split at h
  · rename_i hany
    cases h
    exact ⟨rfl, rfl, List.any_eq_true.mp hany⟩
  · cases h

theorem revisit_eq_error
    {repeated : NodeId}
    {inside : List NodeId}
    {e : ResolutionError}
    {s s' : Search}
    (h : revisit repeated inside s = .error e s') :
    s' = s ∧ ∃ links, e = .circular links := by
  unfold revisit at h
  split at h
  · cases h
  · cases h
    exact ⟨rfl, _, rfl⟩

theorem checkCycle_eq_ok
    {id : NodeId}
    {u : Unit}
    {s s' : Search}
    (h : checkCycle id s = .ok u s') :
    s' = s ∧ s.graph.Admits s.chain.nodes id := by
  unfold checkCycle at h
  obtain ⟨found, s₁, h₁, h⟩ := bind_eq_ok.mp h
  cases h₁
  have hdrop : s.chain.nodes.dropWhile (fun n => !decide (n = id))
      = s.chain.nodes.dropWhile (fun n => n ≠ id) := by
    simp
  cases hfound : s.chain.nodes.dropWhile (fun n => !decide (n = id)) with
  | nil =>
      rw [hfound] at h
      obtain ⟨-, rfl⟩ := pure_eq_ok.mp h
      refine ⟨rfl, fun hmem => ?_⟩
      have hall := List.dropWhile_eq_nil_iff.mp hfound id hmem
      simp at hall
  | cons repeated inside =>
      rw [hfound] at h
      obtain ⟨a, s₂, h₂, h⟩ := bind_eq_ok.mp h
      obtain ⟨-, rfl⟩ := pure_eq_ok.mp h
      obtain ⟨-, rfl, hbreaks⟩ := revisit_eq_ok h₂
      refine ⟨rfl, fun _ => ?_⟩
      rw [← hdrop, hfound]
      exact hbreaks

theorem checkCycle_eq_error
    {id : NodeId}
    {e : ResolutionError}
    {s s' : Search}
    (h : checkCycle id s = .error e s') :
    s' = s ∧ ∃ links, e = .circular links := by
  unfold checkCycle at h
  rcases bind_eq_error.mp h with h₁ | ⟨found, s₁, h₁, h⟩
  · cases h₁
  · cases h₁
    cases hfound : s.chain.nodes.dropWhile (fun n => !decide (n = id)) with
    | nil =>
        rw [hfound] at h
        exact absurd h pure_ne_error
    | cons repeated inside =>
        rw [hfound] at h
        rcases bind_eq_error.mp h with h₂ | ⟨a, s₂, h₂, h⟩
        · exact revisit_eq_error h₂
        · exact absurd h pure_ne_error

/-- The first node on the chain that satisfies a test starts the part of the chain
that a cycle to it runs through. -/
theorem dropWhile_eq_cons
    {p : NodeId → Bool}
    {stack inside : List NodeId}
    {id : NodeId}
    (h : stack.dropWhile (fun i => !p i) = id :: inside) :
    id ∈ stack ∧ p id = true ∧ stack.dropWhile (fun i => i ≠ id) = id :: inside := by
  induction stack with
  | nil => simp at h
  | cons i stack ih =>
      by_cases hp : p i = true
      · rw [List.dropWhile_cons_of_neg (by simp [hp])] at h
        cases h
        refine ⟨List.mem_cons_self, hp, ?_⟩
        rw [List.dropWhile_cons_of_neg (by simp)]
      · rw [List.dropWhile_cons_of_pos (by simp [hp])] at h
        obtain ⟨hmem, hid, hdrop⟩ := ih h
        have hne : i ≠ id := fun heq => hp (heq ▸ hid)
        refine ⟨List.mem_cons_of_mem i hmem, hid, ?_⟩
        rw [List.dropWhile_cons_of_pos (by simp [hne])]
        exact hdrop

/-- A node on the chain that is asked for again is a legal answer. -/
theorem admits_of_chainFrom
    {p : NodeId → Bool}
    {g : Graph}
    {stack inside : List NodeId}
    {id : NodeId}
    (h : stack.dropWhile (fun i => !p i) = id :: inside)
    (hbreaks : ∃ n ∈ id :: inside, g.breaksCycles n = true) :
    id ∈ stack ∧ p id = true ∧ g.Admits stack id := by
  obtain ⟨hmem, hid, hdrop⟩ := dropWhile_eq_cons h
  refine ⟨hmem, hid, fun _ => ?_⟩
  rw [hdrop]
  exact hbreaks

theorem isInstance_of_any
    {g : Graph}
    {id : NodeId}
    {name : QName}
    {type : Ty}
    (h : (g.node? id).any (fun n => n.origin = some name && n.type = type) = true) :
    g.IsInstance id name type := by
  obtain ⟨n, hn, hfits⟩ := (Option.any_eq_true _ _).mp h
  rw [Bool.and_eq_true, decide_eq_true_iff, decide_eq_true_iff] at hfits
  exact ⟨n, hn, hfits.1, hfits.2⟩

theorem chainFrom_bind_eq
    {α : Type}
    (p : NodeId → Bool)
    (next : List NodeId → Resolve α)
    (s : Search) :
    (chainFrom p >>= next) s = next (s.chain.nodes.dropWhile (fun id => !p id)) s := rfl

/-- What is attached to a node that is there: the interceptors that its owner sees. -/
theorem attachInterceptors_eq
    {id : NodeId}
    {owner : ScopeId}
    {n : Node}
    {s : Search}
    (hn : s.graph.node? id = some n) :
    attachInterceptors B resolve id owner s =
      let kept := s.graph.memo.visible B.registry B.catalog n.type (s.graph.path owner)
      (kept.1.mapM (attach resolve id owner n.type) >>= fun attached =>
        modifyNode id (fun n => { n with interceptors := attached }))
        { s with graph := s.graph.withMemo kept.2 } := by
  unfold attachInterceptors
  rw [graph_bind_eq, hn]
  rfl

/-- Attaching interceptors to a node that is there, taken apart. -/
theorem attachInterceptors_ok
    (hresolve : ∀ scope r, Sound B (resolve scope r) (.request scope r))
    {id : NodeId}
    {owner : ScopeId}
    {n : Node}
    {u : Unit}
    {s s' : Search}
    (hs : s.graph.Numbered)
    (hn : s.graph.node? id = some n)
    (h : attachInterceptors B resolve id owner s = .ok u s') :
    ∃ entries m attached g,
      s.graph.memo.visible B.registry B.catalog n.type (s.graph.path owner) = (entries, m)
        ∧ s'.chain.nodes = s.chain.nodes
        ∧ Derives B (s.chain.nodes ++ [id]) (s.graph.withMemo m)
          (.interceptors id owner n.type entries attached) g
        ∧ s'.graph = g.change id (fun n => { n with interceptors := attached }) := by
  rw [attachInterceptors_eq hn] at h
  dsimp only at h
  obtain ⟨attached, s₁, h₁, h₂⟩ := bind_eq_ok.mp h
  cases h₂
  obtain ⟨hchain, hd⟩ := attachEach_ok hresolve _ (by exact hs) h₁
  exact ⟨_, _, attached, s₁.graph, rfl, hchain, hd, rfl⟩

theorem attachInterceptors_error
    (hresolve : ∀ scope r, Sound B (resolve scope r) (.request scope r))
    {id : NodeId}
    {owner : ScopeId}
    {n : Node}
    {e : ResolutionError}
    {s s' : Search}
    (hs : s.graph.Numbered)
    (hn : s.graph.node? id = some n)
    (h : attachInterceptors B resolve id owner s = .error e s') :
    ∃ m, s.graph.Merges B m
      ∧ Fails B (s.chain.nodes ++ [id]) (s.graph.withMemo m) s'.graph := by
  rw [attachInterceptors_eq hn] at h
  dsimp only at h
  rcases bind_eq_error.mp h with h₁ | ⟨attached, s₁, h₁, h₂⟩
  · have hf := attachEach_error hresolve _ (by exact hs) h₁
    exact ⟨_, .interceptors n.type owner .none, hf⟩
  · cases h₂

theorem remember_bind_eq
    {α : Type}
    (scope : ScopeId)
    (t : Ty)
    (id : NodeId)
    (next : Unit → Resolve α)
    (s : Search) :
    (remember scope t id >>= next) s =
      next () { s with graph := s.graph.remember scope t id } := rfl

theorem relocated?_eq_ok
    {scope owner : ScopeId}
    {key : Option Ty}
    {found : Option NodeId}
    {s s' : Search}
    (h : relocated? scope owner key s = .ok found s') :
    (found = none ∧ s' = s
        ∧ ∀ t, key = some t → owner ≠ scope → s.graph.answers.find? owner t = none)
      ∨ ∃ t id, key = some t ∧ found = some id ∧ owner ≠ scope
        ∧ s.graph.answers.find? owner t = some id ∧ s.graph.Admits s.chain.nodes id
        ∧ s' = { s with graph := s.graph.remember scope t id } := by
  cases key with
  | none =>
      obtain ⟨rfl, rfl⟩ := pure_eq_ok.mp h
      exact .inl ⟨rfl, rfl, fun t ht => nomatch ht⟩
  | some t =>
      unfold relocated? at h
      dsimp only at h
      split at h
      · rename_i howner
        obtain ⟨rfl, rfl⟩ := pure_eq_ok.mp h
        exact .inl ⟨rfl, rfl, fun _ _ hne => absurd howner hne⟩
      · rename_i howner
        obtain ⟨answer, s₁, h₁, h⟩ := bind_eq_ok.mp h
        cases h₁
        cases hanswer : s.graph.answers.find? owner t with
        | none =>
            rw [hanswer] at h
            obtain ⟨rfl, rfl⟩ := pure_eq_ok.mp h
            refine .inl ⟨rfl, rfl, fun t' ht' _ => ?_⟩
            cases ht'
            exact hanswer
        | some id =>
            rw [hanswer] at h
            dsimp only at h
            obtain ⟨_, s₂, h₂, h₃⟩ := bind_eq_ok.mp h
            obtain ⟨rfl, hadmits⟩ := checkCycle_eq_ok h₂
            rw [remember_bind_eq] at h₃
            obtain ⟨rfl, rfl⟩ := pure_eq_ok.mp h₃
            exact .inr ⟨t, id, rfl, rfl, howner, hanswer, hadmits, rfl⟩

theorem relocated?_eq_error
    {scope owner : ScopeId}
    {key : Option Ty}
    {e : ResolutionError}
    {s s' : Search}
    (h : relocated? scope owner key s = .error e s') :
    s' = s ∧ ∃ links, e = .circular links := by
  cases key with
  | none => exact absurd h pure_ne_error
  | some t =>
      unfold relocated? at h
      dsimp only at h
      split at h
      · exact absurd h pure_ne_error
      · rcases bind_eq_error.mp h with h₁ | ⟨answer, s₁, h₁, h⟩
        · cases h₁
        · cases h₁
          cases hanswer : s.graph.answers.find? owner t with
          | none =>
              rw [hanswer] at h
              exact absurd h pure_ne_error
          | some id =>
              rw [hanswer] at h
              dsimp only at h
              rcases bind_eq_error.mp h with h₂ | ⟨_, s₂, h₂, h₃⟩
              · exact checkCycle_eq_error h₂
              · rw [remember_bind_eq] at h₃
                exact absurd h₃ pure_ne_error

/-- The node of a declaration once it is on nobody's account: built, narrowed and
intercepted. -/
def freshNode (B : Build) (resolve : ScopeId → Request → Resolve NodeId)
    (scope owner : ScopeId) (key : Option Ty) (e : Entry) (declared : Declaration)
    (type : Ty) (assisted : Bool) : Resolve NodeId := do
  let id ← buildNode (.ofDeclaration e declared type assisted owner) key scope
    (each resolve owner e.declaration.requests)
  if !assisted then refineNode B id declared
  attachInterceptors B resolve id owner
  pure id

/-- The test for a node on the chain that was made for the same declaration, with the
same type. -/
def isAgain (g : Graph) (name : QName) (type : Ty) (id : NodeId) : Bool :=
  (g.node? id).any (fun n => n.origin = some name && n.type = type)

/-- A declaration that is on the chain already is asked for again; otherwise it is
relocated or a new node is built. -/
theorem declarationNode_eq
    (scope : ScopeId)
    (declaredIn : Option ScopeId)
    (key : Option Ty)
    (e : Entry)
    (declared : Declaration)
    (assisted : Bool)
    (s : Search) :
    declarationNode B resolve scope declaredIn key e declared assisted s =
      (let type := if assisted then key.getD e.declaration.type else e.declaration.type
      let owner := ownerOf (s.graph.path scope) scope declaredIn e.declaration
      match s.chain.nodes.dropWhile
          (fun id => !isAgain s.graph e.declaration.name type id) with
      | repeated :: inside => revisit repeated inside s
      | [] =>
          (relocated? scope owner key >>= fun
            | some id => pure id
            | none => freshNode B resolve scope owner key e declared type assisted) s) := by
  unfold declarationNode
  dsimp only
  rw [graph_bind_eq, chainFrom_bind_eq]
  unfold isAgain
  generalize s.chain.nodes.dropWhile _ = found
  cases found <;> rfl

theorem freshNode_eq
    (scope owner : ScopeId)
    (key : Option Ty)
    (e : Entry)
    (declared : Declaration)
    (type : Ty)
    (assisted : Bool) :
    freshNode B resolve scope owner key e declared type assisted =
      (buildNode (.ofDeclaration e declared type assisted owner) key scope
          (each resolve owner e.declaration.requests) >>= fun id =>
        modifyGraph (fun g => g.narrowAt B id declared assisted) >>= fun _ =>
          attachInterceptors B resolve id owner >>= fun _ => pure id) := by
  have hrefine : ∀ id, refineNode B id declared
      = modifyGraph (fun g => g.refineAt B id declared) := fun id =>
    funext (fun s => refineNode_eq id declared s)
  cases assisted with
  | true => rfl
  | false =>
      simp only [freshNode, hrefine]
      rfl

theorem freshNode_ok
    (hresolve : ∀ scope r, Sound B (resolve scope r) (.request scope r))
    {scope owner : ScopeId}
    {declaredIn : Option ScopeId}
    {key : Option Ty}
    {e : Entry}
    {declared : Declaration}
    {assisted : Bool}
    {id : NodeId}
    {s s' : Search}
    (hs : s.graph.Numbered)
    (hsupplied : Supplied B declaredIn key e declared assisted)
    (howner : ownerOf (s.graph.path scope) scope declaredIn e.declaration = owner)
    (hkey : ∀ t, key = some t → owner ≠ scope → s.graph.answers.find? owner t = none)
    (h : freshNode B resolve scope owner key e declared
      (if assisted then key.getD e.declaration.type else e.declaration.type) assisted s
        = .ok id s') :
    s'.chain.nodes = s.chain.nodes
      ∧ Derives B s.chain.nodes s.graph
        (.declaration scope declaredIn key e declared assisted id) s'.graph := by
  rw [freshNode_eq] at h
  obtain ⟨built, s₁, h₁, h⟩ := bind_eq_ok.mp h
  obtain ⟨_, s₂, h₂, h⟩ := bind_eq_ok.mp h
  cases h₂
  obtain ⟨_, s₃, h₃, h⟩ := bind_eq_ok.mp h
  obtain ⟨rfl, rfl⟩ := pure_eq_ok.mp h
  obtain ⟨hchain₁, hd₁⟩ := (buildNode_sound (each_sound hresolve owner _)
    (Node.ofDeclaration_plans _ _ _ _ _) _ _).ok hs h₁ (fun _ => trivial)
  obtain ⟨ids, t, hn⟩ := hd₁.narrowed_node? declared assisted
  have hs₁ := (hd₁.numbered hs).of_scopes_eq
    (Graph.narrowAt_scopes B s₁.graph built declared assisted)
  obtain ⟨entries, m, attached, g, hvisible, hchain₃, hd₃, hg⟩ :=
    attachInterceptors_ok hresolve hs₁ hn h₃
  rw [hg]
  dsimp only at hchain₃ hd₃
  rw [hchain₁] at hchain₃ hd₃
  exact ⟨hchain₃, .fresh hsupplied howner hkey hd₁ hn hvisible hd₃⟩

theorem freshNode_error
    (hresolve : ∀ scope r, Sound B (resolve scope r) (.request scope r))
    {scope owner : ScopeId}
    {key : Option Ty}
    {e : Entry}
    {declared : Declaration}
    {type : Ty}
    {assisted : Bool}
    {err : ResolutionError}
    {s s' : Search}
    (hs : s.graph.Numbered)
    (h : freshNode B resolve scope owner key e declared type assisted s
      = .error err s') :
    Fails B s.chain.nodes s.graph s'.graph := by
  have hbuild := buildNode_sound (each_sound hresolve owner e.declaration.requests)
    (Node.ofDeclaration_plans e declared type assisted owner) key scope
  rw [freshNode_eq] at h
  rcases bind_eq_error.mp h with h₁ | ⟨built, s₁, h₁, h⟩
  · exact hbuild.error hs h₁ (fun _ => trivial)
  · obtain ⟨hchain₁, hd₁⟩ := hbuild.ok hs h₁ (fun _ => trivial)
    rcases bind_eq_error.mp h with h₂ | ⟨_, s₂, h₂, h⟩
    · cases h₂
    · cases h₂
      obtain ⟨ids, t, hn⟩ := hd₁.narrowed_node? declared assisted
      have hs₁ := (hd₁.numbered hs).of_scopes_eq
        (Graph.narrowAt_scopes B s₁.graph built declared assisted)
      rcases bind_eq_error.mp h with h₃ | ⟨_, s₃, h₃, h⟩
      · obtain ⟨m, hmerges, hf⟩ := attachInterceptors_error hresolve hs₁ hn h₃
        dsimp only at hf
        rw [hchain₁] at hf
        exact .attaching hd₁ hmerges hf
      · exact absurd h pure_ne_error

theorem declarationNode_sound
    (hresolve : ∀ scope r, Sound B (resolve scope r) (.request scope r))
    (scope : ScopeId)
    {declaredIn : Option ScopeId}
    {key : Option Ty}
    {e : Entry}
    {declared : Declaration}
    {assisted : Bool}
    (hsupplied : Supplied B declaredIn key e declared assisted) :
    Sound B (declarationNode B resolve scope declaredIn key e declared assisted)
      (.declaration scope declaredIn key e declared assisted) := by
  refine sound_of_ok_of_error ?_ ?_
  · intro s id s' hs h
    rw [declarationNode_eq] at h
    dsimp only at h
    split at h
    · rename_i repeated inside hdrop
      obtain ⟨rfl, rfl, hbreaks⟩ := revisit_eq_ok h
      obtain ⟨hmem, hagain, hadmits⟩ := admits_of_chainFrom hdrop hbreaks
      exact ⟨rfl, .again hsupplied hmem (isInstance_of_any hagain) hadmits⟩
    · obtain ⟨found, s₁, h₁, h⟩ := bind_eq_ok.mp h
      rcases relocated?_eq_ok h₁ with ⟨rfl, rfl, hkey⟩
        | ⟨t, kept, rfl, rfl, howner, hkept, hadmits, rfl⟩
      · exact freshNode_ok hresolve hs hsupplied rfl hkey h
      · obtain ⟨rfl, rfl⟩ := pure_eq_ok.mp h
        exact ⟨rfl, .relocated hsupplied howner hkept hadmits⟩
  · intro s err s' hs h
    rw [declarationNode_eq] at h
    dsimp only at h
    split at h
    · rw [(revisit_eq_error h).1]
      exact .here
    · rcases bind_eq_error.mp h with h₁ | ⟨found, s₁, h₁, h⟩
      · rw [(relocated?_eq_error h₁).1]
        exact .here
      · rcases relocated?_eq_ok h₁ with ⟨rfl, rfl, hkey⟩
          | ⟨t, kept, rfl, rfl, howner, hkept, hadmits, rfl⟩
        · exact freshNode_error hresolve hs h
        · exact absurd h pure_ne_error

theorem entryNodes_sound
    (hresolve : ∀ scope r, Sound B (resolve scope r) (.request scope r))
    (scope : ScopeId)
    (entries : List Entry) :
    Sound B (entryNodes B resolve scope entries) (.demands scope (entries.map .entry)) := by
  induction entries with
  | nil =>
      intro s _ _
      exact ⟨rfl, .noDemands⟩
  | cons e es ih =>
      have hfirst := declarationNode_sound hresolve scope (.entry e)
      have hunfold : entryNodes B resolve scope (e :: es) =
          (declarationNode B resolve scope none none e e.declaration false >>= fun id =>
            entryNodes B resolve scope es >>= fun ids => pure (id :: ids)) :=
        List.mapM_cons
      rw [hunfold]
      refine sound_of_ok_of_error ?_ ?_
      · intro s a s' hs hstep
        obtain ⟨id, s₁, h₁, hstep⟩ := bind_eq_ok.mp hstep
        obtain ⟨ids, s₂, h₂, hstep⟩ := bind_eq_ok.mp hstep
        obtain ⟨rfl, rfl⟩ := pure_eq_ok.mp hstep
        obtain ⟨hchain₁, hd₁⟩ := hfirst.ok hs h₁ (fun _ => trivial)
        obtain ⟨hchain₂, hd₂⟩ := ih.ok (hd₁.numbered hs) h₂ (fun _ => trivial)
        rw [hchain₁] at hchain₂ hd₂
        exact ⟨hchain₂, .entryDemand hd₁ hd₂⟩
      · intro s err s' hs hstep
        rcases bind_eq_error.mp hstep with h₁ | ⟨id, s₁, h₁, hstep⟩
        · exact hfirst.error hs h₁ (fun _ => trivial)
        · obtain ⟨hchain₁, hd₁⟩ := hfirst.ok hs h₁ (fun _ => trivial)
          rcases bind_eq_error.mp hstep with h₂ | ⟨ids, s₂, h₂, hstep⟩
          · have hf := ih.error (hd₁.numbered hs) h₂ (fun _ => trivial)
            rw [hchain₁] at hf
            exact .after (.entryDemand hd₁ .noDemands) hf
          · exact absurd hstep pure_ne_error

end Declarations

/-! ## Nodes of candidates -/

section Candidates

variable {B : Build} {resolve : ScopeId → Request → Resolve NodeId}

/-- A step that changes the graph as a blueprint says and builds its node makes the
node of the candidate. -/
theorem built_sound
    {α : Type}
    {sc : Scope}
    {r : Request}
    {c : Candidate}
    (hoffered : Offered B sc r.type c)
    {before : Resolve α}
    {build : α → Resolve NodeId}
    (hbefore : ∀ s a s', s.graph.Numbered → before s = .ok a s' →
      s'.chain = s.chain ∧ s'.graph.Numbered
        ∧ ∃ n evaluated demands, Blueprint B sc.id r s.graph c n evaluated demands s'.graph
          ∧ Sound B (build a) (.node n (some r.type) sc.id evaluated demands))
    (hfails : ∀ s a s' stack g, s.graph.scope? sc.id = some sc → before s = .ok a s' →
      Fails B stack s'.graph g → Fails B stack s.graph g)
    (herror : ∀ s e s' stack, before s = .error e s' → Fails B stack s.graph s'.graph) :
    Sound B (before >>= build) (.candidate sc r c) := by
  refine sound_of_located ?_ ?_
  · intro s id s' hs h
    obtain ⟨a, s₁, h₁, h⟩ := bind_eq_ok.mp h
    obtain ⟨hchain, hs₁, n, evaluated, demands, hblueprint, hbuild⟩ := hbefore s a s₁ hs h₁
    obtain ⟨hchain', hd⟩ := hbuild.ok hs₁ h (fun _ => trivial)
    rw [hchain] at hchain' hd
    exact ⟨hchain', .built hoffered hblueprint hd⟩
  · intro s e s' hs hJ h
    rcases bind_eq_error.mp h with h₁ | ⟨a, s₁, h₁, h⟩
    · exact herror s e s' _ h₁
    · obtain ⟨hchain, hs₁, n, evaluated, demands, hblueprint, hbuild⟩ :=
        hbefore s a s₁ hs h₁
      have hf := hbuild.error hs₁ h (fun _ => trivial)
      rw [hchain] at hf
      exact hfails s a s₁ _ _ (hJ ⟨0⟩) h₁ hf

/-- The same for a blueprint that changes nothing before. -/
theorem built_at_once_sound
    {sc : Scope}
    {evaluated : ScopeId}
    {r : Request}
    {c : Candidate}
    {n : Node}
    {demands : List Demand}
    {build : Resolve NodeId}
    (hoffered : Offered B sc r.type c)
    (hblueprint : ∀ g, Blueprint B sc.id r g c n evaluated demands g)
    (hbuild : Sound B build (.node n (some r.type) sc.id evaluated demands)) :
    Sound B build (.candidate sc r c) :=
  hbuild.imp (fun _ _ _ _ hd => .built hoffered (hblueprint _) hd) (fun _ _ => trivial)

/-- An answer that is remembered twice is remembered once. -/
theorem insert_insert
    (answers : Answers)
    (scope : ScopeId)
    (t : Ty)
    (id : NodeId) :
    (answers.insert scope t id).insert scope t id = answers.insert scope t id := by
  simp [Answers.insert, List.filter_filter]

/-- A new node that its owner remembers and then the requesting scope. -/
theorem begin_of_scope
    (g : Graph)
    (n : Node)
    (t : Ty)
    (scope : ScopeId) :
    g.begin n (some t) scope
      = ((g.append n).remember n.owner t g.nextId).remember scope t g.nextId := by
  unfold Graph.begin
  dsimp only
  split
  · rename_i hscope
    subst hscope
    simp [Graph.remember, insert_insert]
  · rfl

theorem inputNode_eq
    (scope : ScopeId)
    (key : Ty)
    (index : Nat)
    (type : Ty)
    (declaredIn : Option ScopeId)
    (s : Search) :
    inputNode scope key index type declaredIn s =
      match s.graph.answers.find? (declaredIn.getD scope) key with
      | some id => .ok id ⟨s.graph.remember scope key id, s.chain⟩
      | none =>
          let n := Node.plain type (declaredIn.getD scope) (.input index)
          .ok s.graph.nextId ⟨s.graph.begin n (some key) scope, s.chain⟩ := by
  cases hfound : s.graph.answers.find? (declaredIn.getD scope) key with
  | some id =>
      change (answer? _ key >>= _) s = _
      refine bind_eq_ok.mpr ⟨some id, s, ?_, rfl⟩
      change EStateM.Result.ok _ _ = _
      rw [hfound]
  | none =>
      change (answer? _ key >>= _) s = _
      refine bind_eq_ok.mpr ⟨none, s, ?_, ?_⟩
      · change EStateM.Result.ok _ _ = _
        rw [hfound]
      · rw [begin_of_scope]
        rfl

theorem inputNode_sound
    {sc : Scope}
    {r : Request}
    {index : Nat}
    {type : Ty}
    {declaredIn : Option ScopeId}
    (hoffered : Offered B sc r.type (.input index type declaredIn)) :
    Sound B (inputNode sc.id r.type index type declaredIn)
      (.candidate sc r (.input index type declaredIn)) := by
  refine sound_of_ok_of_error ?_ ?_
  · intro s id s' _ h
    rw [inputNode_eq] at h
    split at h
    · rename_i kept hkept
      cases h
      exact ⟨rfl, .keptInput hoffered hkept⟩
    · rename_i hnone
      cases h
      exact ⟨rfl, .built hoffered (.input hnone) (derives_leaf (.plain rfl))⟩
  · intro s e s' _ h
    rw [inputNode_eq] at h
    split at h <;> cases h

theorem aliasNode_eq
    (scope : ScopeId)
    (key : Ty)
    (d : Declaration)
    (type : Ty)
    (s : Search) :
    aliasNode resolve scope key d type s =
      match s.chain.nodes.dropWhile (fun id => !isAgain s.graph d.name type id) with
      | repeated :: inside => revisit repeated inside s
      | [] =>
          buildNode (.ofAlias d type scope) (some key) scope
            (each resolve scope d.requests) s := by
  unfold aliasNode
  rw [graph_bind_eq, chainFrom_bind_eq]
  unfold isAgain
  generalize s.chain.nodes.dropWhile _ = found
  cases found <;> rfl

theorem aliasNode_sound
    (hresolve : ∀ scope r, Sound B (resolve scope r) (.request scope r))
    {sc : Scope}
    {r : Request}
    {d : Declaration}
    {type : Ty}
    (hoffered : Offered B sc r.type (.funAlias d type)) :
    Sound B (aliasNode resolve sc.id r.type d type)
      (.candidate sc r (.funAlias d type)) := by
  have hbuild := buildNode_sound (each_sound hresolve sc.id d.requests)
    (Node.ofAlias_plans d type sc.id) (some r.type) sc.id
  refine sound_of_ok_of_error ?_ ?_
  · intro s id s' hs h
    rw [aliasNode_eq] at h
    split at h
    · rename_i repeated inside hdrop
      obtain ⟨rfl, rfl, hbreaks⟩ := revisit_eq_ok h
      obtain ⟨hmem, hagain, hadmits⟩ := admits_of_chainFrom hdrop hbreaks
      exact ⟨rfl, .aliasAgain hoffered hmem (isInstance_of_any hagain) hadmits⟩
    · obtain ⟨hchain, hd⟩ := hbuild.ok hs h (fun _ => trivial)
      exact ⟨hchain, .built hoffered .funAlias hd⟩
  · intro s e s' hs h
    rw [aliasNode_eq] at h
    split at h
    · rw [(revisit_eq_error h).1]
      exact .here
    · exact hbuild.error hs h (fun _ => trivial)

theorem collected_eq_ok
    {scope : ScopeId}
    {kind : Collection.Kind}
    {t : Ty}
    {found : Option (List Entry)}
    {s s' : Search}
    (h : collected B scope kind t s = .ok found s') :
    ∃ m, s.graph.memo.merged B.registry B.catalog B.options kind t (s.graph.path scope)
        = (.ok found, m)
      ∧ s' = { s with graph := s.graph.withMemo m } := by
  unfold collected at h
  dsimp only at h
  split at h
  · rename_i merged m hm
    cases h
    exact ⟨m, hm, rfl⟩
  · cases h

theorem collectionNode_sound
    (hresolve : ∀ scope r, Sound B (resolve scope r) (.request scope r))
    {sc : Scope}
    {r : Request}
    {kind : Collection.Kind}
    {type : Ty}
    {c : Candidate}
    (hoffered : Offered B sc r.type c)
    (hblueprint : ∀ (g : Graph) (merged : Option (List Entry)) (m : Memo),
      g.memo.merged B.registry B.catalog B.options kind type (g.path sc.id)
        = (.ok merged, m) →
      Blueprint B sc.id r g c (.ofCollection kind type sc.id (merged.getD [])) sc.id
        ((merged.getD []).map .entry) (g.withMemo m)) :
    Sound B (collectionNode B resolve sc.id r.type kind type)
      (.candidate sc r c) := by
  unfold collectionNode
  refine built_sound hoffered ?_ ?_ ?_
  · intro s merged s' hs h
    obtain ⟨m, hm, rfl⟩ := collected_eq_ok h
    refine ⟨rfl, hs, _, _, _, hblueprint s.graph merged m hm, ?_⟩
    exact buildNode_sound (entryNodes_sound hresolve sc.id _)
      (hblueprint s.graph merged m hm).plans _ _
  · intro s merged s' stack g _ h hf
    obtain ⟨m, hmerges, rfl⟩ := (collected_onlyMemo B sc.id kind type).ok h
    exact .merged hmerges hf
  · intro s e s' stack h
    obtain ⟨m, hmerges, rfl⟩ := (collected_onlyMemo B sc.id kind type).error h
    exact .merged hmerges .here

theorem extend_eq_ok
    {α : Type}
    {f : Graph → Except ResolutionError (α × Graph)}
    {a : α}
    {s s' : Search}
    (h : extend f s = .ok a s') :
    f s.graph = .ok (a, s'.graph) ∧ s'.chain = s.chain := by
  unfold extend at h
  split at h
  · rename_i a' g hf
    cases h
    exact ⟨hf, rfl⟩
  · cases h

theorem extend_eq_error
    {α : Type}
    {f : Graph → Except ResolutionError (α × Graph)}
    {e : ResolutionError}
    {s s' : Search}
    (h : extend f s = .error e s') :
    s' = s := by
  unfold extend at h
  split at h
  · cases h
  · cases h
    rfl

theorem providerNode_sound
    (hresolve : ∀ scope r, Sound B (resolve scope r) (.request scope r))
    {sc : Scope}
    {r : Request}
    {type : Ty}
    {parameters : List Ty}
    {returns : Ty}
    (hoffered : Offered B sc r.type (.provider type parameters returns)) :
    Sound B (providerNode B resolve sc.id r type parameters returns)
      (.candidate sc r (.provider type parameters returns)) := by
  have hsplit : ∀ s, providerNode B resolve sc.id r type parameters returns s =
      (extend (fun g => g.pushScope B (some sc.id)
          (s.graph.providerSpec B sc.id type parameters) {}) >>= fun inner =>
        buildNode (.ofProvider r type sc.id inner parameters returns) (some r.type) sc.id
          (each resolve inner [r.provided returns])) s := fun s => rfl
  have hbuild := fun inner => buildNode_sound
    (each_sound hresolve inner [r.provided returns])
    (Node.ofProvider_plans r type sc.id inner parameters returns) (some r.type) sc.id
  refine sound_of_located ?_ ?_
  · intro s id s' hs h
    rw [hsplit] at h
    obtain ⟨inner, s₁, h₁, h⟩ := bind_eq_ok.mp h
    obtain ⟨hpush, hchain₁⟩ := extend_eq_ok h₁
    obtain ⟨hchain, hd⟩ := (hbuild inner).ok (hs.pushScope hpush) h (fun _ => trivial)
    rw [hchain₁] at hchain hd
    exact ⟨hchain, .built hoffered (.provider hpush) hd⟩
  · intro s e s' hs hJ h
    rw [hsplit] at h
    rcases bind_eq_error.mp h with h₁ | ⟨inner, s₁, h₁, h⟩
    · rw [extend_eq_error h₁]
      exact .here
    · obtain ⟨hpush, hchain₁⟩ := extend_eq_ok h₁
      have hf := (hbuild inner).error (hs.pushScope hpush) h (fun _ => trivial)
      rw [hchain₁] at hf
      exact .entered (hJ ⟨0⟩) hpush hf

theorem childComponentNode_sound
    (hresolve : ∀ scope r, Sound B (resolve scope r) (.request scope r))
    {sc : Scope}
    {r : Request}
    {type : Ty}
    {parameters : List Ty}
    {component : Ty}
    (hoffered : Offered B sc r.type (.childComponent type parameters component)) :
    Sound B (childComponentNode B resolve sc.id r type parameters component)
      (.candidate sc r (.childComponent type parameters component)) := by
  unfold childComponentNode
  cases hc : B.catalog.component? component.classifier with
  | none =>
      intro s _ _
      exact .here
  | some c =>
      dsimp only
      refine built_sound hoffered ?_ ?_ ?_
      · intro s inner s' hs h
        obtain ⟨hadd, hchain⟩ := extend_eq_ok h
        obtain ⟨found, -, hpush⟩ := Graph.addScope_eq_ok hadd
        refine ⟨hchain, hs.pushScope hpush, _, _, _, .childComponent hc hadd, ?_⟩
        exact buildNode_sound (each_sound hresolve inner _)
          (Blueprint.childComponent hc hadd).plans _ _
      · intro s inner s' stack g hscope h hf
        obtain ⟨hadd, -⟩ := extend_eq_ok h
        obtain ⟨found, -, hpush⟩ := Graph.addScope_eq_ok hadd
        exact .entered hscope hpush hf
      · intro s e s' stack h
        rw [extend_eq_error h]
        exact .here

/-- The node of a candidate that a scope offers. -/
theorem nodeOf_sound
    (hresolve : ∀ scope r, Sound B (resolve scope r) (.request scope r))
    {sc : Scope}
    {r : Request}
    {c : Candidate}
    (hoffered : Offered B sc r.type c) :
    Sound B (nodeOf B resolve sc.id r c) (.candidate sc r c) := by
  cases c with
  | declaration m =>
      exact (declarationNode_sound hresolve sc.id (.offered hoffered)).imp
        (fun _ _ _ _ hd => .declaration hoffered hd) (fun _ _ => trivial)
  | input index type declaredIn => exact inputNode_sound hoffered
  | object type =>
      exact built_at_once_sound hoffered (fun g => .object)
        (leaf_sound (n := .plain type sc.id .object) (.plain rfl) r.type)
  | funAlias d type => exact aliasNode_sound hresolve hoffered
  | provider type parameters returns => exact providerNode_sound hresolve hoffered
  | set type element =>
      exact collectionNode_sound hresolve hoffered (fun _ _ _ hm => .set hm)
  | map type =>
      exact collectionNode_sound hresolve hoffered (fun _ _ _ hm => .map hm)
  | self type =>
      exact built_at_once_sound hoffered (fun g => .self)
        (leaf_sound (n := .plain type sc.id .self) (.plain rfl) r.type)
  | childComponent type parameters component =>
      exact childComponentNode_sound hresolve hoffered

end Candidates

end Resolve
end Wiring
