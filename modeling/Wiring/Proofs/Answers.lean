import Wiring.Proofs.Traversal
import Wiring.Proofs.Dependency

/-!
# Remembered answers

What a search remembers: every answer names a node that is there, and so does every
node refer to nodes that are there.  What a failing search leaves behind of the nodes
from before it are copies of answers from before, for scopes further down.

**Results.**
* `Derives.bounded`: answers and results name nodes that are there.
* `Fails.copies`: after a failing search, every answer that names a node from before is
  an answer from before, of the scope itself or of one of its ancestors.
-/

namespace Wiring

/-! ## Lists of answers -/

namespace Answers

theorem mem_of_find?
    {answers : Answers}
    {scope : ScopeId}
    {t : Ty}
    {id : NodeId}
    (h : answers.find? scope t = some id) :
    ((scope, t), id) ∈ answers := by
  obtain ⟨before, after, rfl, -⟩ := List.lookup_eq_some_iff.mp h
  simp

theorem eq_or_mem_of_mem_insert
    {answers : Answers}
    {scope : ScopeId}
    {t : Ty}
    {id : NodeId}
    {a : (ScopeId × Ty) × NodeId}
    (h : a ∈ answers.insert scope t id) :
    a = ((scope, t), id) ∨ a ∈ answers := by
  rcases List.mem_cons.mp h with rfl | h
  · exact .inl rfl
  · exact .inr (List.mem_filter.mp h).1

theorem mem_restrict
    {answers : Answers}
    {nodes scopes : Nat}
    {a : (ScopeId × Ty) × NodeId} :
    a ∈ answers.restrict nodes scopes ↔
      a ∈ answers ∧ a.2.index < nodes ∧ a.1.1.index < scopes := by
  simp [restrict]

end Answers

namespace Graph

theorem mem_answers_begin
    {g : Graph}
    {n : Node}
    {key : Option Ty}
    {scope : ScopeId}
    {a : (ScopeId × Ty) × NodeId}
    (h : a ∈ (g.begin n key scope).answers) :
    a ∈ g.answers
      ∨ a.2 = g.nextId ∧ (a.1.1 = n.owner ∨ a.1.1 = scope) ∧ key = some a.1.2 := by
  unfold Graph.begin at h
  cases key with
  | none => exact .inl h
  | some t =>
      dsimp only at h
      split at h
      · rcases Answers.eq_or_mem_of_mem_insert h with rfl | h
        · exact .inr ⟨rfl, .inl rfl, rfl⟩
        · exact .inl h
      · rcases Answers.eq_or_mem_of_mem_insert h with rfl | h
        · exact .inr ⟨rfl, .inr rfl, rfl⟩
        · rcases Answers.eq_or_mem_of_mem_insert h with rfl | h
          · exact .inr ⟨rfl, .inl rfl, rfl⟩
          · exact .inl h

@[simp] theorem narrowAt_answers
    (B : Build)
    (g : Graph)
    (id : NodeId)
    (declared : Declaration)
    (assisted : Bool) :
    (g.narrowAt B id declared assisted).answers = g.answers := by
  rcases narrowAt_cases B g id declared assisted with heq | ⟨-, types, heq⟩
  · rw [heq]
  · rw [heq]
    rfl

@[simp] theorem change_size
    (g : Graph)
    (id : NodeId)
    (f : Node → Node) :
    (g.change id f).nodes.size = g.nodes.size := by
  simp [Graph.change]

@[simp] theorem narrowAt_size
    (B : Build)
    (g : Graph)
    (id : NodeId)
    (declared : Declaration)
    (assisted : Bool) :
    (g.narrowAt B id declared assisted).nodes.size = g.nodes.size := by
  rcases narrowAt_cases B g id declared assisted with heq | ⟨-, types, heq⟩
  · rw [heq]
  · rw [heq, change_size]

theorem begin_size
    (g : Graph)
    (n : Node)
    (key : Option Ty)
    (scope : ScopeId) :
    (g.begin n key scope).nodes.size = g.nodes.size + 1 := by
  obtain ⟨answers, heq⟩ := exists_begin_eq g n key scope
  rw [heq]
  simp [Graph.append]

/-- A node is one from before or the new one. -/
theorem begin_node?_eq_some
    {g : Graph}
    {n n' : Node}
    {key : Option Ty}
    {scope : ScopeId}
    {id : NodeId}
    (h : (g.begin n key scope).node? id = some n') :
    g.node? id = some n' ∨ (id = g.nextId ∧ n' = { n with id := g.nextId }) := by
  by_cases hlt : id.index < g.nodes.size
  · have hgrows := (Grows.refl g).begin n key scope
    exact .inl ((hgrows.node?_eq hlt).symm.trans h)
  · have hle := Graph.lt_size_of_node? h
    rw [begin_size] at hle
    have hindex : id.index = g.nextId.index := by
      change id.index = g.nodes.size
      omega
    have hid : id = g.nextId := NodeId.eq_of_index hindex
    rw [hid, begin_node?_self] at h
    exact .inr ⟨hid, (Option.some.inj h).symm⟩

theorem pushScope_answers
    {B : Build}
    {g g' : Graph}
    {parent : Option ScopeId}
    {spec : ScopeSpec}
    {found : Contributions}
    {inner : ScopeId}
    (h : g.pushScope B parent spec found = .ok (inner, g')) :
    g'.answers = g.answers ∧ g'.nodes = g.nodes := by
  obtain ⟨s₀, s, rfl, -⟩ := pushScope_eq_ok h
  exact ⟨rfl, rfl⟩

/-- A new scope has merged nothing yet. -/
theorem pushScope_memo
    {B : Build}
    {g g' : Graph}
    {parent : Option ScopeId}
    {spec : ScopeSpec}
    {found : Contributions}
    {inner : ScopeId}
    (h : g.pushScope B parent spec found = .ok (inner, g')) :
    g'.memo = g.memo := by
  obtain ⟨s₀, s, rfl, -⟩ := pushScope_eq_ok h
  rfl

/-- Every answer names a node that is there. -/
def Bounded (g : Graph) : Prop :=
  ∀ a ∈ g.answers, a.2.index < g.nodes.size

theorem Bounded.find?
    {g : Graph}
    (hg : g.Bounded)
    {scope : ScopeId}
    {t : Ty}
    {id : NodeId}
    (h : g.answers.find? scope t = some id) :
    id.index < g.nodes.size :=
  hg _ (Answers.mem_of_find? h)

theorem Bounded.remember
    {g : Graph}
    (hg : g.Bounded)
    {id : NodeId}
    (hid : id.index < g.nodes.size)
    (scope : ScopeId)
    (t : Ty) :
    (g.remember scope t id).Bounded := by
  intro a ha
  rcases Answers.eq_or_mem_of_mem_insert ha with rfl | ha
  · exact hid
  · exact hg a ha

theorem Bounded.begin
    {g : Graph}
    (hg : g.Bounded)
    (n : Node)
    (key : Option Ty)
    (scope : ScopeId) :
    (g.begin n key scope).Bounded := by
  intro a ha
  rw [begin_size]
  rcases mem_answers_begin ha with ha | ⟨hid, -⟩
  · exact Nat.lt_succ_of_lt (hg a ha)
  · rw [hid]
    exact Nat.lt_succ_self _

theorem Bounded.change
    {g : Graph}
    (hg : g.Bounded)
    (id : NodeId)
    (f : Node → Node) :
    (g.change id f).Bounded := by
  intro a ha
  rw [change_size]
  exact hg a ha

theorem Bounded.narrowAt
    {g : Graph}
    (hg : g.Bounded)
    (B : Build)
    (id : NodeId)
    (declared : Declaration)
    (assisted : Bool) :
    (g.narrowAt B id declared assisted).Bounded := by
  intro a ha
  rw [narrowAt_answers] at ha
  rw [narrowAt_size]
  exact hg a ha

theorem Bounded.pushScope
    {B : Build}
    {g g' : Graph}
    (hg : g.Bounded)
    {parent : Option ScopeId}
    {spec : ScopeSpec}
    {found : Contributions}
    {inner : ScopeId}
    (h : g.pushScope B parent spec found = .ok (inner, g')) :
    g'.Bounded := by
  obtain ⟨hanswers, hnodes⟩ := pushScope_answers h
  intro a ha
  rw [hanswers] at ha
  rw [hnodes]
  exact hg a ha

end Graph

/-! ## Open nodes -/

section Open

variable {stack : List NodeId} {g g' : Graph}

/-- Nodes that are there stay there. -/
theorem stack_grows
    (hstack : ∀ i ∈ stack, i.index < g.nodes.size)
    (hg : g.Grows g') :
    ∀ i ∈ stack, i.index < g'.nodes.size :=
  fun i hi => Nat.lt_of_lt_of_le (hstack i hi) hg.size_nodes

theorem stack_concat
    (hstack : ∀ i ∈ stack, i.index < g.nodes.size)
    {id : NodeId}
    (hid : id.index < g.nodes.size) :
    ∀ i ∈ stack ++ [id], i.index < g.nodes.size :=
  List.forall_mem_append.mpr ⟨hstack, List.forall_mem_singleton.mpr hid⟩

/-- A new node is open. -/
theorem stack_push
    (hstack : ∀ i ∈ stack, i.index < g.nodes.size)
    (n : Node)
    (key : Option Ty)
    (scope : ScopeId) :
    ∀ i ∈ stack ++ [g.nextId], i.index < (g.begin n key scope).nodes.size := by
  refine stack_concat (stack_grows hstack ((Graph.Grows.refl g).begin n key scope)) ?_
  rw [Graph.begin_size]
  exact Nat.lt_succ_self _

/-- A node that was appended is open again once its type is narrowed. -/
theorem stack_reopened
    {B : Build}
    (hstack : ∀ i ∈ stack, i.index < g.nodes.size)
    {id : NodeId}
    (hid : id.index < g.nodes.size)
    (declared : Declaration)
    (assisted : Bool) :
    ∀ i ∈ stack ++ [id], i.index < (g.narrowAt B id declared assisted).nodes.size := by
  rw [Graph.narrowAt_size]
  exact stack_concat hstack hid

end Open

/-! ## Results of a part of a search -/

/-- The nodes that a finished part of a search came to. -/
def Judgement.results : Judgement → List NodeId
  | .request _ _ id => [id]
  | .search _ _ id => [id]
  | .candidate _ _ _ id => [id]
  | .declaration _ _ _ _ _ _ id => [id]
  | .node _ _ _ _ _ id => [id]
  | .demands _ _ ids => ids
  | .interceptors _ _ _ _ attached => attached.flatMap Interceptor.resolved

theorem Blueprint.bounded
    {B : Build}
    {scope evaluated : ScopeId}
    {r : Request}
    {c : Candidate}
    {n : Node}
    {demands : List Demand}
    {g g' : Graph}
    (h : Blueprint B scope r g c n evaluated demands g')
    (hg : g.Bounded) :
    g'.Bounded :=
  h.surroundings (fun hg _ => hg) (fun hp => hg.pushScope hp) hg

/-- A part of a search comes to nodes that are there, and remembers such nodes only. -/
theorem Derives.bounded
    {B : Build}
    {stack : List NodeId}
    {J : Judgement}
    {g g' : Graph}
    (h : Derives B stack g J g')
    (hstack : ∀ i ∈ stack, i.index < g.nodes.size)
    (hg : g.Bounded) :
    g'.Bounded ∧ ∀ id ∈ J.results, id.index < g'.nodes.size := by
  induction h with
  | found _ ih => exact ih hstack hg
  | null habsent _ _ ih =>
      obtain ⟨m, -, rfl⟩ := habsent.withMemo
      exact ih hstack hg
  | missing habsent _ _ _ ih =>
      obtain ⟨m, -, rfl⟩ := habsent.withMemo
      exact ih hstack hg
  | recalled hfound _ => exact ⟨hg, List.forall_mem_singleton.mpr (hg.find? hfound)⟩
  | chosen _ _ _ hoffers _ _ ih =>
      obtain ⟨m, -, rfl⟩ := hoffers.withMemo
      exact ih hstack hg
  | inherited _ _ hoffers _ _ ih =>
      obtain ⟨m, -, rfl⟩ := hoffers.withMemo
      obtain ⟨hbounded, hresults⟩ := ih hstack hg
      exact ⟨hbounded.remember (hresults _ (List.mem_singleton_self _)) _ _, hresults⟩
  | declaration _ _ ih => exact ih hstack hg
  | keptInput _ hfound =>
      have hid := hg.find? hfound
      exact ⟨hg.remember hid _ _, List.forall_mem_singleton.mpr hid⟩
  | aliasAgain _ hmem _ _ =>
      exact ⟨hg, List.forall_mem_singleton.mpr (hstack _ hmem)⟩
  | built _ hblueprint _ ih =>
      exact ih (stack_grows hstack hblueprint.grows) (hblueprint.bounded hg)
  | again _ hmem _ _ => exact ⟨hg, List.forall_mem_singleton.mpr (hstack _ hmem)⟩
  | relocated _ _ hfound _ =>
      have hid := hg.find? hfound
      exact ⟨hg.remember hid _ _, List.forall_mem_singleton.mpr hid⟩
  | @fresh stack scope owner declaredIn key e declared assisted n entries attached m id g
      g₁ g' _ _ _ hnode _ _ hd ihnode ih =>
      obtain ⟨hbounded₁, hresults₁⟩ := ihnode hstack hg
      -- the node is open again while its interceptors are attached
      have hopen := stack_reopened (B := B) (stack_grows hstack hnode.grows)
        (hresults₁ id (List.mem_singleton_self _)) declared assisted
      obtain ⟨hbounded, -⟩ := ih hopen (hbounded₁.narrowAt B id declared assisted)
      have hgrows := ((Graph.Grows.refl _).withMemo m).trans hd.grows
      refine ⟨hbounded.change _ _, List.forall_mem_singleton.mpr ?_⟩
      rw [Graph.change_size]
      exact stack_grows hopen hgrows id List.mem_concat_self
  | @node stack n key scope evaluated demands ids g g' _ hd ih =>
      have hopen := stack_push hstack n key scope
      obtain ⟨hbounded, -⟩ := ih hopen (hg.begin n key scope)
      refine ⟨hbounded.change _ _, List.forall_mem_singleton.mpr ?_⟩
      rw [Graph.change_size]
      exact stack_grows hopen hd.grows _ List.mem_concat_self
  | noDemands => exact ⟨hg, fun _ h => nomatch h⟩
  | requestDemand hd hds ih ihs =>
      obtain ⟨hbounded₁, hresults₁⟩ := ih hstack hg
      obtain ⟨hbounded, hresults⟩ := ihs (stack_grows hstack hd.grows) hbounded₁
      exact ⟨hbounded,
        List.forall_mem_append.mpr ⟨stack_grows hresults₁ hds.grows, hresults⟩⟩
  | entryDemand hd hds ih ihs =>
      obtain ⟨hbounded₁, hresults₁⟩ := ih hstack hg
      obtain ⟨hbounded, hresults⟩ := ihs (stack_grows hstack hd.grows) hbounded₁
      exact ⟨hbounded,
        List.forall_mem_append.mpr ⟨stack_grows hresults₁ hds.grows, hresults⟩⟩
  | noInterceptors => exact ⟨hg, fun _ h => nomatch h⟩
  | interceptor hd hds ih ihs =>
      obtain ⟨hbounded₁, hresults₁⟩ := ih hstack hg
      obtain ⟨hbounded, hresults⟩ := ihs (stack_grows hstack hd.grows) hbounded₁
      exact ⟨hbounded,
        List.forall_mem_append.mpr ⟨stack_grows hresults₁ hds.grows, hresults⟩⟩

/-- A node that was built is open again once its type is narrowed. -/
theorem Derives.reopened
    {B : Build}
    {stack : List NodeId}
    {n : Node}
    {key : Option Ty}
    {scope evaluated : ScopeId}
    {demands : List Demand}
    {id : NodeId}
    {g g' : Graph}
    (h : Derives B stack g (.node n key scope evaluated demands id) g')
    (hstack : ∀ i ∈ stack, i.index < g.nodes.size)
    (hg : g.Bounded)
    (declared : Declaration)
    (assisted : Bool) :
    (∀ i ∈ stack ++ [id], i.index < (g'.narrowAt B id declared assisted).nodes.size)
      ∧ (g'.narrowAt B id declared assisted).Bounded := by
  obtain ⟨hbounded, hresults⟩ := h.bounded hstack hg
  have hid := hresults id (List.mem_singleton_self _)
  exact ⟨stack_reopened (stack_grows hstack h.grows) hid declared assisted,
    hbounded.narrowAt B id declared assisted⟩

end Wiring
