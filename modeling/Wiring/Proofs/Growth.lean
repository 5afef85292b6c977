import Mathlib.Tactic.Common
import Wiring.Proofs.Steps

/-!
# Growth of a graph during a search

A search appends scopes and nodes and changes no node that was there before, not even
the ones that are open: those are changed by the part of the search that appended them.

**Results.**
* `Derives.grows`: after a finished part of a search, every scope and node from before
  is still there and the same.
* `Fails.grows`: the same for a search that stops at an error, so cutting the graph
  back leaves the scopes and nodes from before.
-/

namespace Wiring

theorem NodeId.eq_of_index
    {a b : NodeId}
    (h : a.index = b.index) :
    a = b := by
  cases a
  cases b
  exact congrArg NodeId.mk h

namespace Graph

/-- Every scope and node is still there and the same. -/
structure Grows (g g' : Graph) : Prop where
  scopes {i : Nat} {s : Scope} : g.scopes[i]? = some s → g'.scopes[i]? = some s
  nodes {i : Nat} {n : Node} : g.nodes[i]? = some n → g'.nodes[i]? = some n
  roots : g'.roots = g.roots

/-! ## Single changes -/

section Changes

variable {g g' g'' : Graph}

theorem Grows.refl (g : Graph) : g.Grows g :=
  ⟨id, id, rfl⟩

theorem Grows.trans
    (h : g.Grows g')
    (h' : g'.Grows g'') :
    g.Grows g'' :=
  ⟨fun hs => h'.scopes (h.scopes hs), fun hn => h'.nodes (h.nodes hn),
    h'.roots.trans h.roots⟩

theorem Grows.size_nodes (h : g.Grows g') : g.nodes.size ≤ g'.nodes.size := by
  by_contra hlt
  have hn : g.nodes[g'.nodes.size]? = some g.nodes[g'.nodes.size] := by
    simp
  have hn' := h.nodes hn
  simp at hn'

theorem Grows.size_scopes (h : g.Grows g') : g.scopes.size ≤ g'.scopes.size := by
  by_contra hlt
  have hs : g.scopes[g'.scopes.size]? = some g.scopes[g'.scopes.size] := by
    simp
  have hs' := h.scopes hs
  simp at hs'

theorem Grows.node?
    (h : g.Grows g')
    {id : NodeId}
    {n : Node}
    (hn : g.node? id = some n) :
    g'.node? id = some n :=
  h.nodes hn

theorem Grows.scope?
    (h : g.Grows g')
    {id : ScopeId}
    {s : Scope}
    (hs : g.scope? id = some s) :
    g'.scope? id = some s :=
  h.scopes hs

theorem node?_congr
    (hnodes : g'.nodes = g.nodes)
    (id : NodeId) :
    g'.node? id = g.node? id := by
  unfold Graph.node?
  rw [hnodes]

theorem lt_size_of_node?
    {id : NodeId}
    {n : Node}
    (hn : g.node? id = some n) :
    id.index < g.nodes.size :=
  (Array.getElem?_eq_some_iff.mp hn).1

theorem lt_size_of_scope?
    {id : ScopeId}
    {s : Scope}
    (hs : g.scope? id = some s) :
    id.index < g.scopes.size :=
  (Array.getElem?_eq_some_iff.mp hs).1

/-- A node from before is the one that was there. -/
theorem Grows.node?_eq
    (h : g.Grows g')
    {id : NodeId}
    (hid : id.index < g.nodes.size) :
    g'.node? id = g.node? id := by
  have hn : g.node? id = some g.nodes[id.index] := by
    simp [Graph.node?, hid]
  rw [hn]
  exact h.node? hn

theorem Grows.append (h : g.Grows g') (n : Node) : g.Grows (g'.append n) := by
  refine ⟨h.scopes, fun hn => ?_, h.roots⟩
  have hn' := h.nodes hn
  have hlt := (Array.getElem?_eq_some_iff.mp hn').1
  simp [Graph.append, Array.getElem?_push, Nat.ne_of_lt hlt, hn']

theorem Grows.remember
    (h : g.Grows g')
    (scope : ScopeId)
    (t : Ty)
    (id : NodeId) :
    g.Grows (g'.remember scope t id) :=
  ⟨h.scopes, h.nodes, h.roots⟩

theorem Grows.withMemo (h : g.Grows g') (m : Memo) : g.Grows (g'.withMemo m) :=
  ⟨h.scopes, h.nodes, h.roots⟩

/-- A new node is appended, and answers are remembered. -/
theorem exists_begin_eq
    (g : Graph)
    (n : Node)
    (key : Option Ty)
    (scope : ScopeId) :
    ∃ answers, g.begin n key scope = { g.append n with answers := answers } := by
  unfold Graph.begin
  cases key with
  | none => exact ⟨_, rfl⟩
  | some t =>
      dsimp only
      split <;> exact ⟨_, rfl⟩

theorem Grows.begin
    (h : g.Grows g')
    (n : Node)
    (key : Option Ty)
    (scope : ScopeId) :
    g.Grows (g'.begin n key scope) := by
  obtain ⟨answers, heq⟩ := exists_begin_eq g' n key scope
  have happend := h.append n
  rw [heq]
  exact ⟨happend.scopes, happend.nodes, happend.roots⟩

/-- Changing a node that was not there before keeps the ones that were. -/
theorem Grows.change
    (h : g.Grows g')
    {id : NodeId}
    (hid : g.nodes.size ≤ id.index)
    (f : Node → Node) :
    g.Grows (g'.change id f) := by
  refine ⟨h.scopes, fun {i n} hn => ?_, h.roots⟩
  have hlt := (Array.getElem?_eq_some_iff.mp hn).1
  have hne : id.index ≠ i := by omega
  simp [Graph.change, Array.getElem?_modify, hne, h.nodes hn]

theorem Grows.narrowAt
    (h : g.Grows g')
    {B : Build}
    {id : NodeId}
    (hid : g.nodes.size ≤ id.index)
    (declared : Declaration)
    (assisted : Bool) :
    g.Grows (g'.narrowAt B id declared assisted) := by
  rcases narrowAt_cases B g' id declared assisted with heq | ⟨-, types, heq⟩
  · rw [heq]
    exact h
  · rw [heq]
    exact h.change hid _

end Changes

/-! ## New scopes -/

/-- What is known of a scope that is built from contributions. -/
theorem create_eq_ok
    {options : Options}
    {id : ScopeId}
    {parent : Option (ScopeId × Nat)}
    {spec : ScopeSpec}
    {found : Contributions}
    {s : Scope}
    (h : Scope.create options id parent spec found = .ok s) :
    s.id = id ∧ s.parent = parent.map Prod.fst
      ∧ s.depth = (parent.map (fun p => p.2 + 1)).getD 0 ∧ s.toScopeSpec = spec
      ∧ s.inheritedBindings = [] ∧ s.inheritedInputs = [] := by
  unfold Scope.create at h
  split at h
  · cases h
  · cases h
    exact ⟨rfl, rfl, rfl, rfl, rfl, rfl⟩

/-- After a scope is appended, a scope is one from before or the new one. -/
theorem scopes_push_eq_some
    {g : Graph}
    {s s' : Scope}
    {i : Nat}
    (h : (g.scopes.push s)[i]? = some s') :
    g.scopes[i]? = some s' ∨ (i = g.scopes.size ∧ s' = s) := by
  rw [Array.getElem?_push] at h
  split at h
  · rename_i hi
    cases h
    exact .inr ⟨hi, rfl⟩
  · exact .inl h

/-- A new scope takes the next position.  It is as it was specified, one deeper than its
parent, and inherits from it, if there is one. -/
theorem pushScope_eq_ok
    {B : Build}
    {g g' : Graph}
    {parent : Option ScopeId}
    {spec : ScopeSpec}
    {found : Contributions}
    {inner : ScopeId}
    (h : g.pushScope B parent spec found = .ok (inner, g')) :
    ∃ s₀ s : Scope,
      g' = { g with scopes := g.scopes.push s }
        ∧ inner = ⟨g.scopes.size⟩
        ∧ s.id = inner ∧ s.parent = parent ∧ s.toScopeSpec = spec
        ∧ s₀.inheritedBindings = [] ∧ s₀.inheritedInputs = []
        ∧ ((parent.bind g.scope? = none ∧ s = s₀)
          ∨ ∃ p, parent.bind g.scope? = some p ∧ s = s₀.inheritFrom p
            ∧ s.depth = p.depth + 1) := by
  unfold pushScope at h
  dsimp only at h
  split at h
  · cases h
  · rename_i s₀ hs₀
    obtain ⟨hid, hparent, hdepth, hspec, hbindings, hinputs⟩ := create_eq_ok hs₀
    have hp : s₀.parent = parent := by
      rw [hparent]
      cases parent <;> rfl
    simp only [Except.ok.injEq, Prod.mk.injEq] at h
    obtain ⟨rfl, rfl⟩ := h
    cases hscope : parent.bind g.scope? with
    | none => exact ⟨s₀, s₀, rfl, rfl, hid, hp, hspec, hbindings, hinputs, .inl ⟨rfl, rfl⟩⟩
    | some p =>
        obtain ⟨pid, rfl, hpid⟩ := Option.bind_eq_some_iff.mp hscope
        have hdepth' : s₀.depth = p.depth + 1 := by
          rw [hdepth]
          simp [hpid]
        exact ⟨s₀, s₀.inheritFrom p, rfl, rfl, hid, hp, hspec, hbindings, hinputs,
          .inr ⟨p, rfl, rfl, hdepth'⟩⟩

theorem Grows.pushScope
    {B : Build}
    {g g' g'' : Graph}
    (h : g.Grows g')
    {parent : Option ScopeId}
    {spec : ScopeSpec}
    {found : Contributions}
    {inner : ScopeId}
    (hp : g'.pushScope B parent spec found = .ok (inner, g'')) :
    g.Grows g'' := by
  obtain ⟨s₀, s, rfl, -⟩ := pushScope_eq_ok hp
  refine ⟨fun {i s'} hs => ?_, h.nodes, h.roots⟩
  have hs' := h.scopes hs
  have hlt := (Array.getElem?_eq_some_iff.mp hs').1
  simp [Array.getElem?_push, Nat.ne_of_lt hlt, hs']

theorem Grows.addScope
    {B : Build}
    {g g' g'' : Graph}
    (h : g.Grows g')
    {parent : Option ScopeId}
    {spec : ScopeSpec}
    {declarations : List Declaration}
    {inner : ScopeId}
    (hp : g'.addScope B parent spec declarations = .ok (inner, g'')) :
    g.Grows g'' := by
  unfold Graph.addScope at hp
  split at hp
  · cases hp
  · exact h.pushScope hp

end Graph

/-! ## Parts of a search -/

theorem Offers.withMemo
    {B : Build}
    {s : Scope}
    {t : Ty}
    {candidates : List Candidate}
    {g g' : Graph}
    (h : Offers B s t g candidates g') :
    ∃ m, g.Merges B m ∧ g' = g.withMemo m := by
  cases h with
  | explicit => exact ⟨g.memo, .none, rfl⟩
  | internal => exact ⟨g.memo, .none, rfl⟩
  | external => exact ⟨g.memo, .none, rfl⟩
  | framework _ _ _ hrun =>
      obtain ⟨m, hmerges, hm⟩ := (Resolve.frameworkCandidates_onlyMemo B s _ t _).ok hrun
      exact ⟨m, hmerges, congrArg Search.graph hm⟩

theorem Absent.withMemo
    {B : Build}
    {t : Ty}
    {scope : Option ScopeId}
    {g g' : Graph}
    (h : Absent B t scope g g') :
    ∃ m, g.Merges B m ∧ g' = g.withMemo m := by
  induction h with
  | @top g => exact ⟨g.memo, .none, rfl⟩
  | @unknown _ g _ => exact ⟨g.memo, .none, rfl⟩
  | step _ _ hoffers _ ih =>
      obtain ⟨m, hm, rfl⟩ := hoffers.withMemo
      obtain ⟨m', hm', rfl⟩ := ih
      exact ⟨m', hm.trans hm', rfl⟩

theorem Blueprint.grows
    {B : Build}
    {scope evaluated : ScopeId}
    {r : Request}
    {c : Candidate}
    {n : Node}
    {demands : List Demand}
    {g g' : Graph}
    (h : Blueprint B scope r g c n evaluated demands g') :
    g.Grows g' := by
  cases h with
  | input | object | self | funAlias => exact .refl g
  | set | map => exact (Graph.Grows.refl g).withMemo _
  | provider hp => exact (Graph.Grows.refl g).pushScope hp
  | childComponent _ hp => exact (Graph.Grows.refl g).addScope hp

/-- The node that is built takes the next position. -/
theorem Derives.node_eq
    {B : Build}
    {stack : List NodeId}
    {n : Node}
    {key : Option Ty}
    {scope evaluated : ScopeId}
    {demands : List Demand}
    {id : NodeId}
    {g g' : Graph}
    (h : Derives B stack g (.node n key scope evaluated demands id) g') :
    id = g.nextId := by
  cases h
  rfl

/-- After a finished part of a search, every scope and node from before is still there
and the same. -/
theorem Derives.grows
    {B : Build}
    {stack : List NodeId}
    {J : Judgement}
    {g g' : Graph}
    (h : Derives B stack g J g') :
    g.Grows g' := by
  induction h with
  | found _ ih => exact ih
  | null habsent _ _ ih =>
      obtain ⟨m, -, rfl⟩ := habsent.withMemo
      exact ((Graph.Grows.refl _).withMemo m).trans ih
  | missing habsent _ _ _ ih =>
      obtain ⟨m, -, rfl⟩ := habsent.withMemo
      exact ((Graph.Grows.refl _).withMemo m).trans ih
  | recalled => exact .refl _
  | chosen _ _ _ hoffers _ _ ih =>
      obtain ⟨m, -, rfl⟩ := hoffers.withMemo
      exact ((Graph.Grows.refl _).withMemo m).trans ih
  | inherited _ _ hoffers _ _ ih =>
      obtain ⟨m, -, rfl⟩ := hoffers.withMemo
      exact (((Graph.Grows.refl _).withMemo m).trans ih).remember _ _ _
  | declaration _ _ ih => exact ih
  | keptInput => exact (Graph.Grows.refl _).remember _ _ _
  | aliasAgain => exact .refl _
  | built _ hblueprint _ ih => exact hblueprint.grows.trans ih
  | again => exact .refl _
  | relocated => exact (Graph.Grows.refl _).remember _ _ _
  | fresh _ _ _ hnode _ _ _ ihnode ih =>
      -- the node is narrowed and intercepted by the part that appended it
      have hid := hnode.node_eq
      subst hid
      refine Graph.Grows.change (.trans (.withMemo ?_ _) ih) (Nat.le_refl _) _
      exact ihnode.narrowAt (Nat.le_refl _) _ _
  | node _ _ ih =>
      exact (((Graph.Grows.refl _).begin _ _ _).trans ih).change (Nat.le_refl _) _
  | noDemands => exact .refl _
  | requestDemand _ _ ih ihs => exact ih.trans ihs
  | entryDemand _ _ ih ihs => exact ih.trans ihs
  | noInterceptors => exact .refl _
  | interceptor _ _ ih ihs => exact ih.trans ihs

/-- A search that stops at an error has changed no scope and no node from before. -/
theorem Fails.grows
    {B : Build}
    {stack : List NodeId}
    {g g' : Graph}
    (h : Fails B stack g g') :
    g.Grows g' := by
  induction h with
  | here => exact .refl _
  | merged _ _ ih => exact ((Graph.Grows.refl _).withMemo _).trans ih
  | entered _ hp _ ih => exact ((Graph.Grows.refl _).pushScope hp).trans ih
  | after hd _ ih => exact hd.grows.trans ih
  | inside _ _ ih => exact ((Graph.Grows.refl _).begin _ _ _).trans ih
  | attaching hd _ _ ih =>
      have hid := hd.node_eq
      subst hid
      refine .trans (.withMemo ?_ _) ih
      exact hd.grows.narrowAt (Nat.le_refl _) _ _

/-! ## The new node -/

namespace Graph

theorem change_node?
    {g : Graph}
    {id : NodeId}
    {n : Node}
    (hn : g.node? id = some n)
    (f : Node → Node) :
    (g.change id f).node? id = some (f n) := by
  unfold node? at hn
  simp [node?, change, Array.getElem?_modify, hn]

theorem change_node?_of_ne
    {g : Graph}
    {id id' : NodeId}
    (hne : id ≠ id')
    (f : Node → Node) :
    (g.change id f).node? id' = g.node? id' := by
  have hindex : id.index ≠ id'.index := fun h => hne (NodeId.eq_of_index h)
  simp [node?, change, Array.getElem?_modify, hindex]

theorem change_node?_self_eq_some
    {g : Graph}
    {id : NodeId}
    {f : Node → Node}
    {n' : Node}
    (h : (g.change id f).node? id = some n') :
    ∃ n, g.node? id = some n ∧ n' = f n := by
  cases hn : g.node? id with
  | none =>
      unfold node? at h hn
      simp [change, Array.getElem?_modify, hn] at h
  | some n =>
      rw [change_node? hn f] at h
      exact ⟨n, rfl, (Option.some.inj h).symm⟩

/-- After a change a node is an old one or the changed one. -/
theorem change_node?_eq_some
    {g : Graph}
    {id id' : NodeId}
    {f : Node → Node}
    {n' : Node}
    (h : (g.change id f).node? id' = some n') :
    g.node? id' = some n' ∨ ∃ n, g.node? id = some n ∧ n' = f n := by
  by_cases heq : id = id'
  · subst heq
    exact .inr (change_node?_self_eq_some h)
  · exact .inl ((change_node?_of_ne heq f).symm.trans h)

theorem begin_node?_self
    (g : Graph)
    (n : Node)
    (key : Option Ty)
    (scope : ScopeId) :
    (g.begin n key scope).node? g.nextId = some { n with id := g.nextId } := by
  obtain ⟨answers, heq⟩ := exists_begin_eq g n key scope
  rw [heq]
  simp [Graph.node?, Graph.append, Graph.nextId]

/-- Narrowing a node changes nothing of it but its type. -/
theorem narrowAt_node?_self
    (B : Build)
    (g : Graph)
    (id : NodeId)
    (declared : Declaration)
    (assisted : Bool)
    {n : Node}
    (hn : g.node? id = some n) :
    ∃ t, (g.narrowAt B id declared assisted).node? id = some { n with type := t } := by
  rcases narrowAt_cases B g id declared assisted with heq | ⟨-, types, heq⟩
  · rw [heq]
    exact ⟨n.type, hn⟩
  · rw [heq]
    exact ⟨_, change_node? hn _⟩

end Graph

/-- The node that is built is the given one, with its position and the answers to its
dependencies. -/
theorem Derives.node_built
    {B : Build}
    {stack : List NodeId}
    {n : Node}
    {key : Option Ty}
    {scope evaluated : ScopeId}
    {demands : List Demand}
    {id : NodeId}
    {g g' : Graph}
    (h : Derives B stack g (.node n key scope evaluated demands id) g') :
    ∃ ids, g'.node? id = some { n with id := id, resolved := ids } := by
  cases h with
  | node _ hd =>
      rename_i ids g₁ _
      exact ⟨ids, Graph.change_node? (hd.grows.node? (g.begin_node?_self n key scope)) _⟩

/-- After it was built and narrowed, the node is still the given one, but for its type. -/
theorem Derives.narrowed_node?
    {B : Build}
    {stack : List NodeId}
    {n : Node}
    {key : Option Ty}
    {scope evaluated : ScopeId}
    {demands : List Demand}
    {id : NodeId}
    {g g' : Graph}
    (h : Derives B stack g (.node n key scope evaluated demands id) g')
    (declared : Declaration)
    (assisted : Bool) :
    ∃ ids t, (g'.narrowAt B id declared assisted).node? id
      = some { n with id := id, resolved := ids, type := t } := by
  obtain ⟨ids, hn⟩ := h.node_built
  obtain ⟨t, ht⟩ := g'.narrowAt_node?_self B id declared assisted hn
  exact ⟨ids, t, ht⟩

/-! ## The scope tree -/

namespace Graph

@[simp] theorem begin_scopes
    (g : Graph)
    (n : Node)
    (key : Option Ty)
    (scope : ScopeId) :
    (g.begin n key scope).scopes = g.scopes := by
  obtain ⟨answers, heq⟩ := exists_begin_eq g n key scope
  rw [heq]
  rfl

@[simp] theorem begin_memo
    (g : Graph)
    (n : Node)
    (key : Option Ty)
    (scope : ScopeId) :
    (g.begin n key scope).memo = g.memo := by
  obtain ⟨answers, heq⟩ := exists_begin_eq g n key scope
  rw [heq]
  rfl

@[simp] theorem narrowAt_scopes
    (B : Build)
    (g : Graph)
    (id : NodeId)
    (declared : Declaration)
    (assisted : Bool) :
    (g.narrowAt B id declared assisted).scopes = g.scopes := by
  rcases narrowAt_cases B g id declared assisted with heq | ⟨-, types, heq⟩
  · rw [heq]
  · rw [heq]
    rfl

@[simp] theorem narrowAt_memo
    (B : Build)
    (g : Graph)
    (id : NodeId)
    (declared : Declaration)
    (assisted : Bool) :
    (g.narrowAt B id declared assisted).memo = g.memo := by
  rcases narrowAt_cases B g id declared assisted with heq | ⟨-, types, heq⟩
  · rw [heq]
  · rw [heq]
    rfl

theorem addScope_eq_ok
    {B : Build}
    {g g' : Graph}
    {parent : Option ScopeId}
    {spec : ScopeSpec}
    {declarations : List Declaration}
    {inner : ScopeId}
    (h : g.addScope B parent spec declarations = .ok (inner, g')) :
    ∃ found, expand B.catalog.module? declarations = .ok found
      ∧ g.pushScope B parent spec found = .ok (inner, g') := by
  unfold Graph.addScope at h
  split at h
  · cases h
  · rename_i found hfound
    exact ⟨found, hfound, h⟩

end Graph

/-- Whether the scope that chose a candidate is there. -/
def Judgement.Located (g : Graph) : Judgement → Prop
  | candidate s _ _ _ => g.scope? s.id = some s
  | _ => True

/-- What a blueprint changes of a graph: its memo, or one more scope. -/
theorem Blueprint.surroundings
    {B : Build}
    {P : Graph → Prop}
    (hmerges : ∀ {g : Graph} {m : Memo}, P g → g.Merges B m → P (g.withMemo m))
    {scope evaluated : ScopeId}
    {r : Request}
    {c : Candidate}
    {n : Node}
    {demands : List Demand}
    {g g' : Graph}
    (hpush : ∀ {g' : Graph} {spec : ScopeSpec} {found : Contributions} {inner : ScopeId},
      g.pushScope B (some scope) spec found = .ok (inner, g') → P g')
    (h : Blueprint B scope r g c n evaluated demands g')
    (hg : P g) :
    P g' := by
  cases h with
  | input | object | self | funAlias => exact hg
  | @set type _ merged m hm =>
      have hmerged : g.Merges B _ := .collection .set type scope .none
      rw [hm] at hmerged
      exact hmerges hg hmerged
  | @map type merged m hm =>
      have hmerged : g.Merges B _ := .collection .map type scope .none
      rw [hm] at hmerged
      exact hmerges hg hmerged
  | provider hp => exact hpush hp
  | childComponent _ hp =>
      obtain ⟨found, -, hp⟩ := Graph.addScope_eq_ok hp
      exact hpush hp

/-- What depends on scopes and memo only, and is kept by merging and by one more scope,
is kept by a finished part of a search.  The new scope is below one that is there if it
is known which scope chose a candidate. -/
theorem Derives.surroundings
    {B : Build}
    {P : Graph → Prop}
    {known : Prop}
    (hsame : ∀ {g g' : Graph}, g'.scopes = g.scopes → g'.memo = g.memo → P g → P g')
    (hmerges : ∀ {g : Graph} {m : Memo}, P g → g.Merges B m → P (g.withMemo m))
    (hpush : ∀ {g g' : Graph} {parent : Option ScopeId} {spec : ScopeSpec}
      {found : Contributions} {inner : ScopeId}, P g →
      (known → ∀ p, parent = some p → p.index < g.scopes.size) →
      g.pushScope B parent spec found = .ok (inner, g') → P g')
    {stack : List NodeId}
    {J : Judgement}
    {g g' : Graph}
    (h : Derives B stack g J g')
    (hJ : known → J.Located g)
    (hg : P g) :
    P g' := by
  have htrue : known → True := fun _ => trivial
  have hremember : ∀ {g : Graph} (scope : ScopeId) (t : Ty) (id : NodeId),
      P g → P (g.remember scope t id) := fun _ _ _ hg => hsame (by rfl) (by rfl) hg
  have hchange : ∀ {g : Graph} (id : NodeId) (f : Node → Node),
      P g → P (g.change id f) := fun _ _ hg => hsame (by rfl) (by rfl) hg
  induction h with
  | found _ ih => exact ih htrue hg
  | null habsent _ _ ih =>
      obtain ⟨m, hm, rfl⟩ := habsent.withMemo
      exact ih htrue (hmerges hg hm)
  | missing habsent _ _ _ ih =>
      obtain ⟨m, hm, rfl⟩ := habsent.withMemo
      exact ih htrue (hmerges hg hm)
  | recalled => exact hg
  | chosen _ hscope hsid hoffers _ _ ih =>
      obtain ⟨m, hm, rfl⟩ := hoffers.withMemo
      subst hsid
      exact ih (fun _ => hscope) (hmerges hg hm)
  | inherited _ _ hoffers _ _ ih =>
      obtain ⟨m, hm, rfl⟩ := hoffers.withMemo
      exact hremember _ _ _ (ih htrue (hmerges hg hm))
  | declaration _ _ ih => exact ih htrue hg
  | keptInput => exact hremember _ _ _ hg
  | aliasAgain => exact hg
  | @built stack s evaluated r c n demands id g g₁ g' _ hblueprint _ ih =>
      have hparent : known → ∀ p, some s.id = some p → p.index < g.scopes.size := by
        rintro hknown p ⟨⟩
        have hscope : g.scope? s.id = some s := hJ hknown
        exact Graph.lt_size_of_scope? hscope
      exact ih htrue (hblueprint.surroundings hmerges (fun hp => hpush hg hparent hp) hg)
  | again => exact hg
  | relocated => exact hremember _ _ _ hg
  | @fresh stack scope owner declaredIn key e declared assisted n entries attached m id g
      g₁ g' _ _ _ _ _ hvisible _ ihnode ih =>
      have hnarrowed : P (g₁.narrowAt B id declared assisted) :=
        hsame (Graph.narrowAt_scopes _ _ _ _ _) (Graph.narrowAt_memo _ _ _ _ _)
          (ihnode htrue hg)
      have hmerged : (g₁.narrowAt B id declared assisted).Merges B _ :=
        .interceptors n.type owner .none
      rw [hvisible] at hmerged
      exact hchange _ _ (ih htrue (hmerges hnarrowed hmerged))
  | node _ _ ih =>
      exact hchange _ _
        (ih htrue (hsame (Graph.begin_scopes _ _ _ _) (Graph.begin_memo _ _ _ _) hg))
  | noDemands => exact hg
  | requestDemand _ _ ih ihs => exact ihs htrue (ih htrue hg)
  | entryDemand _ _ ih ihs => exact ihs htrue (ih htrue hg)
  | noInterceptors => exact hg
  | interceptor _ _ ih ihs => exact ihs htrue (ih htrue hg)

/-- The same of a search that stops at an error. -/
theorem Fails.surroundings
    {B : Build}
    {P : Graph → Prop}
    (hsame : ∀ {g g' : Graph}, g'.scopes = g.scopes → g'.memo = g.memo → P g → P g')
    (hmerges : ∀ {g : Graph} {m : Memo}, P g → g.Merges B m → P (g.withMemo m))
    (hpush : ∀ {g g' : Graph} {parent : Option ScopeId} {spec : ScopeSpec}
      {found : Contributions} {inner : ScopeId}, P g →
      (∀ p, parent = some p → p.index < g.scopes.size) →
      g.pushScope B parent spec found = .ok (inner, g') → P g')
    {stack : List NodeId}
    {g g' : Graph}
    (h : Fails B stack g g')
    (hg : P g) :
    P g' := by
  have hderives : ∀ {stack : List NodeId} {J : Judgement} {g g' : Graph},
      Derives B stack g J g' → J.Located g → P g → P g' := fun hd hJ =>
    hd.surroundings hsame hmerges (fun hg hparent hp => hpush hg (hparent trivial) hp)
      (fun _ : True => hJ)
  induction h with
  | here => exact hg
  | merged hm _ ih => exact ih (hmerges hg hm)
  | entered hscope hp _ ih =>
      refine ih (hpush hg ?_ hp)
      rintro p ⟨⟩
      exact Graph.lt_size_of_scope? hscope
  | after hd _ ih => exact ih (hderives hd trivial hg)
  | inside _ _ ih =>
      exact ih (hsame (Graph.begin_scopes _ _ _ _) (Graph.begin_memo _ _ _ _) hg)
  | attaching hd hm _ ih =>
      exact ih (hmerges (hsame (Graph.narrowAt_scopes _ _ _ _ _)
        (Graph.narrowAt_memo _ _ _ _ _) (hderives hd trivial hg)) hm)

/-- What holds of the scope tree and of every tree with one more scope holds after a
finished part of a search. -/
theorem Derives.scopes
    {B : Build}
    {P : Array Scope → Prop}
    {known : Prop}
    (hpush : ∀ {g g' : Graph} {parent : Option ScopeId} {spec : ScopeSpec}
      {found : Contributions} {inner : ScopeId}, P g.scopes →
      (known → ∀ p, parent = some p → p.index < g.scopes.size) →
      g.pushScope B parent spec found = .ok (inner, g') → P g'.scopes)
    {stack : List NodeId}
    {J : Judgement}
    {g g' : Graph}
    (h : Derives B stack g J g')
    (hJ : known → J.Located g)
    (hg : P g.scopes) :
    P g'.scopes :=
  h.surroundings (P := fun g => P g.scopes)
    (fun hscopes _ hg => by rw [hscopes]; exact hg) (fun hg _ => hg)
    (fun hg hparent hp => hpush hg hparent hp) hJ hg

namespace Graph

/-- Every scope knows its position. -/
def Numbered (g : Graph) : Prop :=
  ∀ (i : Nat) (s : Scope), g.scopes[i]? = some s → s.id = ⟨i⟩

theorem Numbered.pushScope
    {B : Build}
    {g g' : Graph}
    (h : g.Numbered)
    {parent : Option ScopeId}
    {spec : ScopeSpec}
    {found : Contributions}
    {inner : ScopeId}
    (hp : g.pushScope B parent spec found = .ok (inner, g')) :
    g'.Numbered := by
  obtain ⟨s₀, s, rfl, rfl, hid, -⟩ := pushScope_eq_ok hp
  intro i s' hs'
  rcases scopes_push_eq_some hs' with hold | ⟨rfl, rfl⟩
  · exact h i s' hold
  · exact hid

/-- Only the scopes of a graph matter for their positions. -/
theorem Numbered.of_scopes_eq
    {g g' : Graph}
    (h : g.Numbered)
    (hscopes : g'.scopes = g.scopes) :
    g'.Numbered :=
  fun i s hs => h i s (by rw [← hscopes]; exact hs)

end Graph

theorem Blueprint.numbered
    {B : Build}
    {scope evaluated : ScopeId}
    {r : Request}
    {c : Candidate}
    {n : Node}
    {demands : List Demand}
    {g g' : Graph}
    (h : Blueprint B scope r g c n evaluated demands g')
    (hg : g.Numbered) :
    g'.Numbered :=
  h.surroundings (P := Graph.Numbered) (fun hg _ => hg) (fun hp => hg.pushScope hp) hg

/-- A part of a search numbers the scopes that it appends. -/
theorem Derives.numbered
    {B : Build}
    {stack : List NodeId}
    {J : Judgement}
    {g g' : Graph}
    (h : Derives B stack g J g')
    (hg : g.Numbered) :
    g'.Numbered :=
  h.scopes (P := fun scopes => ∀ (i : Nat) (s : Scope), scopes[i]? = some s → s.id = ⟨i⟩)
    (fun hg _ hp => Graph.Numbered.pushScope hg hp) (fun hfalse : False => hfalse.elim) hg

end Wiring
