import Wiring.Proofs.Ownership.Merge
import Wiring.Proofs.Reachable

/-!
# Graphs that batches reach

A batch of requests resolves one after the other, up to the first that fails, and then
merges star-projected nodes.  So whatever single requests keep and merging keeps as well
holds of every graph that calls and batches reach.

What is said of one node at a time, and does not depend on what its dependencies came to,
only has to be checked where nodes are appended.  There it may use whatever scopes keep of the
collections and interceptors that they were asked for.

**Results.**
* `Graph.Invariant.holds`: what all calls keep holds of every graph that they reach.
* `Derives.every`: what holds of every new node holds of all nodes after a part of a
  search.
* `Graph.Batched.every_keeping`: what holds of every new node as long as memos keep something
  holds of all nodes of every graph that calls reach, and their memos keep it.
* `Graph.Batched.labelled`: every node knows its position, and every invoked declaration
  its name.
-/

namespace Wiring
namespace Graph

/-- The graphs that calls reach from the empty one, batches of requests included. -/
inductive Batched (B : Build) : Graph → Prop
  | empty : Batched B .empty
  | scope {g g' : Graph} {parent : Option ScopeId} {spec : ScopeSpec}
      {declarations : List Declaration} {id : ScopeId} :
      Batched B g →
      g.addScope B parent spec declarations = .ok (id, g') →
      Batched B g'
  | component {g g' : Graph} {parent : Option ScopeId} {type : Ty} {id : ScopeId} :
      Batched B g →
      g.addComponent B parent type = .ok (id, g') →
      Batched B g'
  | resolve {g : Graph} (scope : ScopeId) (r : Request) :
      Batched B g →
      Batched B (g.resolve B scope r).2
  | all {g : Graph} (scope : ScopeId) (rs : List Request) :
      Batched B g →
      Batched B (g.resolveAll B scope rs).2
  | entryPoints {g : Graph} (scope : ScopeId) :
      Batched B g →
      Batched B (g.resolveEntryPoints B scope).2

theorem Batched.withScope
    {B : Build}
    {g : Graph}
    (h : Batched B g)
    (parent : Option ScopeId)
    (spec : ScopeSpec)
    (declarations : List Declaration) :
    Batched B (g.withScope B parent spec declarations) := by
  unfold Graph.withScope
  split
  · rename_i hadd
    exact h.scope hadd
  · exact h

/-! ## Batches -/

section Batches

variable {B : Build} {P : Graph → Prop}

/-- What every request keeps is kept by several. -/
theorem resolveEach_keeps
    {scope : ScopeId}
    (hresolve : ∀ {g : Graph} (r : Request), P g → P (g.resolve B scope r).2)
    (rs : List Request)
    {g : Graph}
    (hg : P g) :
    P (resolveEach B scope rs g).2 := by
  induction rs generalizing g with
  | nil => exact hg
  | cons r rs ih =>
      have hkept := hresolve r hg
      simp only [resolveEach]
      split
      · rename_i hrun
        rwa [hrun] at hkept
      · rename_i hrun
        rw [hrun] at hkept
        exact ih hkept

/-- What every request and merging keep is kept by a batch. -/
theorem resolveAll_keeps
    {scope : ScopeId}
    (hresolve : ∀ {g : Graph} (r : Request), P g → P (g.resolve B scope r).2)
    (hmerged : ∀ {g : Graph}, P g → P g.merged)
    (rs : List Request)
    {g : Graph}
    (hg : P g) :
    P (g.resolveAll B scope rs).2 := by
  have hkept := resolveEach_keeps hresolve rs hg
  unfold Graph.resolveAll
  split
  · rename_i hrun
    rwa [hrun] at hkept
  · rename_i hrun
    rw [hrun] at hkept
    dsimp only
    split
    · exact hmerged hkept
    · exact hkept

theorem resolveEntryPoints_keeps
    {scope : ScopeId}
    (hresolve : ∀ {g : Graph} (r : Request), P g → P (g.resolve B scope r).2)
    (hmerged : ∀ {g : Graph}, P g → P g.merged)
    {g : Graph}
    (hg : P g) :
    P (g.resolveEntryPoints B scope).2 := by
  unfold Graph.resolveEntryPoints
  split
  · exact hg
  · exact resolveAll_keeps (P := P) hresolve hmerged _ hg

end Batches

theorem Numbered.resolve
    {B : Build}
    {g : Graph}
    (hg : g.Numbered)
    (scope : ScopeId)
    (r : Request) :
    (g.resolve B scope r).2.Numbered := by
  cases hrun : g.resolve B scope r with
  | mk outcome g' =>
      cases outcome with
      | ok id =>
          obtain ⟨g₁, hd, rfl⟩ := resolve_ok hg hrun
          exact hd.numbered hg
      | error e =>
          obtain ⟨g₁, hf, rfl⟩ := resolve_error hg hrun
          intro i s hs
          change (g₁.rollback _ _).scopes[i]? = some s at hs
          rw [hf.grows.rollback_scopes] at hs
          exact hg i s hs

theorem Batched.numbered
    {B : Build}
    {g : Graph}
    (h : Batched B g) :
    g.Numbered := by
  induction h with
  | empty => exact fun i s hs => nomatch hs
  | scope _ hadd ih =>
      obtain ⟨found, -, hp⟩ := addScope_eq_ok hadd
      exact ih.pushScope hp
  | component _ hadd ih =>
      obtain ⟨spec, found, hp⟩ := addComponent_eq_ok hadd
      exact ih.pushScope hp
  | resolve scope r _ ih => exact ih.resolve scope r
  | all scope rs _ ih =>
      exact resolveAll_keeps (fun r hg => hg.resolve scope r) (fun hg => hg) rs ih
  | entryPoints scope _ ih =>
      exact resolveEntryPoints_keeps (fun r hg => hg.resolve scope r) (fun hg => hg) ih

/-! ## Invariants -/

/-- Whether a property holds of the empty graph and is kept by whatever calls do. -/
structure Invariant (B : Build) (P : Graph → Prop) : Prop where
  empty : P .empty
  pushed {g g' : Graph} {parent : Option ScopeId} {spec : ScopeSpec}
    {found : Contributions} {inner : ScopeId} :
    P g → g.Numbered → g.pushScope B parent spec found = .ok (inner, g') → P g'
  answered {g g₁ : Graph} {scope : ScopeId} {r : Request} {id : NodeId} :
    P g → g.Numbered → Derives B [] g (.request scope r id) g₁ →
    P { g₁ with roots := g₁.roots ++ [⟨scope, r, id⟩] }
  refused {g g₁ : Graph} :
    P g → g.Numbered → Fails B [] g g₁ → P (g₁.rollback g.nodes.size g.scopes.size)
  merged {g : Graph} : P g → P g.merged

theorem Invariant.resolve
    {B : Build}
    {P : Graph → Prop}
    (hP : Invariant B P)
    {g : Graph}
    (hg : P g)
    (hnumbered : g.Numbered)
    (scope : ScopeId)
    (r : Request) :
    P (g.resolve B scope r).2 := by
  cases hrun : g.resolve B scope r with
  | mk outcome g' =>
      cases outcome with
      | ok id =>
          obtain ⟨g₁, hd, rfl⟩ := resolve_ok hnumbered hrun
          exact hP.answered hg hnumbered hd
      | error e =>
          obtain ⟨g₁, hf, rfl⟩ := resolve_error hnumbered hrun
          exact hP.refused hg hnumbered hf

/-- What all calls keep holds of every graph that they reach. -/
theorem Invariant.holds
    {B : Build}
    {P : Graph → Prop}
    (hP : Invariant B P)
    {g : Graph}
    (h : Batched B g) :
    P g := by
  have hresolve : ∀ {g : Graph} (scope : ScopeId) (r : Request), P g ∧ g.Numbered →
      P (g.resolve B scope r).2 ∧ (g.resolve B scope r).2.Numbered :=
    fun scope r hg => ⟨hP.resolve hg.1 hg.2 scope r, hg.2.resolve scope r⟩
  have hmerged : ∀ {g : Graph}, P g ∧ g.Numbered → P g.merged ∧ g.merged.Numbered :=
    fun hg => ⟨hP.merged hg.1, hg.2⟩
  induction h with
  | empty => exact hP.empty
  | scope hg hadd ih =>
      obtain ⟨found, -, hp⟩ := addScope_eq_ok hadd
      exact hP.pushed ih hg.numbered hp
  | component hg hadd ih =>
      obtain ⟨spec, found, hp⟩ := addComponent_eq_ok hadd
      exact hP.pushed ih hg.numbered hp
  | resolve scope r hg ih => exact hP.resolve ih hg.numbered scope r
  | all scope rs hg ih =>
      have hkept := resolveAll_keeps (P := fun g => P g ∧ g.Numbered) (hresolve scope) hmerged
        rs ⟨ih, hg.numbered⟩
      exact hkept.1
  | entryPoints scope hg ih =>
      have hkept := resolveEntryPoints_keeps (P := fun g => P g ∧ g.Numbered)
        (hresolve scope) hmerged ⟨ih, hg.numbered⟩
      exact hkept.1

theorem Batched.bounded
    {B : Build}
    {g : Graph}
    (h : Batched B g) :
    g.Bounded := by
  refine Invariant.holds (B := B) (P := Graph.Bounded)
    { empty := fun a ha => nomatch ha
      pushed := fun hg _ hp => hg.pushScope hp
      answered := fun hg _ hd => (hd.bounded (fun _ hi => nomatch hi) hg).1
      refused := fun _ _ hf => hf.grows.rollback_bounded
      merged := fun hg a ha => ?_ } h
  have hsize := hg a ha
  rwa [← StarMerge.size_mergeStars] at hsize

end Graph

/-! ## What memos keep -/

/-- Whether a property of memos holds of the empty one, and is kept by whatever scopes are
asked and by what is given up. -/
structure Memo.Persists (B : Build) (M : Memo → Prop) : Prop where
  empty : M {}
  merged {m : Memo} (kind : Collection.Kind) (t : Ty) (path : List Scope) :
    M m → M (m.merged B.registry B.catalog B.options kind t path).2
  visible {m : Memo} (t : Ty) (path : List Scope) :
    M m → M (m.visible B.registry B.catalog t path).2
  restrict {m : Memo} (scopes : Nat) :
    M m → M (m.restrict scopes)

theorem Memo.persists_true (B : Build) : Memo.Persists B (fun _ => True) :=
  ⟨trivial, fun _ _ _ _ => trivial, fun _ _ _ => trivial, fun _ _ => trivial⟩

namespace Memo.Persists

variable {B : Build} {M : Memo → Prop} (hM : Memo.Persists B M)

include hM

theorem merges
    {g : Graph}
    (hg : M g.memo)
    {m : Memo}
    (hm : g.Merges B m) :
    M m := by
  induction hm with
  | none => exact hg
  | collection kind t scope _ ih => exact hM.merged kind t _ ih
  | interceptors t scope _ ih => exact hM.visible t _ ih

theorem blueprint
    {scope evaluated : ScopeId}
    {r : Request}
    {c : Candidate}
    {n : Node}
    {demands : List Demand}
    {g g' : Graph}
    (hg : M g.memo)
    (h : Blueprint B scope r g c n evaluated demands g') :
    M g'.memo :=
  h.surroundings (P := fun g => M g.memo) (fun hg hm => hM.merges hg hm)
    (fun hp => Graph.pushScope_memo hp ▸ hg) hg

theorem fails
    {stack : List NodeId}
    {g g' : Graph}
    (hg : M g.memo)
    (h : Fails B stack g g') :
    M g'.memo :=
  h.surroundings (P := fun g => M g.memo) (fun _ hmemo hg => hmemo ▸ hg)
    (fun hg hm => hM.merges hg hm) (fun hg _ hp => Graph.pushScope_memo hp ▸ hg) hg

end Memo.Persists

/-! ## New nodes -/

/-- A node as it is when it is appended to a graph that keeps something in its memo. -/
inductive Node.IsNew (B : Build) (M : Memo → Prop) : Node → Prop
  | null (type : Ty) (owner : ScopeId) : IsNew B M (.plain type owner .null)
  | missing (type : Ty) (owner : ScopeId) : IsNew B M (.plain type owner .missing)
  | candidate {scope evaluated : ScopeId} {r : Request} {c : Candidate} {n : Node}
      {demands : List Demand} {g g' : Graph} :
      Blueprint B scope r g c n evaluated demands g' →
      M g.memo →
      IsNew B M n
  | declaration (e : Entry) (declared : Declaration) (type : Ty) (assisted : Bool)
      (owner : ScopeId) :
      IsNew B M (.ofDeclaration e declared type assisted owner)

/-- Whether the node that a part of a search appends is new. -/
def Judgement.Appends (B : Build) (M : Memo → Prop) : Judgement → Prop
  | node n .. => n.IsNew B M
  | _ => True

namespace Graph

/-- Whether something holds of every node and its position. -/
def Every (g : Graph) (Q : NodeId → Node → Prop) : Prop :=
  ∀ ⦃id : NodeId⦄ ⦃n : Node⦄, g.node? id = some n → Q id n

namespace Every

variable {g g' : Graph} {Q : NodeId → Node → Prop}

theorem of_nodes_eq
    (h : g.Every Q)
    (hnodes : g'.nodes = g.nodes) :
    g'.Every Q := by
  intro id n hn
  rw [node?_congr hnodes] at hn
  exact h hn

theorem begin
    (h : g.Every Q)
    {n : Node}
    (hn : Q g.nextId { n with id := g.nextId })
    (key : Option Ty)
    (scope : ScopeId) :
    (g.begin n key scope).Every Q := by
  intro id n' hn'
  rcases begin_node?_eq_some hn' with hold | ⟨rfl, rfl⟩
  · exact h hold
  · exact hn

theorem change
    (h : g.Every Q)
    (id : NodeId)
    {f : Node → Node}
    (hf : ∀ n, Q id n → Q id (f n)) :
    (g.change id f).Every Q := by
  intro id' n' hn'
  by_cases heq : id = id'
  · subst heq
    obtain ⟨n, hn, rfl⟩ := change_node?_self_eq_some hn'
    exact hf n (h hn)
  · rw [change_node?_of_ne heq] at hn'
    exact h hn'

/-- A change of a node that is known. -/
theorem change_node
    (h : g.Every Q)
    {id : NodeId}
    {n : Node}
    (hn : g.node? id = some n)
    {f : Node → Node}
    (hf : Q id (f n)) :
    (g.change id f).Every Q := by
  intro id' n' hn'
  by_cases heq : id = id'
  · subst heq
    rw [change_node? hn f] at hn'
    cases hn'
    exact hf
  · rw [change_node?_of_ne heq] at hn'
    exact h hn'

theorem narrowAt
    (h : g.Every Q)
    (htype : ∀ {id : NodeId} {n : Node} (t : Ty), Q id n → Q id { n with type := t })
    (B : Build)
    (id : NodeId)
    (declared : Declaration)
    (assisted : Bool) :
    (g.narrowAt B id declared assisted).Every Q := by
  rcases narrowAt_cases B g id declared assisted with heq | ⟨-, types, heq⟩
  · rw [heq]
    exact h
  · rw [heq]
    exact h.change id (fun _ hn => htype _ hn)

end Every
end Graph

section Every

variable {B : Build} {Q : NodeId → Node → Prop} {M : Memo → Prop}
  (hM : Memo.Persists B M)
  (hnew : ∀ (id : NodeId) {n : Node}, n.IsNew B M → Q id { n with id := id })
  (htype : ∀ {id : NodeId} {n : Node} (t : Ty), Q id n → Q id { n with type := t })
  (hresolved : ∀ {id : NodeId} {n : Node} (ids : List NodeId), Q id n →
    Q id { n with resolved := ids })
  (hinterceptors : ∀ {id : NodeId} {n : Node} (attached : List Interceptor), Q id n →
    Q id { n with interceptors := attached })

include hM hnew htype hresolved hinterceptors

/-- What holds of every new node as long as memos keep something, whatever it is narrowed
to, refers to and is intercepted by, holds of all nodes after a part of a search. -/
theorem Derives.every_keeping
    {stack : List NodeId}
    {J : Judgement}
    {g g' : Graph}
    (h : Derives B stack g J g')
    (hJ : J.Appends B M)
    (hmemo : M g.memo)
    (hg : g.Every Q) :
    M g'.memo ∧ g'.Every Q := by
  induction h with
  | found _ ih => exact ih trivial hmemo hg
  | null habsent _ _ ih =>
      obtain ⟨m, hm, rfl⟩ := habsent.withMemo
      exact ih (.null _ _) (hM.merges hmemo hm) hg
  | missing habsent _ _ _ ih =>
      obtain ⟨m, hm, rfl⟩ := habsent.withMemo
      exact ih (.missing _ _) (hM.merges hmemo hm) hg
  | recalled => exact ⟨hmemo, hg⟩
  | chosen _ _ _ hoffers _ _ ih =>
      obtain ⟨m, hm, rfl⟩ := hoffers.withMemo
      exact ih trivial (hM.merges hmemo hm) hg
  | inherited _ _ hoffers _ _ ih =>
      obtain ⟨m, hm, rfl⟩ := hoffers.withMemo
      exact ih trivial (hM.merges hmemo hm) hg
  | declaration _ _ ih => exact ih trivial hmemo hg
  | keptInput => exact ⟨hmemo, hg⟩
  | aliasAgain => exact ⟨hmemo, hg⟩
  | built _ hblueprint _ ih =>
      exact ih (.candidate hblueprint hmemo) (hM.blueprint hmemo hblueprint)
        (hg.of_nodes_eq hblueprint.nodes_eq)
  | again => exact ⟨hmemo, hg⟩
  | relocated => exact ⟨hmemo, hg⟩
  | @fresh stack scope owner declaredIn key e declared assisted n entries attached m id g
      g₁ g' _ _ _ _ _ hvisible _ ihnode ih =>
      obtain ⟨hmemo₁, hg₁⟩ := ihnode (.declaration _ _ _ _ _) hmemo hg
      have hnarrowed := hg₁.narrowAt htype B id declared assisted
      rw [← Graph.narrowAt_memo B g₁ id declared assisted] at hmemo₁
      have hmemo₂ := hM.visible n.type ((g₁.narrowAt B id declared assisted).path owner) hmemo₁
      rw [hvisible] at hmemo₂
      obtain ⟨hmemo', hg'⟩ := ih trivial hmemo₂ hnarrowed
      exact ⟨hmemo', hg'.change id (fun _ hn => hinterceptors attached hn)⟩
  | @node stack n key scope evaluated demands ids g g' _ _ ih =>
      rw [← Graph.begin_memo g n key scope] at hmemo
      obtain ⟨hmemo', hg'⟩ := ih trivial hmemo (hg.begin (hnew g.nextId hJ) key scope)
      exact ⟨hmemo', hg'.change g.nextId (fun _ hn => hresolved ids hn)⟩
  | noDemands => exact ⟨hmemo, hg⟩
  | requestDemand _ _ ih ihs =>
      obtain ⟨hmemo₁, hg₁⟩ := ih trivial hmemo hg
      exact ihs trivial hmemo₁ hg₁
  | entryDemand _ _ ih ihs =>
      obtain ⟨hmemo₁, hg₁⟩ := ih trivial hmemo hg
      exact ihs trivial hmemo₁ hg₁
  | noInterceptors => exact ⟨hmemo, hg⟩
  | interceptor _ _ ih ihs =>
      obtain ⟨hmemo₁, hg₁⟩ := ih trivial hmemo hg
      exact ihs trivial hmemo₁ hg₁

/-- The same of all nodes of every graph that calls reach, if it holds whatever becomes of a
node when nodes are merged. -/
theorem Graph.Batched.every_keeping
    (hmerged : ∀ {id : NodeId} {nodes : List Node} {n n' : Node},
      StarMerge.Outcome nodes n n' → Q id n → Q id n')
    {g : Graph}
    (h : Batched B g) :
    M g.memo ∧ g.Every Q := by
  refine Invariant.holds (B := B) (P := fun g => M g.memo ∧ g.Every Q)
    { empty := ⟨hM.empty, fun id n hn => nomatch hn⟩
      pushed := fun hg _ hp =>
        ⟨pushScope_memo hp ▸ hg.1, hg.2.of_nodes_eq (pushScope_answers hp).2⟩
      answered := fun hg _ hd =>
        hd.every_keeping hM hnew htype hresolved hinterceptors trivial hg.1 hg.2
      refused := fun hg _ hf =>
        ⟨hM.restrict _ (hM.fails hg.1 hf), hg.2.of_nodes_eq hf.grows.rollback_nodes⟩
      merged := fun hg => ⟨hg.1, fun id n' hn' => ?_⟩ } h
  obtain ⟨n, hn, houtcome⟩ := merged_node?_eq_some hn'
  exact hmerged houtcome (hg.2 hn)

end Every

/-- What holds of every new node, whatever it is narrowed to, refers to and is
intercepted by, holds of all nodes after a part of a search. -/
theorem Derives.every
    {B : Build}
    {Q : NodeId → Node → Prop}
    (hnew : ∀ (id : NodeId) {n : Node}, n.IsNew B (fun _ => True) → Q id { n with id := id })
    (htype : ∀ {id : NodeId} {n : Node} (t : Ty), Q id n → Q id { n with type := t })
    (hresolved : ∀ {id : NodeId} {n : Node} (ids : List NodeId), Q id n →
      Q id { n with resolved := ids })
    (hinterceptors : ∀ {id : NodeId} {n : Node} (attached : List Interceptor), Q id n →
      Q id { n with interceptors := attached })
    {stack : List NodeId}
    {J : Judgement}
    {g g' : Graph}
    (h : Derives B stack g J g')
    (hJ : J.Appends B (fun _ => True))
    (hg : g.Every Q) :
    g'.Every Q :=
  (h.every_keeping (Memo.persists_true B) hnew htype hresolved hinterceptors hJ trivial hg).2

namespace Graph

/-- What holds of every new node, whatever becomes of it in a search and when nodes are
merged, holds of all nodes of every graph that calls reach. -/
theorem Batched.every
    {B : Build}
    {Q : NodeId → Node → Prop}
    (hnew : ∀ (id : NodeId) {n : Node}, n.IsNew B (fun _ => True) → Q id { n with id := id })
    (htype : ∀ {id : NodeId} {n : Node} (t : Ty), Q id n → Q id { n with type := t })
    (hresolved : ∀ {id : NodeId} {n : Node} (ids : List NodeId), Q id n →
      Q id { n with resolved := ids })
    (hinterceptors : ∀ {id : NodeId} {n : Node} (attached : List Interceptor), Q id n →
      Q id { n with interceptors := attached })
    (hmerged : ∀ {id : NodeId} {nodes : List Node} {n n' : Node},
      StarMerge.Outcome nodes n n' → Q id n → Q id n')
    {g : Graph}
    (h : Batched B g) :
    g.Every Q :=
  (Batched.every_keeping (Memo.persists_true B) hnew htype hresolved hinterceptors hmerged
    h).2

/-- Whether every node knows its position, and every invoked declaration its name. -/
structure Labelled (g : Graph) : Prop where
  positions {id : NodeId} {n : Node} : g.node? id = some n → n.id = id
  origins {id : NodeId} {n : Node} :
    g.node? id = some n → n.kind.isInvocation = true → n.origin.isSome = true

theorem Batched.labelled
    {B : Build}
    {g : Graph}
    (h : Batched B g) :
    g.Labelled := by
  have hpositions := h.every (Q := fun id n => n.id = id) (fun _ _ _ => rfl)
    (fun _ hn => hn) (fun _ hn => hn) (fun _ hn => hn)
    (fun houtcome hn => houtcome.id.trans hn)
  have horigins := h.every
    (Q := fun _ n => n.kind.isInvocation = true → n.origin.isSome = true) ?_
    (fun _ hn => hn) (fun _ hn => hn) (fun _ hn => hn) ?_
  · exact ⟨fun hn => hpositions hn, fun hn => horigins hn⟩
  · intro id n hnew
    cases hnew with
    | null | missing => exact fun hkind => nomatch hkind
    | candidate hblueprint =>
        cases hblueprint with
        | input | object | self | funAlias | set | map | provider | childComponent =>
            exact fun hkind => nomatch hkind
    | declaration => exact fun _ => rfl
  · intro id nodes n n' houtcome hn
    cases houtcome with
    | kept => exact hn
    | canonical => exact hn
    | delegate => exact fun hkind => nomatch hkind

/-- The plan has every node at the position that the node knows. -/
theorem Batched.plan_node?
    {B : Build}
    {g : Graph}
    (h : Batched B g)
    {id : NodeId}
    {n : Node}
    (hn : g.node? id = some n) :
    g.plan.node? n.id = some n := by
  rw [h.labelled.positions hn]
  exact hn

end Graph
end Wiring
