import Wiring.Proofs.Answers
import Wiring.Proofs.Typing.Answer

/-!
# Types of remembered answers

`TypedExcept` says that the types of all answers that a graph remembers and of all nodes
that answer a dependency are as they should be, but for the nodes of a given set.

**Results.**
* `Graph.TypedExcept.begin`, `Graph.TypedExcept.narrowAt`, and others: single changes keep
  this.
-/

namespace Wiring
namespace Graph

/-- Whether a node is there and answers a request for a type. -/
def Answers (B : Build) (g : Graph) (id : NodeId) (t : Ty) (required : Bool) : Prop :=
  ∃ n, g.node? id = some n ∧ n.Answers B t required

/-- Whether everything that is remembered or answers a dependency answers the requested
type, but for given nodes. -/
structure TypedExcept (B : Build) (g : Graph) (met : NodeId → Prop) : Prop where
  answers {scope : ScopeId} {t : Ty} {id : NodeId} :
    ((scope, t), id) ∈ g.answers → met id ∨ g.Answers B id t true
  asked {id d : NodeId} {n : Node} {r : Request} :
    g.node? id = some n → n.kind.isCollection = false →
    (r, d) ∈ n.dependencies.zip n.resolved →
    met d ∨ g.Answers B d (B.registry.normalize r.type) r.required

section Answers

variable {B : Build} {g g' : Graph} {id : NodeId} {t : Ty} {required : Bool}

theorem Answers.grows
    (h : g.Answers B id t required)
    (hg : g.Grows g') :
    g'.Answers B id t required := by
  obtain ⟨n, hn, hanswers⟩ := h
  exact ⟨n, hg.node? hn, hanswers⟩

/-- A change after which the changed node answers what it did. -/
theorem Answers.change
    (h : g.Answers B id t required)
    {changed : NodeId}
    {f : Node → Node}
    (hf : ∀ n, g.node? changed = some n → n.Answers B t required →
      (f n).Answers B t required) :
    (g.change changed f).Answers B id t required := by
  obtain ⟨n, hn, hanswers⟩ := h
  by_cases heq : changed = id
  · subst heq
    exact ⟨f n, change_node? hn f, hf n hn hanswers⟩
  · exact ⟨n, (change_node?_of_ne heq f).trans hn, hanswers⟩

theorem Answers.optional
    (h : g.Answers B id t true) :
    g.Answers B id t required := by
  obtain ⟨n, hn, hanswers⟩ := h
  exact ⟨n, hn, hanswers.optional⟩

end Answers

namespace TypedExcept

variable {B : Build} {g g' : Graph} {met met' : NodeId → Prop}

theorem empty (B : Build) (met : NodeId → Prop) : Graph.empty.TypedExcept B met where
  answers := fun ha => nomatch ha
  asked := fun hn => nomatch hn

theorem imp
    (h : g.TypedExcept B met)
    (himp : ∀ d, met d → met' d) :
    g.TypedExcept B met' where
  answers := fun ha => (h.answers ha).imp_left (himp _)
  asked := fun hn hkind hr => (h.asked hn hkind hr).imp_left (himp _)

theorem find?
    (h : g.TypedExcept B met)
    {scope : ScopeId}
    {t : Ty}
    {id : NodeId}
    (hfind : g.answers.find? scope t = some id) :
    met id ∨ g.Answers B id t true :=
  h.answers (Answers.mem_of_find? hfind)

theorem withMemo
    (h : g.TypedExcept B met)
    (m : Memo) :
    (g.withMemo m).TypedExcept B met :=
  ⟨h.answers, h.asked⟩

theorem remember
    (h : g.TypedExcept B met)
    {t : Ty}
    {id : NodeId}
    (hid : met id ∨ g.Answers B id t true)
    (scope : ScopeId) :
    (g.remember scope t id).TypedExcept B met where
  answers := fun ha => by
    rcases Answers.eq_or_mem_of_mem_insert ha with heq | ha
    · cases heq
      exact hid
    · exact h.answers ha
  asked := h.asked

/-- A new node that answers what it is remembered for. -/
theorem begin
    (h : g.TypedExcept B met)
    {n : Node}
    (hresolved : n.resolved = [])
    {key : Option Ty}
    (hkey : ∀ t, key = some t → met g.nextId ∨ n.Answers B t true)
    (scope : ScopeId) :
    (g.begin n key scope).TypedExcept B met := by
  have hgrows := (Grows.refl g).begin n key scope
  refine ⟨fun {scope' t id} ha => ?_, fun {id d n' r} hn' hkind hr => ?_⟩
  · rcases mem_answers_begin ha with ha | ⟨hid, -, ht⟩
    · exact (h.answers ha).imp_right (fun hh => hh.grows hgrows)
    · dsimp only at hid ht
      rw [hid]
      refine (hkey t ht).imp_right (fun hanswers => ?_)
      exact ⟨{ n with id := g.nextId }, g.begin_node?_self n key scope,
        hanswers.congr rfl rfl⟩
  · rcases begin_node?_eq_some hn' with hold | ⟨-, rfl⟩
    · exact (h.asked hold hkind hr).imp_right (fun hh => hh.grows hgrows)
    · change (r, d) ∈ n.dependencies.zip n.resolved at hr
      rw [hresolved, List.zip_nil_right] at hr
      exact nomatch hr

/-- A change of one node after which it answers what it did. -/
theorem change
    (h : g.TypedExcept B met)
    {id : NodeId}
    (f : Node → Node)
    (hf : met id ∨ ∀ n t required, g.node? id = some n → n.Answers B t required →
      (f n).Answers B t required)
    (hasked : ∀ n r d, g.node? id = some n → (f n).kind.isCollection = false →
      (r, d) ∈ (f n).dependencies.zip (f n).resolved →
      met d ∨ g.Answers B d (B.registry.normalize r.type) r.required) :
    (g.change id f).TypedExcept B met := by
  have hkeep : ∀ {d : NodeId} {t : Ty} {required : Bool},
      met d ∨ g.Answers B d t required → met d ∨ (g.change id f).Answers B d t required := by
    intro d t required hd
    by_cases heq : id = d
    · subst heq
      rcases hf with hmet | hf
      · exact .inl hmet
      · exact hd.imp_right (fun hh => hh.change (fun n => hf n t required))
    · refine hd.imp_right ?_
      rintro ⟨n, hn, hanswers⟩
      exact ⟨n, (change_node?_of_ne heq f).trans hn, hanswers⟩
  refine ⟨fun ha => hkeep (h.answers ha), fun hn' hkind hr => ?_⟩
  rcases change_node?_eq_some hn' with hold | ⟨n, hn, rfl⟩
  · exact hkeep (h.asked hold hkind hr)
  · exact hkeep (hasked n _ _ hn hkind hr)

/-- Narrowing the type that a node's declaration was instantiated with. -/
theorem narrowAt
    (h : g.TypedExcept B met)
    {id : NodeId}
    {assisted : Bool}
    (hid : met id ∨ assisted = true ∨ ∃ n d receivers, g.node? id = some n
      ∧ n.kind = .callable d receivers [] ∧ n.type = d.type)
    (declared : Declaration) :
    (g.narrowAt B id declared assisted).TypedExcept B met := by
  rcases narrowAt_cases B g id declared assisted with heq | ⟨hassisted, types, heq⟩
  · rw [heq]
    exact h
  · rw [heq]
    refine h.change _ ?_ (fun n r d hn hkind hr => ?_)
    · refine hid.imp_right (fun hid n' t required hn' hanswers => ?_)
      rcases hid with htrue | ⟨n, d, receivers, hn, hkind, htype⟩
      · exact nomatch hassisted.symm.trans htrue
      · have hsame : n' = n := Option.some.inj (hn'.symm.trans hn)
        subst hsame
        exact hanswers.narrowed hkind htype rfl
    · have hanswers : met d ∨ g.Answers B d (B.registry.normalize r.type) r.required :=
        h.asked hn hkind hr
      exact hanswers

theorem pushScope
    (h : g.TypedExcept B met)
    {parent : Option ScopeId}
    {spec : ScopeSpec}
    {found : Contributions}
    {inner : ScopeId}
    (hp : g.pushScope B parent spec found = .ok (inner, g')) :
    g'.TypedExcept B met := by
  have hgrows := (Grows.refl g).pushScope hp
  obtain ⟨hanswers, hnodes⟩ := pushScope_answers hp
  have hnode := Graph.node?_congr hnodes
  refine ⟨fun ha => ?_, fun hn hkind hr => ?_⟩
  · rw [hanswers] at ha
    exact (h.answers ha).imp_right (fun hh => hh.grows hgrows)
  · rw [hnode] at hn
    exact (h.asked hn hkind hr).imp_right (fun hh => hh.grows hgrows)

end TypedExcept
end Graph
end Wiring
