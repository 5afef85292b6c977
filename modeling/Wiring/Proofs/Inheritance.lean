import Mathlib.Data.List.Basic
import Wiring.Proofs.Batched
import Wiring.Proofs.Lineage

/-!
# Inheritance of bindings

A scope sees its own bindings and those of its ancestors that no scope in between hides.
What it inherits was filtered by all scopes on the way: every scope takes over what its
parent inherited and declares, except what it declares itself.  So a binding is seen exactly
if none of the scopes below its own, down to the one that looks, declares its type.

**Results.**
* `Graph.Batched.inherits`: every scope takes over what its parent sees.
* `Graph.Batched.seen_eq`: what a scope sees is what its chain of ancestors leaves visible.
* `Graph.Batched.declarations_eq`: the declarations that a scope offers for a type.
-/

namespace Wiring

/-! ## Declarations among candidates -/

section Distinct

variable {α : Type} [DecidableEq α]

/-- Leaving out elements and leaving out repetitions can be done in any order. -/
theorem distinct_filter
    (p : α → Bool)
    (as : List α) :
    (distinct as).filter p = distinct (as.filter p) := by
  induction as using List.reverseRecOn with
  | nil => rfl
  | append_singleton as a ih =>
      rw [distinct_concat, List.filter_append]
      by_cases hp : p a = true
      · rw [List.filter_cons_of_pos hp, List.filter_nil, distinct_concat, ← ih]
        by_cases ha : a ∈ distinct as
        · rw [if_pos ha, if_pos (List.mem_filter.mpr ⟨ha, hp⟩)]
        · have hfiltered : a ∉ (distinct as).filter p := fun hmem =>
            ha (List.mem_filter.mp hmem).1
          rw [if_neg ha, if_neg hfiltered, List.filter_append, List.filter_cons_of_pos hp,
            List.filter_nil]
      · rw [List.filter_cons_of_neg hp, List.filter_nil, List.append_nil, ← ih]
        by_cases ha : a ∈ distinct as
        · rw [if_pos ha]
        · rw [if_neg ha, List.filter_append, List.filter_cons_of_neg hp, List.filter_nil,
            List.append_nil]

end Distinct

/-- Whether a candidate is a declaration. -/
def Candidate.isDeclaration : Candidate → Bool
  | declaration _ => true
  | _ => false

namespace Scope

/-- Only what matches is a declaration among the candidates of a scope. -/
theorem declarations_candidatesFor
    (R : Registry)
    (K : Catalog)
    (s : Scope)
    (t : Ty) :
    (s.candidatesFor R K t).filter Candidate.isDeclaration
      = distinct (s.matchingBindings R t) := by
  have hall : (s.matchingBindings R t).filter Candidate.isDeclaration
      = s.matchingBindings R t := by
    refine List.filter_eq_self.mpr fun c hc => ?_
    rcases List.mem_append.mp hc with hc | hc
    · obtain ⟨p, -, hp⟩ := List.mem_filterMap.mp hc
      obtain ⟨m, -, rfl⟩ := Option.map_eq_some_iff.mp hp
      rfl
    · obtain ⟨e, -, he⟩ := List.mem_filterMap.mp hc
      obtain ⟨m, -, rfl⟩ := Option.map_eq_some_iff.mp he
      rfl
  have hinputs : (s.matchingInputs R t).filter Candidate.isDeclaration = [] := by
    refine List.filter_eq_nil_iff.mpr fun c hc => ?_
    rcases List.mem_append.mp hc with hc | hc
    · obtain ⟨i, -, rfl⟩ := List.mem_map.mp hc
      exact Bool.false_ne_true
    · obtain ⟨p, -, rfl⟩ := List.mem_map.mp hc
      exact Bool.false_ne_true
  have hobject : (objectCandidate R t).filter Candidate.isDeclaration = [] := by
    unfold objectCandidate
    split <;> rfl
  have halias : (s.aliasCandidate R K t).filter Candidate.isDeclaration = [] := by
    unfold aliasCandidate
    split
    · split
      · split <;> rfl
      · rfl
    · rfl
  have hprovider : (providerCandidate R t).filter Candidate.isDeclaration = [] := by
    unfold providerCandidate
    split
    · split <;> rfl
    · rfl
  have hset : (setCandidate t).filter Candidate.isDeclaration = [] := by
    unfold setCandidate
    split <;> rfl
  rw [candidatesFor, distinct_filter]
  simp only [List.filter_append, hall, hinputs, hobject, halias, hprovider, hset,
    List.append_nil]

/-! ## Chains of scopes -/

/-- What the last scope of a chain sees, outermost scope first: the bindings of each scope
that no scope further inside hides, with the scope that declares them. -/
def visible : List Scope → List (Entry × ScopeId)
  | [] => []
  | s :: inner =>
      (s.bindings.filter (fun e => inner.all (fun s' => !s'.declares e.declaration.type))).map
          (fun e => (e, s.id))
        ++ visible inner

@[simp] theorem visible_singleton
    (s : Scope) :
    visible [s] = s.bindings.map (fun e => (e, s.id)) := by
  have hall : s.bindings.filter (fun e => List.all [] fun s' : Scope =>
      !s'.declares e.declaration.type) = s.bindings :=
    List.filter_eq_self.mpr fun _ _ => rfl
  rw [visible, visible, hall, List.append_nil]

/-- What is visible is tagged with scopes of the chain. -/
theorem exists_of_mem_visible
    {chain : List Scope}
    {p : Entry × ScopeId}
    (h : p ∈ visible chain) :
    ∃ s ∈ chain, p.2 = s.id := by
  induction chain with
  | nil => cases h
  | cons s inner ih =>
      rcases List.mem_append.mp h with h | h
      · obtain ⟨e, -, rfl⟩ := List.mem_map.mp h
        exact ⟨s, List.mem_cons_self, rfl⟩
      · obtain ⟨s', hs', hp⟩ := ih h
        exact ⟨s', List.mem_cons_of_mem s hs', hp⟩

/-- One more scope hides what it declares itself, and adds that. -/
theorem visible_concat
    (chain : List Scope)
    (s : Scope) :
    visible (chain ++ [s])
      = (visible chain).filter (fun p => !s.declares p.1.declaration.type)
        ++ s.bindings.map (fun e => (e, s.id)) := by
  induction chain with
  | nil => exact visible_singleton s
  | cons outer chain ih =>
      rw [List.cons_append, visible, visible, ih, List.filter_append, List.append_assoc,
        List.filter_map, List.filter_filter]
      congr 2
      refine List.filter_congr fun e _ => ?_
      simp [Bool.and_comm]

/-- The declarations that are offered are those of what is seen, if a scope has its own
position as the only tag of its own bindings. -/
theorem matchingBindings_eq
    {s : Scope}
    (hinherited : ∀ p ∈ s.inheritedBindings, p.2 ≠ s.id)
    (R : Registry)
    (t : Ty) :
    s.matchingBindings R t
      = (s.inheritedBindings ++ s.bindings.map (fun e => (e, s.id))).filterMap fun p =>
          (R.match? p.1 t s.context).map fun m =>
            .declaration { m with declaredIn := if p.2 = s.id then none else some p.2 } := by
  rw [matchingBindings, List.filterMap_append, List.filterMap_map]
  congr 1
  · refine List.filterMap_congr fun p hp => ?_
    rw [if_neg (hinherited p hp)]
    rfl
  · refine List.filterMap_congr fun e _ => ?_
    simp only [Function.comp_apply, if_true]
    cases hmatch : R.match? e t s.context with
    | none => rfl
    | some m =>
        obtain ⟨-, -, hnone⟩ := Registry.match?_eq_some hmatch
        simp only [Option.map_some, ← hnone]

end Scope

/-! ## Inheriting -/

/-- Whether every scope takes over what its parent sees, but for what it declares itself. -/
structure Inherits (scopes : Array Scope) : Prop where
  root {i : Nat} {s : Scope} :
    scopes[i]? = some s → s.parent = none → s.inheritedBindings = []
  child {i : Nat} {parent : ScopeId} {s p : Scope} :
    scopes[i]? = some s → s.parent = some parent → parent.index < i →
    scopes[parent.index]? = some p →
    s.inheritedBindings
      = (p.inheritedBindings ++ p.bindings.map (fun e => (e, p.id))).filter
          (fun q => !s.declares q.1.declaration.type)

namespace Graph

theorem inherits_pushScope
    {B : Build}
    {g g' : Graph}
    (h : Inherits g.scopes)
    {parent : Option ScopeId}
    {spec : ScopeSpec}
    {found : Contributions}
    {inner : ScopeId}
    (hp : g.pushScope B parent spec found = .ok (inner, g')) :
    Inherits g'.scopes := by
  obtain ⟨s₀, s, rfl, rfl, -, hsparent, -, hbindings, -, hs⟩ := pushScope_eq_ok hp
  constructor
  · intro i s' hs' hroot
    rcases scopes_push_eq_some hs' with hold | ⟨-, rfl⟩
    · exact h.root hold hroot
    · rcases hs with ⟨-, rfl⟩ | ⟨p, hfound, rfl, -⟩
      · exact hbindings
      · rw [← hsparent, hroot] at hfound
        cases hfound
  · intro i outer s' p hs' houter hlt hpid
    have hi : i ≤ g.scopes.size := by
      have hlt := (Array.getElem?_eq_some_iff.mp hs').1
      rw [Array.size_push] at hlt
      exact Nat.le_of_lt_succ hlt
    have hpold : g.scopes[outer.index]? = some p := by
      rcases scopes_push_eq_some hpid with hold | ⟨hindex, -⟩
      · exact hold
      · omega
    rcases scopes_push_eq_some hs' with hold | ⟨-, rfl⟩
    · exact h.child hold houter hlt hpold
    · have hfound : parent.bind g.scope? = some p := by
        rw [← hsparent, houter]
        exact hpold
      rcases hs with ⟨hnone, -⟩ | ⟨p', hfound', rfl, -⟩
      · cases hnone.symm.trans hfound
      · cases hfound.symm.trans hfound'
        rfl

/-- Every scope takes over what its parent sees. -/
theorem Batched.inherits
    {B : Build}
    {g : Graph}
    (h : Batched B g) :
    Inherits g.scopes :=
  Invariant.holds (B := B) (P := fun g => Inherits g.scopes)
    { empty := ⟨(nomatch ·), (nomatch ·)⟩
      pushed := fun hg _ hp => inherits_pushScope hg hp
      answered := fun hg _ hd =>
        hd.scopes (P := Inherits) (fun hg _ hp => inherits_pushScope hg hp)
          (fun hfalse : False => hfalse.elim) hg
      refused := fun hg _ hf => by rwa [hf.grows.rollback_scopes]
      merged := fun hg => hg } h

/-- What a scope sees is what its chain of ancestors leaves visible. -/
theorem Batched.seen_eq
    {B : Build}
    {g : Graph}
    (h : Batched B g)
    {id : ScopeId}
    {s : Scope}
    {above : List Scope}
    (hpath : Lineage g.scopes id (s :: above)) :
    s.inheritedBindings ++ s.bindings.map (fun e => (e, s.id))
      = Scope.visible (s :: above).reverse := by
  generalize hlist : s :: above = path at hpath
  induction hpath generalizing s above with
  | root hs hroot =>
      cases hlist
      rw [h.inherits.root hs hroot, List.reverse_singleton, Scope.visible_singleton]
      rfl
  | child hs hparent hlt hancestors ih =>
      cases hlist
      obtain ⟨p, further, rfl, hp⟩ := hancestors.head
      rw [List.reverse_cons, Scope.visible_concat, ← ih rfl,
        h.inherits.child hs hparent hlt hp]

/-- What a scope inherits is tagged with other scopes. -/
theorem Batched.ne_id_of_inherited
    {B : Build}
    {g : Graph}
    (h : Batched B g)
    {id : ScopeId}
    {s : Scope}
    {above : List Scope}
    (hpath : Lineage g.scopes id (s :: above))
    {p : Entry × ScopeId}
    (hp : p ∈ s.inheritedBindings) :
    p.2 ≠ s.id := by
  cases hpath with
  | root hs hroot =>
      rw [h.inherits.root hs hroot] at hp
      cases hp
  | child hs hparent hlt hancestors =>
      obtain ⟨outer, further, rfl, houter⟩ := hancestors.head
      rw [h.inherits.child hs hparent hlt houter, h.seen_eq hancestors] at hp
      obtain ⟨s', hs', htag⟩ := Scope.exists_of_mem_visible (List.mem_filter.mp hp).1
      have hle := hancestors.le_of_mem h.numbered (List.mem_reverse.mp hs')
      rw [htag, h.numbered _ _ hs]
      intro heq
      rw [heq] at hle
      exact Nat.not_lt_of_le hle hlt

/-- The declarations that a scope offers for a type are the matches of what its chain of
ancestors leaves visible, from the outermost scope on, each with the ancestor that declares
it. -/
theorem Batched.declarations_eq
    {B : Build}
    {g : Graph}
    (h : Batched B g)
    {id : ScopeId}
    {s : Scope}
    {above : List Scope}
    (hpath : Lineage g.scopes id (s :: above))
    (t : Ty) :
    (s.candidatesFor B.registry B.catalog t).filter Candidate.isDeclaration
      = distinct ((Scope.visible (s :: above).reverse).filterMap fun p =>
          (B.registry.match? p.1 t s.context).map fun m =>
            .declaration { m with declaredIn := if p.2 = s.id then none else some p.2 }) := by
  rw [Scope.declarations_candidatesFor,
    Scope.matchingBindings_eq (fun p hp => h.ne_id_of_inherited hpath hp), h.seen_eq hpath]

/-- A class and a more special one. -/
def windows : Build where
  registry :=
    { Registry.initial with
      registered := #[{ name := ⟨"Base"⟩ }, { name := ⟨"Sub"⟩, supertypes := [.of ⟨16⟩] }] }

/-- An application with bindings for both. -/
def windowGraph : Graph :=
  Graph.empty.withScope windows none { name := "App" }
    [ { name := ⟨"app.base"⟩, type := .of ⟨16⟩ }, { name := ⟨"app.sub"⟩, type := .of ⟨17⟩ } ]

/-- A page of the application with another binding for the special class. -/
def framedGraph : Graph :=
  windowGraph.withScope windows (some ⟨0⟩) { name := "Page" }
    [{ name := ⟨"page.sub"⟩, type := .of ⟨17⟩ }]

/-- A dialog of the page with another binding for the general class. -/
def dialogGraph : Graph :=
  framedGraph.withScope windows (some ⟨1⟩) { name := "Dialog" }
    [{ name := ⟨"dialog.base"⟩, type := .of ⟨16⟩ }]

theorem dialogGraph_batched : Batched windows dialogGraph :=
  Batched.withScope (Batched.withScope (Batched.empty.withScope _ _ _) _ _ _) _ _ _

theorem dialogGraph_lineage :
    ∃ dialog page app, Lineage dialogGraph.scopes ⟨2⟩ [dialog, page, app] := by
  have hdialog : dialogGraph.scopes[2]?.map Scope.parent = some (some ⟨1⟩) := by
    decide +kernel
  have hpage : dialogGraph.scopes[1]?.map Scope.parent = some (some ⟨0⟩) := by
    decide +kernel
  have happ : dialogGraph.scopes[0]?.map Scope.parent = some none := by
    decide +kernel
  obtain ⟨dialog, hdialog, hdialogParent⟩ := Option.map_eq_some_iff.mp hdialog
  obtain ⟨page, hpage, hpageParent⟩ := Option.map_eq_some_iff.mp hpage
  obtain ⟨app, happ, happParent⟩ := Option.map_eq_some_iff.mp happ
  exact ⟨dialog, page, app, .child hdialog hdialogParent (by decide)
    (.child hpage hpageParent (by decide) (.root happ happParent))⟩

/-- The dialog is offered the page's binding and its own, which hide the application's. -/
theorem dialogGraph_declarations_eq :
    (∃ s above, Lineage dialogGraph.scopes ⟨2⟩ (s :: above)
      ∧ (s.candidatesFor windows.registry windows.catalog (.of ⟨16⟩)).filter
          Candidate.isDeclaration
        = distinct ((Scope.visible (s :: above).reverse).filterMap fun p =>
            (windows.registry.match? p.1 (.of ⟨16⟩) s.context).map fun m =>
              .declaration
                { m with declaredIn := if p.2 = s.id then none else some p.2 }))
      ∧ (dialogGraph.scope? ⟨2⟩).map (fun s =>
          ((s.candidatesFor windows.registry windows.catalog (.of ⟨16⟩)).filter
            Candidate.isDeclaration).map Candidate.describe)
        = some [⟨"page.sub"⟩, ⟨"dialog.base"⟩] := by
  obtain ⟨dialog, page, app, hpath⟩ := dialogGraph_lineage
  refine ⟨⟨dialog, [page, app], hpath, ?_⟩, by decide +kernel⟩
  exact Batched.declarations_eq dialogGraph_batched hpath (.of ⟨16⟩)

end Graph
end Wiring
