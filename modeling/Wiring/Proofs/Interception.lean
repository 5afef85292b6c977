import Wiring.Proofs.Batched
import Wiring.Proofs.Typing.Answer

/-!
# Interceptors that fit

An interceptor is attached to the nodes whose type it can stand for: what it returns is
assignable to a factory of that type.  The parameter that takes the factory is the first
one that is a function returning exactly that type, and the first of all if there is none.
So an interceptor for a more special type is handed the factory of a more general one, and
one that takes no such function is handed the factory in place of something else.

What an interceptor asks for is right in any case, and it takes the factory if the function
it takes is a plain one without parameters.  It is attached after the type of its node was
narrowed, and that type does not change again.

**Results.**
* `Derives.intercepted`: interceptors are attached for the type that a node keeps.
* `Graph.Batched.interceptorsFit_iff`: all attached interceptors fit exactly if those take
  the factory that do not declare a plain function for it.
-/

namespace Wiring

/-! ## Positions -/

section Positions

variable {α : Type}

/-- Dropping the element at a position from a numbered list. -/
theorem map_fst_filter_zipIdx
    (as : List α)
    (start position : Nat) :
    ((as.zipIdx start).filter (fun p => p.2 ≠ start + position)).map Prod.fst
      = as.eraseIdx position := by
  induction as generalizing start position with
  | nil => rfl
  | cons a as ih =>
      rw [List.zipIdx_cons]
      cases position with
      | zero =>
          have hrest : ∀ p ∈ as.zipIdx (start + 1), decide (p.2 ≠ start + 0) = true := by
            intro p hp
            have hle := List.le_snd_of_mem_zipIdx hp
            exact decide_eq_true (by omega)
          rw [List.filter_cons_of_neg (by simp), List.filter_eq_self.mpr hrest,
            List.zipIdx_map_fst, List.eraseIdx_cons_zero]
      | succ position =>
          have hshift : start + (position + 1) = start + 1 + position := by omega
          rw [List.filter_cons_of_pos (by simp), List.map_cons, List.eraseIdx_cons_succ,
            hshift, ih]

end Positions

/-! ## The factory -/

/-- Whether a parameter is a function that returns values of a type. -/
def Parameter.makes (t : Ty) (p : Parameter) : Bool :=
  match p.type.functionParts? with
  | some (_, returns) => returns.nonNull = t.nonNull
  | none => false

namespace Declaration

/-- Whether the first parameter that is a function returning values of a type is a plain
function without parameters. -/
def DeclaresFactory (d : Declaration) (t : Ty) : Prop :=
  ∃ p, d.parameters.find? (Parameter.makes t) = some p
    ∧ p.type.classifier = .function ∧ p.type.arguments.length = 1 ∧ p.type.qualifiers = ∅

theorem requestsExcept_eq
    (d : Declaration)
    (position : Nat) :
    d.requestsExcept position = (d.parameters.eraseIdx position).map d.parameterRequest := by
  have h := map_fst_filter_zipIdx d.parameters 0 position
  rw [Nat.zero_add] at h
  rw [← h, List.map_map]
  rfl

/-- The parameter that takes the factory is the first one that is a function returning
values of the type, if there is one. -/
theorem parameter_factoryPosition
    {d : Declaration}
    {t : Ty}
    {p : Parameter}
    (h : d.parameters.find? (Parameter.makes t) = some p) :
    d.parameters[d.factoryPosition t]? = some p := by
  rw [List.find?_eq_bind_findIdx?_getElem?] at h
  obtain ⟨position, hposition, hp⟩ := Option.bind_eq_some_iff.mp h
  have heq : d.factoryPosition t = position := by
    change (d.parameters.findIdx? (Parameter.makes t)).getD 0 = position
    rw [hposition]
    rfl
  rw [heq]
  exact hp

end Declaration

namespace Registry

/-- A type can stand for itself made nullable. -/
theorem assignableWithin_nonNull_self
    (R : Registry)
    {levels : Nat}
    {t : Ty}
    (h : t.nesting ≤ levels) :
    R.assignableWithin levels t.nonNull t = true := by
  cases levels with
  | zero =>
      have := t.nesting_pos
      omega
  | succ levels =>
      obtain ⟨c, arguments, q, n, s⟩ := t
      cases s with
      | true => simp [assignableWithin]
      | false =>
          simp only [Ty.nesting, Bool.false_eq_true, if_false] at h
          have harguments : ∀ a ∈ arguments, R.assignableWithin levels a a = true := by
            intro a ha
            have hle := Ty.nesting_le_nestingAll ha
            exact R.assignableWithin_self (by omega)
          have hpairs := allPairs_self harguments
          simpa [assignableWithin, Ty.nonNull] using hpairs

end Registry

theorem Ty.nesting_nonNull (t : Ty) : t.nonNull.nesting = t.nesting := by
  obtain ⟨c, arguments, q, n, s⟩ := t
  simp [Ty.nonNull, Ty.nesting]

namespace Interceptor

variable {B : Build} {t : Ty} {i : Interceptor}

/-- Whether the parameter that is handed the factory of values of a type takes it. -/
def TakesFactory (B : Build) (t : Ty) (i : Interceptor) : Prop :=
  ∃ p returns, i.declaration.parameters[i.factoryParameter]? = some p
    ∧ p.type.functionParts? = some ([], returns)
    ∧ B.registry.isAssignable (.function [] t.nonNull) p.type = true

/-- Whether an interceptor can wrap values of a type: it takes the factory and asks for all
its other parameters, in order. -/
structure Fits (B : Build) (t : Ty) (i : Interceptor) : Prop where
  takesFactory : i.TakesFactory B t
  dependencies : i.dependencies
    = (i.declaration.parameters.eraseIdx i.factoryParameter).map
        i.declaration.parameterRequest

/-- Whether an interceptor declares no plain function for the factory, or the type is
nested too deeply for functions that return it to be compared. -/
def Strays (t : Ty) (i : Interceptor) : Prop :=
  ¬ i.declaration.DeclaresFactory t ∨ Limits.relationDepth < t.nesting

/-- Whether an interceptor was attached for values of a type. -/
def AttachedFor (t : Ty) (i : Interceptor) : Prop :=
  ∃ e resolved, i = .ofEntry e t resolved

/-- An interceptor that declares a plain function for the factory takes it. -/
theorem AttachedFor.takesFactory
    (h : i.AttachedFor t)
    (hplain : ¬ i.Strays t) :
    i.TakesFactory B t := by
  obtain ⟨hdeclares, hnesting⟩ := not_or.mp hplain
  obtain ⟨p, hp, hclassifier, hlength, hqualifiers⟩ := not_not.mp hdeclares
  obtain ⟨e, resolved, rfl⟩ := h
  have hmakes : p.makes t = true := List.find?_some hp
  refine ⟨p, ?_⟩
  obtain ⟨name, ⟨c, arguments, q, n, s⟩, assisted, hasDefault⟩ := p
  dsimp only at hclassifier hlength hqualifiers
  subst hclassifier hqualifiers
  obtain ⟨returns, rfl⟩ := List.length_eq_one_iff.mp hlength
  cases s with
  | true => simp [Parameter.makes, Ty.functionParts?] at hmakes
  | false =>
      have hparts : Ty.functionParts? ⟨.function, [returns], ∅, n, false⟩
          = some ([], returns) := rfl
      have hreturns : returns.nonNull = t.nonNull := by
        simpa [Parameter.makes, hparts] using hmakes
      refine ⟨returns, Declaration.parameter_factoryPosition hp, hparts, ?_⟩
      have hdepth : returns.nesting ≤ Limits.relationDepth := by
        rw [← Ty.nesting_nonNull, hreturns, Ty.nesting_nonNull]
        omega
      have hvalue := B.registry.assignableWithin_nonNull_self hdepth
      rw [hreturns] at hvalue
      simp [Registry.isAssignable, Registry.assignableWithin, Ty.function, Ty.functionOf,
        Ty.generic, Registry.allPairs, hvalue]

/-- What an attached interceptor asks for is all but the factory. -/
theorem AttachedFor.dependencies
    (h : i.AttachedFor t) :
    i.dependencies
      = (i.declaration.parameters.eraseIdx i.factoryParameter).map
          i.declaration.parameterRequest := by
  obtain ⟨e, resolved, rfl⟩ := h
  exact e.declaration.requestsExcept_eq _

end Interceptor

/-! ## What a search attaches -/

/-- Whether the interceptors of a node were attached for its type. -/
def Node.Intercepted (n : Node) : Prop :=
  ∀ i ∈ n.interceptors, i.AttachedFor n.type

/-- Whether the interceptors that a finished part of a search comes to are for the type
that they are asked for. -/
def Judgement.Intercepts : Judgement → Prop
  | .interceptors _ _ t _ attached => ∀ i ∈ attached, i.AttachedFor t
  | _ => True

/-- A finished part of a search attaches interceptors for the types that nodes keep. -/
theorem Derives.intercepted
    {B : Build}
    {stack : List NodeId}
    {J : Judgement}
    {g g' : Graph}
    (h : Derives B stack g J g')
    (hg : g.Every (fun _ n => n.Intercepted)) :
    g'.Every (fun _ n => n.Intercepted) ∧ J.Intercepts := by
  induction h with
  | found _ ih => exact ⟨(ih hg).1, trivial⟩
  | null habsent _ _ ih =>
      obtain ⟨m, -, rfl⟩ := habsent.withMemo
      exact ⟨(ih hg).1, trivial⟩
  | missing habsent _ _ _ ih =>
      obtain ⟨m, -, rfl⟩ := habsent.withMemo
      exact ⟨(ih hg).1, trivial⟩
  | recalled => exact ⟨hg, trivial⟩
  | chosen _ _ _ hoffers _ _ ih =>
      obtain ⟨m, -, rfl⟩ := hoffers.withMemo
      exact ⟨(ih hg).1, trivial⟩
  | inherited _ _ hoffers _ _ ih =>
      obtain ⟨m, -, rfl⟩ := hoffers.withMemo
      exact ⟨(ih hg).1, trivial⟩
  | declaration _ _ ih => exact ⟨(ih hg).1, trivial⟩
  | keptInput => exact ⟨hg, trivial⟩
  | aliasAgain => exact ⟨hg, trivial⟩
  | built _ hblueprint _ ih =>
      exact ⟨(ih (hg.of_nodes_eq hblueprint.nodes_eq)).1, trivial⟩
  | again => exact ⟨hg, trivial⟩
  | relocated => exact ⟨hg, trivial⟩
  | @fresh stack scope owner declaredIn key e declared assisted n entries attached m id g
      g₁ g' _ _ _ hnode hn _ hd ihnode ih =>
      -- no interceptors are attached to the node before its type is narrowed
      obtain ⟨ids, hbuilt⟩ := hnode.node_built
      have hnarrowed : (g₁.narrowAt B id declared assisted).Every
          (fun _ n => n.Intercepted) := by
        rcases Graph.narrowAt_cases B g₁ id declared assisted with heq | ⟨-, types, heq⟩
        · rw [heq]
          exact (ihnode hg).1
        · rw [heq]
          exact (ihnode hg).1.change_node hbuilt (fun i hi => nomatch hi)
      obtain ⟨hkept, hattached⟩ := ih hnarrowed
      exact ⟨hkept.change_node (hd.grows.node? hn) hattached, trivial⟩
  | @node stack n key scope evaluated demands ids g g' hplans _ ih =>
      have hnew : Node.Intercepted { n with id := g.nextId } := by
        intro i hi
        change i ∈ n.interceptors at hi
        rw [hplans.interceptors] at hi
        exact nomatch hi
      exact ⟨(ih (hg.begin hnew key scope)).1.change g.nextId (fun _ hn => hn), trivial⟩
  | noDemands => exact ⟨hg, trivial⟩
  | requestDemand _ _ ih ihs => exact ihs (ih hg).1
  | entryDemand _ _ ih ihs => exact ihs (ih hg).1
  | noInterceptors => exact ⟨hg, fun i hi => nomatch hi⟩
  | @interceptor stack id owner t e entries ids attached g g₁ g' _ _ ih ihs =>
      obtain ⟨hkept, hattached⟩ := ihs (ih hg).1
      refine ⟨hkept, fun i hi => ?_⟩
      rcases List.mem_cons.mp hi with rfl | hi
      · exact ⟨e, ids, rfl⟩
      · exact hattached i hi

namespace StarMerge

/-- Merging keeps the type and the interceptors of a node, or drops its interceptors. -/
theorem Outcome.intercepted
    {nodes : List Node}
    {n n' : Node}
    (h : Outcome nodes n n')
    (hn : n.Intercepted) :
    n'.Intercepted := by
  cases h with
  | kept => exact hn
  | canonical => exact hn
  | delegate => exact fun i hi => nomatch hi

end StarMerge

/-! ## Graphs -/

namespace Graph

/-- Whether all interceptors that are attached to nodes can wrap their values. -/
def InterceptorsFit (g : Graph) (B : Build) : Prop :=
  ∀ {id : NodeId} {n : Node} {i : Interceptor}, g.node? id = some n → i ∈ n.interceptors →
    i.Fits B n.type

theorem Batched.intercepted
    {B : Build}
    {g : Graph}
    (h : Batched B g) :
    g.Every (fun _ n => n.Intercepted) := by
  refine Invariant.holds (B := B) (P := fun g => g.Every (fun _ n => n.Intercepted))
    { empty := fun id n hn => nomatch hn
      pushed := fun hg _ hp => hg.of_nodes_eq (pushScope_answers hp).2
      answered := fun {g} _ _ _ _ hg _ hd id n hn => (hd.intercepted hg).1 hn
      refused := fun hg _ hf => hg.of_nodes_eq hf.grows.rollback_nodes
      merged := fun hg id n' hn' => ?_ } h
  obtain ⟨n, hn, houtcome⟩ := merged_node?_eq_some hn'
  exact houtcome.intercepted (hg hn)

/-- All attached interceptors fit exactly if those take the factory that declare no plain
function for it, or whose node has a type that is nested too deeply. -/
theorem Batched.interceptorsFit_iff
    {B : Build}
    {g : Graph}
    (h : Batched B g) :
    g.InterceptorsFit B ↔
      ∀ {id : NodeId} {n : Node} {i : Interceptor}, g.node? id = some n →
        i ∈ n.interceptors → i.Strays n.type → i.TakesFactory B n.type := by
  constructor
  · intro hfit id n i hn hi _
    exact (hfit hn hi).takesFactory
  · intro hstrays id n i hn hi
    have hattached := h.intercepted hn i hi
    refine ⟨?_, hattached.dependencies⟩
    by_cases hstray : i.Strays n.type
    · exact hstrays hn hi hstray
    · exact hattached.takesFactory hstray

/-- A class and a more special one. -/
def auditedBuild : Build where
  registry :=
    { Registry.initial with
      registered := #[{ name := ⟨"Base"⟩ }, { name := ⟨"Sub"⟩, supertypes := [.of ⟨16⟩] }] }

/-- A binding for the class, and an interceptor for the more special one. -/
def auditedDeclarations : List Declaration :=
  [ { name := ⟨"app.base"⟩, type := .of ⟨16⟩ },
    { name := ⟨"app.audit"⟩
      type := .function [] (.of ⟨17⟩)
      parameters := [{ name := "make", type := .function [] (.of ⟨17⟩) }]
      role := .interceptor } ]

/-- The graph after the class was asked for. -/
def auditedGraph : Graph :=
  ((Graph.empty.withScope auditedBuild none { name := "App" } auditedDeclarations).resolve
    auditedBuild ⟨0⟩ { type := .of ⟨16⟩, origin := ⟨"app"⟩ }).2

theorem auditedGraph_batched : Batched auditedBuild auditedGraph :=
  .resolve _ _ (Batched.empty.withScope _ _ _)

theorem auditedGraph_interceptorsFit_iff :
    auditedGraph.InterceptorsFit auditedBuild ↔
      ∀ {id : NodeId} {n : Node} {i : Interceptor}, auditedGraph.node? id = some n →
        i ∈ n.interceptors → i.Strays n.type → i.TakesFactory auditedBuild n.type :=
  Batched.interceptorsFit_iff auditedGraph_batched

/-- The interceptor takes factories of the more special class, and is handed one of the
other class. -/
theorem auditedGraph_not_interceptorsFit :
    Batched auditedBuild auditedGraph ∧ ¬ auditedGraph.InterceptorsFit auditedBuild := by
  refine ⟨auditedGraph_batched, fun hfit => ?_⟩
  have hnode : (auditedGraph.node? ⟨0⟩).any (fun n => decide
      (n.type = .of ⟨16⟩
        ∧ n.interceptors.map Interceptor.factoryParameter = [0]
        ∧ n.interceptors.map (fun i => i.declaration.parameters.map Parameter.type)
          = [[.function [] (.of ⟨17⟩)]])) = true := by
    decide +kernel
  obtain ⟨n, hn, hfacts⟩ := (Option.any_eq_true _ _).mp hnode
  obtain ⟨htype, hpositions, hparameters⟩ := of_decide_eq_true hfacts
  obtain ⟨i, hi⟩ := List.length_eq_one_iff.mp
    (show n.interceptors.length = 1 by simpa using congrArg List.length hpositions)
  rw [hi] at hpositions hparameters
  simp only [List.map_cons, List.map_nil, List.cons.injEq, and_true] at hpositions hparameters
  obtain ⟨p, returns, hp, -, htakes⟩ := (hfit hn (hi ▸ List.mem_singleton_self i)).takesFactory
  rw [hpositions] at hp
  have hptype : p.type = .function [] (.of ⟨17⟩) := by
    have hmap := congrArg (fun ts : List Ty => ts[0]?) hparameters
    simpa [List.getElem?_map, hp] using hmap
  rw [hptype, htype] at htakes
  exact absurd htakes (by decide +kernel)

end Graph
end Wiring
