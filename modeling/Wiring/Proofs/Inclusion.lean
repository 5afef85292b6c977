import Mathlib.Data.List.Flatten
import Mathlib.Data.List.Induction
import Mathlib.Tactic.Common
import Wiring.Expansion

/-!
# Inclusion of modules

A list of declarations spans a tree: below a declaration that includes a known module come
the members of the module, over the arguments it is included with.  Expansion walks over
this tree in depth-first pre-order and sorts what it meets.  The guard of the walk refuses
to enter a module that is entered already on the same path, to enter more than so many
modules on one path, and to enter more than so many altogether.

The tree of a module that includes itself is infinite, so it is listed up to a number of
levels.  What is listed below a module that is refused does not matter, and paths that are
not refused are short, so the walk is one pass over such a list.

**Results.**
* `Expansion.each_eq_pass`: expansion is one pass over the list of the tree.
* `Expansion.expand_exact`: the lists whose expansion succeeds, what it comes to, and what a
  reported cycle is.
-/

namespace Wiring

theorem Contributions.append_assoc
    (a b c : Contributions) :
    a ++ b ++ c = a ++ (b ++ c) := by
  change append (append a b) c = append a (append b c)
  simp only [append, List.append_assoc]

namespace Expansion

variable (modules : ClassifierId → Option Module)

/-! ## The tree below a list of declarations -/

/-- The module that a declaration includes, if it includes a known one. -/
def included (d : Declaration) : Option Module :=
  if d.role = .moduleInclude then modules d.type.classifier else none

/-- The members of the module that a declaration includes, over the arguments it is included
with. -/
def members (d : Declaration) : List Declaration :=
  match included modules d with
  | none => []
  | some m =>
      m.declarations.map fun member =>
        member.substitute (.ofArguments m.typeParameters d.type.arguments)

/-- Whether a declaration is reached from a list along a path of including declarations,
outermost first. -/
def Includes : List Declaration → List Declaration → Declaration → Prop
  | ds, [], d => d ∈ ds
  | ds, outer :: path, d => outer ∈ ds ∧ Includes (members modules outer) path d

/-- A place in the tree: a declaration and those that include it, outermost first. -/
structure Occurrence where
  path : List Declaration
  declaration : Declaration

namespace Occurrence

/-- The declaration together with the receivers it is reached through. -/
def entry (o : Occurrence) : Entry :=
  { declaration := o.declaration, receivers := o.path.map Declaration.name }

/-- Whether a known module is entered here. -/
def enters (o : Occurrence) : Bool := (included modules o.declaration).isSome

/-- The modules that are entered on the way. -/
def entered (o : Occurrence) : List ClassifierId := o.path.map (·.type.classifier)

end Occurrence

/-- The tree below a list that is reached along a path, in depth-first pre-order and down to
a number of levels. -/
def listing : Nat → List Declaration → List Declaration → List Occurrence
  | 0, path, ds => ds.map (fun d => ⟨path, d⟩)
  | levels + 1, path, ds =>
      ds.flatMap fun d => ⟨path, d⟩ :: listing levels (path ++ [d]) (members modules d)

variable {modules}

theorem members_of_not_included
    {d : Declaration}
    (h : included modules d = none) :
    members modules d = [] := by
  rw [members, h]

theorem not_includes_nil
    (path : List Declaration)
    (d : Declaration) :
    ¬ Includes modules [] path d := by
  cases path with
  | nil => exact List.not_mem_nil
  | cons outer path => exact fun h => List.not_mem_nil h.1

/-- What includes a declaration enters a module, and is reached itself. -/
theorem Includes.of_concat
    {ds path : List Declaration}
    {outer d : Declaration}
    (h : Includes modules ds (path ++ [outer]) d) :
    Includes modules ds path outer ∧ (included modules outer).isSome = true := by
  induction path generalizing ds with
  | nil =>
      refine ⟨h.1, ?_⟩
      cases hincluded : included modules outer with
      | none => exact absurd (members_of_not_included hincluded ▸ h.2) (not_includes_nil _ _)
      | some m => rfl
  | cons first path ih =>
      obtain ⟨hreached, henters⟩ := ih h.2
      exact ⟨⟨h.1, hreached⟩, henters⟩

/-- What is listed is what is reached along paths of the given length. -/
theorem mem_listing_iff
    {levels : Nat}
    {path ds : List Declaration}
    {o : Occurrence} :
    o ∈ listing modules levels path ds ↔
      ∃ below, o.path = path ++ below ∧ below.length ≤ levels
        ∧ Includes modules ds below o.declaration := by
  induction levels generalizing path ds with
  | zero =>
      rw [listing, List.mem_map]
      constructor
      · rintro ⟨d, hd, rfl⟩
        exact ⟨[], (List.append_nil path).symm, Nat.le_refl 0, hd⟩
      · rintro ⟨below, hpath, hlength, hreached⟩
        obtain rfl := List.length_eq_zero_iff.mp (Nat.le_zero.mp hlength)
        obtain ⟨_, d⟩ := o
        exact ⟨d, hreached, by simpa using hpath.symm⟩
  | succ levels ih =>
      rw [listing, List.mem_flatMap]
      constructor
      · rintro ⟨d, hd, ho⟩
        rcases List.mem_cons.mp ho with rfl | ho
        · exact ⟨[], (List.append_nil path).symm, Nat.zero_le _, hd⟩
        · obtain ⟨below, hpath, hlength, hreached⟩ := ih.mp ho
          refine ⟨d :: below, by rw [hpath, List.append_assoc]; rfl, ?_, hd, hreached⟩
          exact Nat.succ_le_succ hlength
      · rintro ⟨below, hpath, hlength, hreached⟩
        cases below with
        | nil =>
            obtain ⟨_, d⟩ := o
            obtain rfl := hpath.trans (List.append_nil path)
            exact ⟨d, hreached, List.mem_cons_self⟩
        | cons d below =>
            refine ⟨d, hreached.1, List.mem_cons_of_mem _ (ih.mpr ⟨below, ?_, ?_, hreached.2⟩)⟩
            · rw [hpath, List.append_assoc]
              rfl
            · exact Nat.le_of_succ_le_succ hlength

/-- More levels list more. -/
theorem listing_sublist
    (levels : Nat)
    (path ds : List Declaration) :
    (listing modules levels path ds).Sublist (listing modules (levels + 1) path ds) := by
  induction levels generalizing path ds with
  | zero =>
      rw [listing, listing, List.map_eq_flatMap]
      exact List.Sublist.flatMap_right _ fun d _ => (List.nil_sublist _).cons_cons _
  | succ levels ih =>
      rw [listing, listing]
      exact List.Sublist.flatMap_right _ fun d _ => (ih _ _).cons_cons _

/-! ## Expansion as one pass -/

/-- The guard after a path of modules was entered. -/
def guard (path : List Declaration) (steps : Nat) : ExpansionGuard :=
  { visiting := (path.map (·.type.classifier)).reverse
    depth := path.length
    steps := steps
    maxDepth := Limits.moduleDepth
    maxSteps := Limits.walkSteps }

variable (modules) in
/-- Enter the module that is included here, if one is: the steps made then. -/
def Occurrence.attempt (o : Occurrence) (steps : Nat) : Except ResolutionError Nat :=
  if o.enters modules then
    match (guard o.path steps).enter o.declaration.type.classifier with
    | (.entered, g) => .ok g.steps
    | (outcome, g) => .error (refusal (o.path.map Declaration.name) o.declaration g outcome)
  else .ok steps

variable (modules) in
/-- Collect what is listed, up to the first module that must not be entered. -/
def pass : List Occurrence → Nat → Except ResolutionError (Contributions × Nat)
  | [], steps => .ok ({}, steps)
  | o :: os, steps =>
      match o.attempt modules steps with
      | .error e => .error e
      | .ok steps => (pass os steps).map (fun r => (.ofEntry o.entry ++ r.1, r.2))

theorem pass_append
    (os os' : List Occurrence)
    (steps : Nat) :
    pass modules (os ++ os') steps
      = match pass modules os steps with
        | .error e => .error e
        | .ok (first, steps) => (pass modules os' steps).map (fun r => (first ++ r.1, r.2)) := by
  induction os generalizing steps with
  | nil =>
      simp only [List.nil_append, pass, Contributions.empty_append]
      cases pass modules os' steps <;> rfl
  | cons o os ih =>
      rw [List.cons_append, pass, pass]
      cases o.attempt modules steps with
      | error e => rfl
      | ok steps =>
          simp only [ih]
          cases pass modules os steps with
          | error e => rfl
          | ok first =>
              obtain ⟨first, steps⟩ := first
              simp only [Except.map]
              cases pass modules os' steps with
              | error e => rfl
              | ok rest => simp only [Contributions.append_assoc]

/-- A module that is entered is not too deep, and its guard is that of the longer path. -/
theorem enter_eq_entered
    {path : List Declaration}
    {d : Declaration}
    {steps : Nat}
    {g : ExpansionGuard}
    (h : (guard path steps).enter d.type.classifier = (.entered, g)) :
    path.length < Limits.moduleDepth ∧ g = guard (path ++ [d]) g.steps := by
  unfold Walk.Guard.enter at h
  dsimp only at h
  split at h
  · cases h
  · split at h
    · cases h
    · rename_i hdepth
      split at h
      · cases h
      · cases h
        refine ⟨Nat.lt_of_not_le hdepth, ?_⟩
        simp [guard]

theorem leave_guard
    (path : List Declaration)
    (d : Declaration)
    (steps : Nat) :
    (guard (path ++ [d]) steps).leave d.type.classifier = guard path steps := by
  simp [guard, Walk.Guard.leave]

/-- What a pass comes to, with the guard that it leaves behind. -/
def withGuard (path : List Declaration) (r : Contributions × Nat) :
    Contributions × ExpansionGuard :=
  (r.1, guard path r.2)

/-- One declaration is expanded as the pass goes over it and what is listed below it, if that
is so for the members of the module it includes. -/
theorem one_eq_pass
    {levels steps : Nat}
    {path : List Declaration}
    {d : Declaration}
    {below : List Occurrence}
    (hnone : included modules d = none → below = [])
    (hbelow : ∀ {m : Module}, included modules d = some m →
      path.length < Limits.moduleDepth → ∀ steps' : Nat,
      ∃ levels', levels = levels' + 1
        ∧ each (one modules levels' ((path ++ [d]).map Declaration.name)) (members modules d)
            (guard (path ++ [d]) steps')
          = (pass modules below steps').map (withGuard (path ++ [d]))) :
    one modules levels (path.map Declaration.name) d (guard path steps)
      = (pass modules (⟨path, d⟩ :: below) steps).map (withGuard path) := by
  unfold one
  rw [pass]
  by_cases hrole : d.role = .moduleInclude
  · cases hmodule : modules d.type.classifier with
    | none =>
        have hincluded : included modules d = none := by
          rw [included, if_pos hrole, hmodule]
        rw [hnone hincluded]
        simp [hrole, Occurrence.attempt, Occurrence.enters, hincluded, pass, Except.map,
          withGuard, Occurrence.entry]
    | some m =>
        have hincluded : included modules d = some m := by
          rw [included, if_pos hrole, hmodule]
        have henters : (⟨path, d⟩ : Occurrence).enters modules = true := by
          rw [Occurrence.enters, hincluded]
          rfl
        simp only [hrole, ne_eq, not_true_eq_false, if_false, Occurrence.attempt, henters,
          if_true]
        cases hattempt : (guard path steps).enter d.type.classifier with
        | mk outcome g =>
            cases outcome with
            | entered =>
                obtain ⟨hdepth, hguard⟩ := enter_eq_entered hattempt
                obtain ⟨levels', rfl, hmembers⟩ := hbelow hincluded hdepth g.steps
                rw [← hguard, members, hincluded, List.map_append] at hmembers
                simp only [List.map_cons, List.map_nil] at hmembers
                simp only [hmembers]
                cases pass modules below g.steps with
                | error e => rfl
                | ok r =>
                    obtain ⟨c, steps'⟩ := r
                    simp only [Except.map, withGuard, leave_guard, Occurrence.entry]
            | repeated => rfl
            | tooDeep => rfl
            | outOfSteps => rfl
  · have hincluded : included modules d = none := by
      rw [included, if_neg hrole]
    rw [hnone hincluded]
    simp [hrole, Occurrence.attempt, Occurrence.enters, hincluded, pass, Except.map,
      withGuard, Occurrence.entry]

/-- A list is expanded as the pass goes over its declarations and what is listed below
them. -/
theorem each_eq_pass_flatMap
    {levels : Nat}
    {path : List Declaration}
    {below : Declaration → List Occurrence}
    (hone : ∀ (d : Declaration) (steps : Nat),
      one modules levels (path.map Declaration.name) d (guard path steps)
        = (pass modules (⟨path, d⟩ :: below d) steps).map (withGuard path))
    (ds : List Declaration)
    (steps : Nat) :
    each (one modules levels (path.map Declaration.name)) ds (guard path steps)
      = (pass modules (ds.flatMap fun d => ⟨path, d⟩ :: below d) steps).map
          (withGuard path) := by
  induction ds generalizing steps with
  | nil => rfl
  | cons d ds ih =>
      rw [each, hone, List.flatMap_cons, pass_append]
      cases pass modules (⟨path, d⟩ :: below d) steps with
      | error e => rfl
      | ok first =>
          obtain ⟨first, steps⟩ := first
          simp only [Except.map, withGuard, ih]
          cases pass modules (ds.flatMap fun d => ⟨path, d⟩ :: below d) steps <;> rfl

theorem listing_nil
    (levels : Nat)
    (path : List Declaration) :
    listing modules levels path [] = [] := by
  cases levels <;> rfl

/-- Expansion is one pass over the list of the tree, if both go deep enough for the guard to
refuse what is deeper. -/
theorem each_eq_pass
    {levels listed : Nat}
    {path : List Declaration}
    (hlevels : Limits.moduleDepth ≤ path.length + levels)
    (hlisted : Limits.moduleDepth ≤ path.length + listed)
    (ds : List Declaration)
    (steps : Nat) :
    each (one modules levels (path.map Declaration.name)) ds (guard path steps)
      = (pass modules (listing modules listed path ds) steps).map (withGuard path) := by
  induction listed generalizing levels path ds steps with
  | zero =>
      have hlist : listing modules 0 path ds = ds.flatMap fun d => [⟨path, d⟩] :=
        List.map_eq_flatMap
      rw [hlist]
      refine each_eq_pass_flatMap (fun d steps => ?_) ds steps
      refine one_eq_pass (fun _ => rfl) fun _ hdepth _ => ?_
      exact absurd hdepth (Nat.not_lt_of_le hlisted)
  | succ listed ih =>
      rw [listing]
      refine each_eq_pass_flatMap (fun d steps => ?_) ds steps
      refine one_eq_pass (fun hnone => ?_) fun _ hdepth _ => ?_
      · rw [members_of_not_included hnone, listing_nil]
      · obtain ⟨levels', rfl⟩ : ∃ levels', levels = levels' + 1 :=
          Nat.exists_eq_add_one_of_ne_zero (by omega)
        refine ⟨levels', rfl, ih ?_ ?_ _ _⟩
        · rw [List.length_append, List.length_singleton]
          omega
        · rw [List.length_append, List.length_singleton]
          omega

/-! ## What is collected, and what is refused -/

/-- Entries sorted by what they contribute. -/
def sorted (es : List Entry) : Contributions :=
  { bindings := es.filter fun e =>
      e.declaration.role = .binding ∨ e.declaration.role = .moduleInclude
    setElements := es.filter fun e => e.declaration.role = .setElement
    mapEntries := es.filter fun e => e.declaration.role = .mapEntry
    interceptors := es.filter fun e => e.declaration.role = .interceptor
    multibinds := (es.filter fun e => e.declaration.role = .multibinds).map
      (·.declaration.type) }

theorem sorted_cons
    (e : Entry)
    (es : List Entry) :
    sorted (e :: es) = .ofEntry e ++ sorted es := by
  change _ = Contributions.append _ _
  cases hrole : e.declaration.role <;>
    simp [sorted, Contributions.ofEntry, Contributions.append, hrole]

variable (modules) in
/-- Whether a module may be entered where one is included: the path to it is not too long, and
it is not entered on it. -/
def Occurrence.Admitted (o : Occurrence) : Prop :=
  o.enters modules = true →
    o.path.length < Limits.moduleDepth ∧ o.declaration.type.classifier ∉ o.entered

theorem attempt_eq_ok_iff
    {o : Occurrence}
    {steps steps' : Nat}
    (hsteps : steps ≤ Limits.walkSteps) :
    o.attempt modules steps = .ok steps' ↔
      o.Admitted modules ∧ steps' ≤ Limits.walkSteps
        ∧ steps' = steps + if o.enters modules then 1 else 0 := by
  have hcount : min (steps + 1) Limits.counterCeiling = steps + 1 := by
    simp only [Limits.walkSteps, Limits.counterCeiling] at hsteps ⊢
    omega
  unfold Occurrence.attempt Occurrence.Admitted
  by_cases henters : o.enters modules = true
  · simp only [henters, if_true, forall_const, Walk.Guard.enter, guard, hcount,
      List.mem_reverse, Occurrence.entered]
    by_cases hbudget : Limits.walkSteps < steps + 1
    · rw [if_pos hbudget]
      constructor
      · intro h
        cases h
      · rintro ⟨-, hle, rfl⟩
        exact absurd hbudget (Nat.not_lt_of_le hle)
    · rw [if_neg hbudget]
      by_cases hdepth : Limits.moduleDepth ≤ o.path.length
      · rw [if_pos hdepth]
        constructor
        · intro h
          cases h
        · rintro ⟨⟨hlt, -⟩, -⟩
          exact absurd hdepth (Nat.not_le_of_lt hlt)
      · rw [if_neg hdepth]
        by_cases hmem : o.declaration.type.classifier ∈ o.path.map (·.type.classifier)
        · rw [if_pos hmem]
          constructor
          · intro h
            cases h
          · rintro ⟨⟨-, hnot⟩, -⟩
            exact absurd hmem hnot
        · rw [if_neg hmem, Except.ok.injEq]
          constructor
          · rintro rfl
            exact ⟨⟨Nat.lt_of_not_le hdepth, hmem⟩, Nat.le_of_not_lt hbudget, rfl⟩
          · exact fun h => h.2.2.symm
  · simp only [henters, Bool.false_eq_true, if_false, false_implies, true_and, Nat.add_zero,
      Except.ok.injEq]
    constructor
    · rintro rfl
      exact ⟨hsteps, rfl⟩
    · exact fun h => h.2.symm

/-- A pass succeeds if every module may be entered and the budget suffices for all of them.
It collects everything, sorted. -/
theorem pass_eq_ok_iff
    {os : List Occurrence}
    {steps : Nat}
    {r : Contributions × Nat}
    (hsteps : steps ≤ Limits.walkSteps) :
    pass modules os steps = .ok r ↔
      (∀ o ∈ os, o.Admitted modules)
        ∧ steps + os.countP (Occurrence.enters modules) ≤ Limits.walkSteps
        ∧ r = (sorted (os.map Occurrence.entry),
            steps + os.countP (Occurrence.enters modules)) := by
  induction os generalizing steps r with
  | nil =>
      rw [pass, Except.ok.injEq]
      constructor
      · rintro rfl
        exact ⟨List.forall_mem_nil _, hsteps, rfl⟩
      · exact fun h => h.2.2.symm
  | cons o os ih =>
      rw [List.map_cons, sorted_cons, List.countP_cons, pass]
      constructor
      · intro h
        cases hattempt : o.attempt modules steps with
        | error e =>
            rw [hattempt] at h
            cases h
        | ok steps' =>
            rw [hattempt] at h
            obtain ⟨hadmitted, hsteps', hcount⟩ := (attempt_eq_ok_iff hsteps).mp hattempt
            cases hpass : pass modules os steps' with
            | error e =>
                simp only [hpass] at h
                cases h
            | ok rest =>
                simp only [hpass] at h
                cases h
                obtain ⟨hall, hbudget, rfl⟩ := (ih hsteps').mp hpass
                have htotal : steps' + os.countP (Occurrence.enters modules)
                    = steps + (os.countP (Occurrence.enters modules)
                      + if o.enters modules = true then 1 else 0) := by
                  omega
                rw [← htotal]
                exact ⟨List.forall_mem_cons.mpr ⟨hadmitted, hall⟩, hbudget, rfl⟩
      · rintro ⟨hall, hbudget, rfl⟩
        have hattempt : o.attempt modules steps
            = .ok (steps + if o.enters modules = true then 1 else 0) :=
          (attempt_eq_ok_iff hsteps).mpr ⟨hall o List.mem_cons_self, by omega, rfl⟩
        have hrest : pass modules os (steps + if o.enters modules = true then 1 else 0)
            = .ok (sorted (os.map Occurrence.entry),
                steps + (if o.enters modules = true then 1 else 0)
                  + os.countP (Occurrence.enters modules)) :=
          (ih (by omega)).mpr ⟨(List.forall_mem_cons.mp hall).2, by omega, rfl⟩
        simp only [hattempt, hrest, Except.map, Except.ok.injEq, Prod.mk.injEq, true_and]
        omega

/-- A guard only takes a key for a repetition that is entered. -/
theorem mem_visiting_of_repeated
    {g g' : ExpansionGuard}
    {c : ClassifierId}
    (h : g.enter c = (.repeated, g')) :
    c ∈ g.visiting := by
  unfold Walk.Guard.enter at h
  dsimp only at h
  split at h
  · cases h
  · split at h
    · cases h
    · split at h
      · rename_i hmem
        exact hmem
      · cases h

/-- A module is reported as a cycle if it is entered already on the path to it. -/
theorem attempt_eq_moduleCycle
    {o : Occurrence}
    {steps : Nat}
    {c : ClassifierId}
    {names : List QName}
    (h : o.attempt modules steps = .error (.moduleCycle c names)) :
    o.enters modules = true ∧ o.declaration.type.classifier = c
      ∧ names = (o.path ++ [o.declaration]).map Declaration.name ∧ c ∈ o.entered := by
  unfold Occurrence.attempt at h
  split at h
  · rename_i henters
    split at h
    · cases h
    · rename_i outcome g hne hattempt
      cases outcome with
      | entered => exact absurd rfl hne
      | tooDeep => cases h
      | outOfSteps => cases h
      | repeated =>
          cases h
          refine ⟨henters, rfl, by simp, ?_⟩
          have hmem := mem_visiting_of_repeated hattempt
          rwa [guard, List.mem_reverse] at hmem
  · cases h

/-- A pass that reports a cycle met a module that is entered already on the path to it. -/
theorem pass_eq_moduleCycle
    {os : List Occurrence}
    {steps : Nat}
    {c : ClassifierId}
    {names : List QName}
    (h : pass modules os steps = .error (.moduleCycle c names)) :
    ∃ o ∈ os, o.enters modules = true ∧ o.declaration.type.classifier = c
      ∧ names = (o.path ++ [o.declaration]).map Declaration.name ∧ c ∈ o.entered := by
  induction os generalizing steps with
  | nil => cases h
  | cons o os ih =>
      rw [pass] at h
      cases hattempt : o.attempt modules steps with
      | error e =>
          simp only [hattempt] at h
          cases h
          exact ⟨o, List.mem_cons_self, attempt_eq_moduleCycle hattempt⟩
      | ok steps' =>
          simp only [hattempt] at h
          cases hpass : pass modules os steps' with
          | error e =>
              rw [hpass] at h
              cases h
              obtain ⟨o', ho', hcycle⟩ := ih hpass
              exact ⟨o', List.mem_cons_of_mem o ho', hcycle⟩
          | ok rest =>
              rw [hpass] at h
              cases h

/-! ## The result -/

variable (modules) in
/-- What a list of declarations must satisfy for its modules to be included. -/
structure Includable (ds : List Declaration) : Prop where
  /-- No path enters a module twice. -/
  acyclic : ∀ {path : List Declaration} {d : Declaration}, Includes modules ds path d →
    (included modules d).isSome = true → ((path ++ [d]).map (·.type.classifier)).Nodup
  /-- No path enters too many modules. -/
  shallow : ∀ {path : List Declaration} {d : Declaration}, Includes modules ds path d →
    (included modules d).isSome = true → (path ++ [d]).length ≤ Limits.moduleDepth
  /-- Not too many modules are entered altogether. -/
  few : ∀ levels : Nat,
    (listing modules levels [] ds).countP (Occurrence.enters modules) ≤ Limits.walkSteps

/-- If all modules may be entered, no path enters one twice. -/
theorem nodup_of_admitted
    {ds : List Declaration}
    (hall : ∀ {path : List Declaration} {d : Declaration}, Includes modules ds path d →
      Occurrence.Admitted modules ⟨path, d⟩)
    {path : List Declaration}
    {d : Declaration}
    (h : Includes modules ds path d)
    (henters : (included modules d).isSome = true) :
    ((path ++ [d]).map (·.type.classifier)).Nodup := by
  induction path using List.reverseRecOn generalizing d with
  | nil => simp
  | append_singleton path outer ih =>
      obtain ⟨hreached, houter⟩ := h.of_concat
      have hbefore := ih hreached houter
      have hnot := (hall h henters).2
      rw [List.map_append, List.map_singleton]
      refine List.nodup_append.mpr ⟨hbefore, List.pairwise_singleton _ _, fun c hc c' hc' => ?_⟩
      rw [List.mem_singleton.mp hc']
      exact fun heq => hnot (heq ▸ hc)

/-- Everything that is reached is listed, down to sufficiently many levels. -/
theorem Includes.mem_listing
    {ds path : List Declaration}
    {d : Declaration}
    (h : Includes modules ds path d)
    {levels : Nat}
    (hlevels : path.length ≤ levels) :
    ⟨path, d⟩ ∈ listing modules levels [] ds :=
  mem_listing_iff.mpr ⟨path, rfl, hlevels, h⟩

/-- What is listed is reached. -/
theorem includes_of_mem_listing
    {ds : List Declaration}
    {levels : Nat}
    {o : Occurrence}
    (h : o ∈ listing modules levels [] ds) :
    Includes modules ds o.path o.declaration := by
  obtain ⟨below, hpath, -, hreached⟩ := mem_listing_iff.mp h
  rwa [hpath]

/-- Expansion of a whole list is one pass over the list of the tree. -/
theorem each_nil_eq_pass
    (ds : List Declaration)
    {levels listed : Nat}
    (hlevels : Limits.moduleDepth ≤ levels)
    (hlisted : Limits.moduleDepth ≤ listed) :
    each (one modules levels []) ds (.ofProfile .moduleExpansion)
      = (pass modules (listing modules listed [] ds) 0).map (withGuard []) := by
  have hdeep {n : Nat} (h : Limits.moduleDepth ≤ n) :
      Limits.moduleDepth ≤ ([] : List Declaration).length + n := by
    rwa [List.length_nil, Nat.zero_add]
  exact each_eq_pass (hdeep hlevels) (hdeep hlisted) ds 0

/-- The bound of the levels is never what ends an expansion. -/
theorem each_eq_expand
    (ds : List Declaration)
    {levels : Nat}
    (hlevels : Limits.moduleDepth ≤ levels) :
    (each (one modules levels []) ds (.ofProfile .moduleExpansion)).map Prod.fst
      = expand modules ds := by
  rw [expand, each_nil_eq_pass ds hlevels (Nat.le_refl _),
    each_nil_eq_pass ds (Nat.le_refl _) (Nat.le_refl _)]

/-- Expansion is one pass over the list of the tree, however far it goes. -/
theorem expand_eq_pass
    (ds : List Declaration)
    {levels : Nat}
    (hlevels : Limits.moduleDepth ≤ levels) :
    expand modules ds = (pass modules (listing modules levels [] ds) 0).map Prod.fst := by
  rw [expand, each_nil_eq_pass ds (Nat.le_refl _) hlevels]
  cases pass modules (listing modules levels [] ds) 0 <;> rfl

/-- An expansion that succeeds collects everything in the tree. -/
theorem eq_sorted_of_expand
    {ds : List Declaration}
    {out : Contributions}
    (h : expand modules ds = .ok out)
    {levels : Nat}
    (hlevels : Limits.moduleDepth ≤ levels) :
    (∀ o ∈ listing modules levels [] ds, o.Admitted modules)
      ∧ (listing modules levels [] ds).countP (Occurrence.enters modules) ≤ Limits.walkSteps
      ∧ out = sorted ((listing modules levels [] ds).map Occurrence.entry) := by
  rw [expand_eq_pass ds hlevels] at h
  cases hpass : pass modules (listing modules levels [] ds) 0 with
  | error e =>
      rw [hpass] at h
      cases h
  | ok r =>
      rw [hpass] at h
      cases h
      obtain ⟨hall, hbudget, rfl⟩ := (pass_eq_ok_iff (Nat.zero_le _)).mp hpass
      exact ⟨hall, by omega, rfl⟩

/-- Expansion succeeds exactly if all modules in the tree can be included. -/
theorem expand_ok_iff
    (ds : List Declaration) :
    (∃ out, expand modules ds = .ok out) ↔ Includable modules ds := by
  constructor
  · rintro ⟨out, hout⟩
    have hall {path : List Declaration} {d : Declaration} (h : Includes modules ds path d) :
        Occurrence.Admitted modules ⟨path, d⟩ := by
      have hlevels : Limits.moduleDepth ≤ max Limits.moduleDepth path.length :=
        Nat.le_max_left _ _
      exact (eq_sorted_of_expand hout hlevels).1 _ (h.mem_listing (Nat.le_max_right _ _))
    refine ⟨nodup_of_admitted hall, fun h henters => ?_, fun levels => ?_⟩
    · rw [List.length_append, List.length_singleton]
      exact (hall h henters).1
    · have hmore : (listing modules levels [] ds).Sublist
          (listing modules (Limits.moduleDepth + levels) [] ds) := by
        rw [Nat.add_comm]
        generalize Limits.moduleDepth = more
        induction more with
        | zero => exact List.Sublist.refl _
        | succ more ih => exact ih.trans (listing_sublist _ _ _)
      exact Nat.le_trans hmore.countP_le
        (eq_sorted_of_expand hout (Nat.le_add_right _ _)).2.1
  · intro h
    have hall : ∀ o ∈ listing modules Limits.moduleDepth [] ds, o.Admitted modules := by
      intro o ho henters
      have hreached := includes_of_mem_listing ho
      refine ⟨?_, ?_⟩
      · have hlength := h.shallow hreached henters
        rwa [List.length_append, List.length_singleton] at hlength
      · have hnodup := h.acyclic hreached henters
        rw [List.map_append, List.map_singleton, List.nodup_append] at hnodup
        exact fun hmem => hnodup.2.2 _ hmem _ (List.mem_singleton_self _) rfl
    have hpass := (pass_eq_ok_iff (Nat.zero_le _)).mpr
      ⟨hall, by rw [Nat.zero_add]; exact h.few _, rfl⟩
    exact ⟨_, by rw [expand_eq_pass ds (Nat.le_refl _), hpass]; rfl⟩

/-- Expansion comes to an end by itself.  It succeeds exactly if no path of the tree enters a
module twice or too many modules, and not too many are entered altogether.  Then it collects
all declarations of the tree in pre-order, with the receivers they are reached through.  A
reported cycle is the path to a module that is entered already on it. -/
theorem expand_exact
    (modules : ClassifierId → Option Module)
    (ds : List Declaration) :
    (∀ levels, Limits.moduleDepth ≤ levels →
        (each (one modules levels []) ds (.ofProfile .moduleExpansion)).map Prod.fst
          = expand modules ds)
      ∧ ((∃ out, expand modules ds = .ok out) ↔ Includable modules ds)
      ∧ (∀ out, expand modules ds = .ok out → ∀ levels, Limits.moduleDepth ≤ levels →
        out = sorted ((listing modules levels [] ds).map Occurrence.entry))
      ∧ ∀ c names, expand modules ds = .error (.moduleCycle c names) →
        ∃ path d, Includes modules ds path d ∧ (included modules d).isSome = true
          ∧ d.type.classifier = c ∧ names = (path ++ [d]).map Declaration.name
          ∧ c ∈ path.map (·.type.classifier) := by
  refine ⟨fun levels => each_eq_expand ds, expand_ok_iff ds,
    fun out hout levels hlevels => (eq_sorted_of_expand hout hlevels).2.2, ?_⟩
  intro c names h
  rw [expand_eq_pass ds (Nat.le_refl _)] at h
  cases hpass : pass modules (listing modules Limits.moduleDepth [] ds) 0 with
  | ok r =>
      rw [hpass] at h
      cases h
  | error e =>
      rw [hpass] at h
      cases h
      obtain ⟨o, ho, henters, hc, hnames, hmem⟩ := pass_eq_moduleCycle hpass
      exact ⟨o.path, o.declaration, includes_of_mem_listing ho, henters, hc, hnames, hmem⟩

/-- A module over a type parameter, which includes another one over boxes of it. -/
def nestedModules (c : ClassifierId) : Option Module :=
  if c = ⟨16⟩ then
    some
      { classifier := ⟨16⟩
        typeParameters := [⟨17⟩]
        declarations :=
          [{ name := ⟨"outer.inner"⟩
             type := .generic ⟨18⟩ [.generic ⟨20⟩ [.of ⟨17⟩]]
             role := .moduleInclude }] }
  else if c = ⟨18⟩ then
    some
      { classifier := ⟨18⟩
        typeParameters := [⟨19⟩]
        declarations := [{ name := ⟨"inner.value"⟩, type := .of ⟨19⟩ }] }
  else none

/-- A declaration that includes the outer module. -/
def outerInclude : Declaration where
  name := ⟨"app.outer"⟩
  type := .generic ⟨16⟩ [.of ⟨21⟩]
  role := .moduleInclude

/-- Along the path through both modules, the value of the inner one comes to be a box of what
the outer one is included with. -/
theorem nestedModules_expand_exact :
    ∃ out, expand nestedModules [outerInclude] = .ok out
      ∧ Includable nestedModules [outerInclude]
      ∧ out = sorted ((listing nestedModules Limits.moduleDepth [] [outerInclude]).map
          Occurrence.entry)
      ∧ (listing nestedModules Limits.moduleDepth [] [outerInclude]).map
          (fun o => (o.path.map Declaration.type, o.declaration.type))
        = [ ([], .generic ⟨16⟩ [.of ⟨21⟩]),
            ([.generic ⟨16⟩ [.of ⟨21⟩]], .generic ⟨18⟩ [.generic ⟨20⟩ [.of ⟨21⟩]]),
            ([.generic ⟨16⟩ [.of ⟨21⟩], .generic ⟨18⟩ [.generic ⟨20⟩ [.of ⟨21⟩]]],
              .generic ⟨20⟩ [.of ⟨21⟩]) ]
      ∧ out.bindings.map (fun e => (e.origin, e.declaration.type, e.receivers))
        = [ (⟨"app.outer"⟩, .generic ⟨16⟩ [.of ⟨21⟩], []),
            (⟨"outer.inner"⟩, .generic ⟨18⟩ [.generic ⟨20⟩ [.of ⟨21⟩]], [⟨"app.outer"⟩]),
            (⟨"inner.value"⟩, .generic ⟨20⟩ [.of ⟨21⟩],
              [⟨"app.outer"⟩, ⟨"outer.inner"⟩]) ] := by
  obtain ⟨-, hsucceeds, hcollects, -⟩ := expand_exact nestedModules [outerInclude]
  have hbindings : ((expand nestedModules [outerInclude]).toOption.map fun out =>
      out.bindings.map (fun e => (e.origin, e.declaration.type, e.receivers)))
        = some
          [ (⟨"app.outer"⟩, .generic ⟨16⟩ [.of ⟨21⟩], []),
            (⟨"outer.inner"⟩, .generic ⟨18⟩ [.generic ⟨20⟩ [.of ⟨21⟩]], [⟨"app.outer"⟩]),
            (⟨"inner.value"⟩, .generic ⟨20⟩ [.of ⟨21⟩],
              [⟨"app.outer"⟩, ⟨"outer.inner"⟩]) ] := by
    decide +kernel
  cases hout : expand nestedModules [outerInclude] with
  | error e =>
      rw [hout] at hbindings
      cases hbindings
  | ok out =>
      rw [hout] at hbindings
      exact ⟨out, rfl, hsucceeds.mp ⟨out, hout⟩, hcollects out hout _ (Nat.le_refl _),
        by decide +kernel, Option.some.inj hbindings⟩

end Expansion
end Wiring
