import Wiring.ResolutionError
import Wiring.Walk

/-!
# Expansion of modules

A list of declarations is expanded before anything is resolved: each module is
followed by its members, with the module's type parameters substituted by the
arguments it is included with, and so on through the modules among the members.
The outcome is sorted by what the declarations contribute.

A module declaration is itself a binding, because its members need the module
as their receiver.
-/

namespace Wiring

/-- The members of a module, expressed over its type parameters. -/
structure Module where
  classifier : ClassifierId
  typeParameters : List ClassifierId := []
  declarations : List Declaration := []

/-- Expanded declarations, sorted by what they contribute. -/
structure Contributions where
  bindings : List Entry := []
  setElements : List Entry := []
  mapEntries : List Entry := []
  interceptors : List Entry := []
  /-- Set and map types that are declared to exist. -/
  multibinds : List Ty := []
  deriving DecidableEq

namespace Contributions

/-- Contributions of two lists, one after the other. -/
def append (a b : Contributions) : Contributions :=
  { bindings := a.bindings ++ b.bindings
    setElements := a.setElements ++ b.setElements
    mapEntries := a.mapEntries ++ b.mapEntries
    interceptors := a.interceptors ++ b.interceptors
    multibinds := a.multibinds ++ b.multibinds }

instance : Append Contributions := ⟨append⟩

/-- Whether nothing is contributed. -/
def isEmpty (c : Contributions) : Bool :=
  c.bindings.isEmpty && c.setElements.isEmpty && c.mapEntries.isEmpty
    && c.interceptors.isEmpty && c.multibinds.isEmpty

/-- What one declaration contributes by itself. -/
def ofEntry (e : Entry) : Contributions :=
  match e.declaration.role with
  | .binding => { bindings := [e] }
  | .moduleInclude => { bindings := [e] }
  | .setElement => { setElements := [e] }
  | .mapEntry => { mapEntries := [e] }
  | .interceptor => { interceptors := [e] }
  | .multibinds => { multibinds := [e.declaration.type] }
  | .inert => {}

@[simp] theorem empty_append (c : Contributions) : ({} : Contributions) ++ c = c := by
  cases c
  rfl

@[simp] theorem append_empty (c : Contributions) : c ++ ({} : Contributions) = c := by
  change append c {} = c
  simp [append]

end Contributions

/-- The guard of an expansion, keyed by module classifiers. -/
abbrev ExpansionGuard := Walk.Guard ClassifierId

/-- What an expansion comes to, with the guard it leaves behind. -/
abbrev ExpansionResult := Except ResolutionError (Contributions × ExpansionGuard)

namespace Expansion

/-- Expand a list, one declaration being expanded by `one`. -/
def each (one : Declaration → ExpansionGuard → ExpansionResult) :
    List Declaration → ExpansionGuard → ExpansionResult
  | [], g => .ok ({}, g)
  | d :: ds, g =>
      match one d g with
      | .error e => .error e
      | .ok (first, g) =>
          match each one ds g with
          | .error e => .error e
          | .ok (rest, g) => .ok (first ++ rest, g)

/-- Why a module must not be entered, for a guard outcome that refuses it. -/
def refusal (path : List QName) (d : Declaration) (g : ExpansionGuard) :
    Walk.Outcome → ResolutionError
  | .repeated => .moduleCycle d.type.classifier (path ++ [d.name])
  | .outOfSteps => .stepBudgetExceeded d.type g.maxSteps []
  | _ => .depthExceeded d.type g.depth []

/-- Expand one declaration that was reached along a path of module
declarations, entering at most `levels` more modules. -/
def one (modules : ClassifierId → Option Module) :
    (levels : Nat) → (path : List QName) → Declaration → ExpansionGuard →
      ExpansionResult
  | levels, path, d, g =>
      let self := Contributions.ofEntry { declaration := d, receivers := path }
      if d.role ≠ .moduleInclude then .ok (self, g)
      else
        match modules d.type.classifier with
        | none => .ok (self, g)
        | some m =>
            match g.enter d.type.classifier with
            | (.entered, g) =>
                match levels with
                | 0 => .error (refusal path d g .tooDeep)
                | levels + 1 =>
                    let σ := Substitution.ofArguments m.typeParameters d.type.arguments
                    match each (one modules levels (path ++ [d.name]))
                        (m.declarations.map (fun member => member.substitute σ)) g with
                    | .error e => .error e
                    | .ok (members, g) =>
                        .ok (self ++ members, g.leave d.type.classifier)
            | (outcome, g) => .error (refusal path d g outcome)

end Expansion

/-- Expand declarations into sorted contributions. -/
def expand (modules : ClassifierId → Option Module) (ds : List Declaration) :
    Except ResolutionError Contributions :=
  (Expansion.each (Expansion.one modules Limits.moduleDepth []) ds
    (.ofProfile .moduleExpansion)).map Prod.fst

end Wiring
