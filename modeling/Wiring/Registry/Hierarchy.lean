import Wiring.Registry
import Wiring.Ty.Substitution
import Wiring.Walk

/-!
# The hierarchy of classifiers

Three walks over declared supertypes:

* `isSubclassifier` asks whether one classifier is above another,
* `supertypeClosure` lists everything above a classifier, nearest first,
* `subtypeView?` sees a type as an instance of a classifier above its own,
  substituting type arguments on the way.

The first and the last go depth first under a guard, so a cyclic declaration
ends them with the answer that nothing was found on that path.
-/

namespace Wiring
namespace Registry

section Reachability

variable (R : Registry) (target : ClassifierId)

/-- Whether some classifier of a list is the target or leads to it, the step
from a classifier to the ones above it being `leads`. -/
def anyLeads
    (leads : ClassifierId → Walk.Guard ClassifierId → Bool × Walk.Guard ClassifierId) :
    List ClassifierId → Walk.Guard ClassifierId → Bool × Walk.Guard ClassifierId
  | [], g => (false, g)
  | c :: cs, g =>
      if c = target then (true, g)
      else
        match leads c g with
        | (true, g) => (true, g)
        | (false, g) => anyLeads leads cs g

/-- Whether `id` leads to the target along at most `levels` declared steps. -/
def leadsTo :
    Nat → ClassifierId → Walk.Guard ClassifierId → Bool × Walk.Guard ClassifierId
  | levels, id, g =>
      match g.enter id with
      | (.entered, g) =>
          match levels with
          | 0 => (false, g.leave id)
          | levels + 1 =>
              let (found, g) := anyLeads target (leadsTo levels)
                ((R.supertypes id).map Ty.classifier) g
              (found, g.leave id)
      | (_, g) => (false, g)

end Reachability

/-- Whether `sub` is `sup` or declares it as a supertype, possibly through
others.  Every classifier is below the top classifier. -/
def isSubclassifier (R : Registry) (sub sup : ClassifierId) : Bool :=
  if sub = sup || sup = .any then true
  else
    (R.leadsTo sup Limits.supertypeDepth sub (.ofProfile .supertypeWalk)).1

/-- Append the classifiers that are not listed yet, in order and once each. -/
def addUnlisted (listed new : List ClassifierId) : List ClassifierId :=
  new.foldl (fun acc c => if c ∈ acc then acc else acc ++ [c]) listed

/-- Complete a partial closure whose classifiers before `cursor` are done. -/
def closeFrom (R : Registry) :
    (rounds cursor : Nat) → List ClassifierId → List ClassifierId
  | 0, _, closure => closure
  | rounds + 1, cursor, closure =>
      match closure[cursor]? with
      | none => closure
      | some c =>
          if Limits.walkSteps < closure.length then closure
          else
            closeFrom R rounds (cursor + 1)
              (addUnlisted closure ((R.supertypes c).map Ty.classifier))

/-- A classifier followed by all classifiers above it, each listed once, in
breadth-first order. -/
def supertypeClosure (R : Registry) (id : ClassifierId) : List ClassifierId :=
  R.closeFrom (Limits.walkSteps + 1) 0 [id]

section View

variable (R : Registry) (target : ClassifierId)

/-- The first view that one of several supertypes has. -/
def firstView
    (view : Ty → Walk.Guard ClassifierId → Option Ty × Walk.Guard ClassifierId) :
    List Ty → Walk.Guard ClassifierId → Option Ty × Walk.Guard ClassifierId
  | [], g => (none, g)
  | t :: ts, g =>
      match view t g with
      | (some found, g) => (some found, g)
      | (none, g) => firstView view ts g

/-- View `t` as the target along at most `levels` declared steps. -/
def viewWithin :
    Nat → Ty → Walk.Guard ClassifierId → Option Ty × Walk.Guard ClassifierId
  | levels, t, g =>
      if t.classifier = target then (some t, g)
      else
        match R.classifier? t.classifier with
        | none => (none, g)
        | some c =>
            if c.supertypes.isEmpty then (none, g)
            else
              match g.enter t.classifier with
              | (.entered, g) =>
                  match levels with
                  | 0 => (none, g.leave t.classifier)
                  | levels + 1 =>
                      let σ := Substitution.ofArguments c.typeParameters t.arguments
                      let (found, g) := firstView (viewWithin levels)
                        (c.supertypes.map (Ty.substitute σ)) g
                      (found, g.leave t.classifier)
              | (_, g) => (none, g)

end View

/-- View `t` as an instance of `target`, substituting type arguments along the
path of supertypes.  Qualifiers and nullability of `t` are kept. -/
def subtypeView? (R : Registry) (t : Ty) (target : ClassifierId) : Option Ty :=
  if t.classifier = target then some t
  else
    (R.viewWithin target Limits.supertypeDepth t (.ofProfile .supertypeWalk)).1.map
      (fun view => { view with qualifiers := t.qualifiers, nullable := t.nullable })

@[simp] theorem isSubclassifier_self (R : Registry) (c : ClassifierId) :
    R.isSubclassifier c c = true := by
  simp [isSubclassifier]

@[simp] theorem isSubclassifier_any (R : Registry) (c : ClassifierId) :
    R.isSubclassifier c .any = true := by
  simp [isSubclassifier]

@[simp] theorem subtypeView?_self (R : Registry) (t : Ty) :
    R.subtypeView? t t.classifier = some t := by
  simp [subtypeView?]

end Registry
end Wiring
