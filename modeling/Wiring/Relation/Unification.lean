import Wiring.Registry.Hierarchy

/-!
# Unification with a pattern

A concrete type is matched against a pattern that mentions type parameters; the
outcome binds each parameter to the part of the concrete type it stands for.

A parameter takes the concrete part without the qualifiers that the pattern
spells out, and without nullability where the pattern is nullable itself.  A
parameter that occurs again has to stand for the same type.  Star projections on
either side leave parameters unbound.
-/

namespace Wiring
namespace Registry

/-- What a parameter occurring as `pattern` stands for in `concrete`. -/
def parameterValue (concrete pattern : Ty) : Ty :=
  { concrete with
    qualifiers := concrete.qualifiers.without pattern.qualifiers
    nullable := concrete.nullable && !pattern.nullable }

/-- Bind a parameter, or compare with what it is bound to. -/
def bindParameter (σ : Substitution) (parameter : ClassifierId) (value : Ty) :
    Option Substitution :=
  match σ.lookup parameter with
  | some bound => if bound = value then some σ else none
  | none => some (σ ++ [(parameter, value)])

/-- Extend `σ` so that the pattern becomes the concrete type, comparing them on
at most `levels` levels. -/
def unifyWithin (R : Registry) :
    (levels : Nat) → (concrete pattern : Ty) → Substitution → Option Substitution
  | 0, _, _, _ => none
  | levels + 1, concrete, pattern, σ =>
      if pattern.star then some σ
      else if R.isTypeParameter pattern.classifier then
        if concrete.star then some σ
        else if pattern.qualifiers.isSubset concrete.qualifiers then
          bindParameter σ pattern.classifier (parameterValue concrete pattern)
        else none
      else if concrete.star then none
      else
        match R.subtypeView? concrete pattern.classifier with
        | none => none
        | some view =>
            if view.arguments.length = pattern.arguments.length then
              (view.arguments.zip pattern.arguments).foldlM
                (fun σ p => unifyWithin R levels p.1 p.2 σ) σ
            else none

/-- The bindings under which the pattern becomes the concrete type, if the two
agree. -/
def tryUnify (R : Registry) (concrete pattern : Ty) : Option Substitution :=
  R.unifyWithin (Limits.relationDepth + 1) concrete pattern []

/-- The bindings of `tryUnify`, of which there are none if the types disagree. -/
def substitutionMap (R : Registry) (concrete pattern : Ty) : Substitution :=
  (R.tryUnify concrete pattern).getD []

end Registry
end Wiring
