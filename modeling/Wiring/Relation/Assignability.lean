import Wiring.Registry.Hierarchy

/-!
# Assignability

A value of the source type can stand where the target type is asked for when

1. the target is a star projection, or
2. the qualifiers are equal, the target is nullable or the source is not, and
   the source, viewed as the target's classifier, has pairwise assignable type
   arguments.

A type parameter on either side is compared through its upper bounds: one of
them has to fit on the left, all of them on the right.  Types nested deeper than
`Limits.relationDepth` are not assignable.
-/

namespace Wiring
namespace Registry

/-- Whether a test holds position by position, for lists of one length. -/
def allPairs (test : Ty → Ty → Bool) (source target : List Ty) : Bool :=
  source.length == target.length
    && (source.zip target).all (fun p => test p.1 p.2)

/-- Assignability of types that are compared on at most `levels` levels. -/
def assignableWithin (R : Registry) : (levels : Nat) → Ty → Ty → Bool
  | 0, _, _ => false
  | levels + 1, source, target =>
      if target.star then true
      else if source.star then false
      else if source.nullable && !target.nullable then false
      else if source.qualifiers ≠ target.qualifiers then false
      else if source.classifier = target.classifier then
        allPairs (assignableWithin R levels) source.arguments target.arguments
      else if R.isTypeParameter source.classifier then
        (R.upperBounds source.classifier).any
          (fun bound => assignableWithin R levels bound target.unqualified)
      else if R.isTypeParameter target.classifier then
        (R.upperBounds target.classifier).all
          (fun bound => assignableWithin R levels source.unqualified.nonNull bound)
      else if target.classifier = .any then true
      else
        match R.subtypeView? source target.classifier with
        | some view =>
            allPairs (assignableWithin R levels) view.arguments target.arguments
        | none => false

/-- Whether a value of type `source` can satisfy a request for `target`. -/
def isAssignable (R : Registry) (source target : Ty) : Bool :=
  R.assignableWithin (Limits.relationDepth + 1) source target

end Registry
end Wiring
