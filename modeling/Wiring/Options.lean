import Wiring.Limits

/-!
# Options of a resolution
-/

namespace Wiring

/-- What can be adjusted for one build. -/
structure Options where
  /-- Longest chain of nested requests. -/
  maxDepth : Nat := Limits.requestDepth
  /-- Most requests that one top-level resolution may make. -/
  maxSteps : Nat := Limits.requestSteps
  /-- Merge star-projected instantiations after a batch of requests. -/
  mergeStars : Bool := true
  /-- Let every set and map exist, even without a declaration anywhere. -/
  emptyCollections : Bool := false
  /-- Let a binding with the override policy replace an earlier one. -/
  allowOverrides : Bool := true
  deriving DecidableEq, Inhabited

end Wiring
