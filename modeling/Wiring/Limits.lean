/-!
# Bounds of the recursive walks

Resolution walks over declarations that come from outside and may be
malformed: a generic declaration can ask for ever larger instances of itself,
a module can include itself, a supertype list can be cyclic.  Every walk is
therefore bounded by one of the constants of this module.
-/

namespace Wiring
namespace Limits

/-- Longest chain of nested requests, unless the options say otherwise. -/
def requestDepth : Nat := 200

/-- Most requests one resolution may make, unless the options say otherwise. -/
def requestSteps : Nat := 1000000

/-- Deepest nesting of module includes. -/
def moduleDepth : Nat := 32

/-- Longest path of declared supertypes that is followed. -/
def supertypeDepth : Nat := 64

/-- Deepest nesting of type arguments that two types are compared at. -/
def relationDepth : Nat := 100

/-- Most entries one guarded walk may make, however shallow it stays. -/
def walkSteps : Nat := 100000

/-- Step counters stop counting at this value. -/
def counterCeiling : Nat := 4294967295

end Limits
end Wiring
