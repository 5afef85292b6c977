import Wiring.Limits

/-!
# Guards of recursive walks

Two guards bound a recursive walk.

* `Walk.Guard` remembers the keys that are currently entered, so that a key
  met twice on one path is reported as a repetition.
* `Walk.Counter` only counts.  The chain of requests uses it, because meeting a
  node twice there is legal or not depending on what lies in between.

Both also count every attempt to enter against a step budget, so a walk that
fans out without getting deeper still ends.
-/

namespace Wiring
namespace Walk

/-- What an attempt to enter one more level comes to. -/
inductive Outcome where
  | entered
  | repeated
  | tooDeep
  | outOfSteps
  deriving DecidableEq

/-- The kinds of walk with fixed bounds. -/
inductive Profile where
  | moduleExpansion
  | supertypeWalk
  | typeRelation
  deriving DecidableEq

/-- Deepest nesting of a walk of this kind. -/
def Profile.maxDepth : Profile → Nat
  | moduleExpansion => Limits.moduleDepth
  | supertypeWalk => Limits.supertypeDepth
  | typeRelation => Limits.relationDepth

/-- Step budget of a walk of this kind. -/
def Profile.maxSteps : Profile → Nat
  | _ => Limits.walkSteps

/-- The keys entered by a walk, with its depth and step counters. -/
structure Guard (κ : Type) where
  visiting : List κ := []
  depth : Nat := 0
  steps : Nat := 0
  maxDepth : Nat
  maxSteps : Nat

namespace Guard

variable {κ : Type} [DecidableEq κ]

/-- A fresh guard with the bounds of a profile. -/
def ofProfile (p : Profile) : Guard κ :=
  { maxDepth := p.maxDepth, maxSteps := p.maxSteps }

/-- Try to enter `key`.  The attempt costs a step whether it succeeds or not. -/
def enter (g : Guard κ) (key : κ) : Outcome × Guard κ :=
  let g := { g with steps := min (g.steps + 1) Limits.counterCeiling }
  if g.maxSteps < g.steps then
    (.outOfSteps, g)
  else if g.maxDepth ≤ g.depth then
    (.tooDeep, g)
  else if key ∈ g.visiting then
    (.repeated, g)
  else
    (.entered, { g with visiting := key :: g.visiting, depth := g.depth + 1 })

/-- Leave `key`, which was entered before. -/
def leave (g : Guard κ) (key : κ) : Guard κ :=
  { g with visiting := g.visiting.erase key, depth := g.depth - 1 }

end Guard

/-- Depth and step counters without a set of visited keys. -/
structure Counter where
  depth : Nat := 0
  steps : Nat := 0
  maxDepth : Nat
  maxSteps : Nat
  deriving DecidableEq

namespace Counter

/-- Try to enter one more level.  Never comes to `Outcome.repeated`. -/
def enter (c : Counter) : Outcome × Counter :=
  let c := { c with steps := min (c.steps + 1) Limits.counterCeiling }
  if c.maxSteps < c.steps then
    (.outOfSteps, c)
  else if c.maxDepth ≤ c.depth then
    (.tooDeep, c)
  else
    (.entered, { c with depth := c.depth + 1 })

/-- Leave the innermost level. -/
def leave (c : Counter) : Counter :=
  { c with depth := c.depth - 1 }

end Counter
end Walk
end Wiring
