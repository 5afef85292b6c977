/-!
# Identities

Classifiers, qualifiers, scopes and nodes refer to each other by number.  Each
kind of number has a type of its own, so that one is never taken for another.
-/

namespace Wiring

/-- Identity of a declared classifier: a class, an interface, an object, a type
parameter, or one of the built-in ones below. -/
structure ClassifierId where
  index : Nat
  deriving DecidableEq, Inhabited

/-- Identity of a registered qualifier. -/
@[ext] structure QualifierId where
  index : Nat
  deriving DecidableEq, Inhabited

/-- Position of a scope in the scope tree. -/
structure ScopeId where
  index : Nat
  deriving DecidableEq, Inhabited

/-- Position of a node in the node arena. -/
structure NodeId where
  index : Nat
  deriving DecidableEq, Inhabited

namespace ClassifierId

/-- The top type. -/
def any : ClassifierId := ⟨0⟩

/-- Functions that are called from anywhere. -/
def function : ClassifierId := ⟨1⟩

/-- Functions that are called from suspending code only. -/
def suspendFunction : ClassifierId := ⟨2⟩

/-- Functions that are called from composable code only. -/
def composableFunction : ClassifierId := ⟨3⟩

/-- Sets of collected elements. -/
def set : ClassifierId := ⟨4⟩

/-- Maps of collected entries. -/
def map : ClassifierId := ⟨5⟩

/-- The first identity that a registered classifier gets; the ones below are
built in or held back. -/
def firstRegistered : ClassifierId := ⟨16⟩

/-- Whether the classifier is below the registered ones. -/
def isBuiltin (c : ClassifierId) : Bool :=
  c.index < firstRegistered.index

/-- Whether the classifier is one of the three kinds of function. -/
def isFunction (c : ClassifierId) : Bool :=
  c = function || c = suspendFunction || c = composableFunction

end ClassifierId
end Wiring
