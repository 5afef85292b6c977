import Wiring.QName
import Wiring.Ty

/-!
# The registry of classifiers and qualifiers

Every class, interface, object and type parameter is registered here before
anything is resolved.  Resolution only ever sees identities; the names kept here
are for diagnostics.

Identities are handed out in order of registration, from
`ClassifierId.firstRegistered` on for classifiers and from zero on for
qualifiers, so an identity is a position.  A qualifier name registered twice keeps
its first identity, whereas a classifier name registered twice is looked up to its
last.

**Results.**
* `classifier?_register_self`: a classifier is known under the identity it was given.
-/

namespace Wiring

/-- Properties of a classifier that change how requests for it resolve. -/
inductive ClassifierFlag where
  /-- A singleton object: a request resolves to the object itself. -/
  | object
  /-- A generic type parameter, bound by unification. -/
  | typeParameter
  /-- A name for a function: a request resolves to an invocation of it. -/
  | funAlias
  /-- A component, which can own scoped bindings. -/
  | component
  /-- A component made by a factory of its parent component. -/
  | childComponent
  /-- A wrapper that stands for a function without parameters. -/
  | inlineProvider
  /-- A classifier that is always there. -/
  | builtin
  deriving DecidableEq

namespace ClassifierFlag

/-- All flags, in their fixed order. -/
def all : List ClassifierFlag :=
  [object, typeParameter, funAlias, component, childComponent, inlineProvider,
    builtin]

end ClassifierFlag

/-- Everything that resolution needs to know about one classifier. -/
structure Classifier where
  name : QName
  flags : List ClassifierFlag := []
  /-- Declared type parameters, in order. -/
  typeParameters : List ClassifierId := []
  /-- Declared direct supertypes, expressed over the type parameters. -/
  supertypes : List Ty := []
  /-- Upper bounds, which only matter for type parameters. -/
  upperBounds : List Ty := []
  deriving DecidableEq

/-- The classifiers and qualifiers of one build. -/
structure Registry where
  /-- The built-in classifiers; the position is the identity. -/
  builtins : Array Classifier
  /-- The other classifiers; the position counts from `ClassifierId.firstRegistered`
  on. -/
  registered : Array Classifier := #[]
  /-- Qualifier names; the position is the identity. -/
  qualifiers : List QName := []

namespace Registry

/-- The registry that knows the built-in classifiers only. -/
def initial : Registry :=
  { builtins :=
      #["Any", "Function", "SuspendFunction", "ComposableFunction", "Set", "Map"].map
        (fun name => { name := ⟨name⟩, flags := [.builtin] }) }

/-! ## Registration -/

/-- Identity of the next classifier. -/
def next (R : Registry) : ClassifierId :=
  ⟨ClassifierId.firstRegistered.index + R.registered.size⟩

/-- Register a classifier under the next free identity. -/
def register (R : Registry) (c : Classifier) : ClassifierId × Registry :=
  (R.next, { R with registered := R.registered.push c })

/-- Change what is known about a classifier; an unknown one stays unknown. -/
def update (R : Registry) (id : ClassifierId) (f : Classifier → Classifier) :
    Registry :=
  if id.isBuiltin then { R with builtins := R.builtins.modify id.index f }
  else
    { R with registered :=
        R.registered.modify (id.index - ClassifierId.firstRegistered.index) f }

/-- Declare one more supertype of a classifier. -/
def addSupertype (R : Registry) (id : ClassifierId) (supertype : Ty) : Registry :=
  R.update id (fun c => { c with supertypes := c.supertypes ++ [supertype] })

/-- Declare the type parameters of a classifier. -/
def setTypeParameters (R : Registry) (id : ClassifierId)
    (parameters : List ClassifierId) : Registry :=
  R.update id (fun c => { c with typeParameters := parameters })

/-- Register a qualifier, or find the identity it already has. -/
def registerQualifier (R : Registry) (name : QName) : QualifierId × Registry :=
  match R.qualifiers.idxOf? name with
  | some i => (⟨i⟩, R)
  | none =>
      (⟨R.qualifiers.length⟩, { R with qualifiers := R.qualifiers ++ [name] })

/-! ## Queries -/

/-- What is known about a classifier. -/
def classifier? (R : Registry) (id : ClassifierId) : Option Classifier :=
  if id.isBuiltin then R.builtins[id.index]?
  else R.registered[id.index - ClassifierId.firstRegistered.index]?

/-- Whether a classifier is known. -/
def contains (R : Registry) (id : ClassifierId) : Bool :=
  (R.classifier? id).isSome

/-- All classifiers with their identities, the built-in ones first and then in order
of registration. -/
def entries (R : Registry) : List (ClassifierId × Classifier) :=
  R.builtins.toList.zipIdx.map (fun p => (⟨p.2⟩, p.1))
    ++ R.registered.toList.zipIdx.map
      (fun p => (⟨ClassifierId.firstRegistered.index + p.2⟩, p.1))

/-- The classifier registered last under a name. -/
def find? (R : Registry) (name : QName) : Option ClassifierId :=
  (R.entries.reverse.find? (fun p => p.2.name = name)).map Prod.fst

/-- The name of a classifier. -/
def name? (R : Registry) (id : ClassifierId) : Option QName :=
  (R.classifier? id).map Classifier.name

/-- The name of a qualifier. -/
def qualifierName? (R : Registry) (q : QualifierId) : Option QName :=
  R.qualifiers[q.index]?

/-- Flags of a classifier; an unknown one has none. -/
def flags (R : Registry) (id : ClassifierId) : List ClassifierFlag :=
  ((R.classifier? id).map Classifier.flags).getD []

/-- Whether a classifier has a flag. -/
def hasFlag (R : Registry) (id : ClassifierId) (flag : ClassifierFlag) : Bool :=
  (R.flags id).contains flag

/-- Whether a classifier is a type parameter. -/
def isTypeParameter (R : Registry) (id : ClassifierId) : Bool :=
  R.hasFlag id .typeParameter

/-- Upper bounds of a type parameter. -/
def upperBounds (R : Registry) (id : ClassifierId) : List Ty :=
  ((R.classifier? id).map Classifier.upperBounds).getD []

/-- Declared direct supertypes of a classifier. -/
def supertypes (R : Registry) (id : ClassifierId) : List Ty :=
  ((R.classifier? id).map Classifier.supertypes).getD []

/-- Number of known classifiers, the built-in ones included. -/
def size (R : Registry) : Nat := R.builtins.size + R.registered.size

/-- No built-in classifier is registered again. -/
@[simp] theorem isBuiltin_next (R : Registry) : R.next.isBuiltin = false :=
  decide_eq_false (Nat.not_lt.2 (Nat.le_add_right _ _))

/-- A classifier is known under the identity that it was given. -/
@[simp] theorem classifier?_register_self (R : Registry) (c : Classifier) :
    (R.register c).2.classifier? (R.register c).1 = some c := by
  have h := R.isBuiltin_next
  simp only [next] at h
  simp [register, classifier?, next, h]

@[simp] theorem size_register (R : Registry) (c : Classifier) :
    (R.register c).2.size = R.size + 1 := by
  simp [register, size, Nat.add_assoc]

@[simp] theorem size_update (R : Registry) (id : ClassifierId)
    (f : Classifier → Classifier) : (R.update id f).size = R.size := by
  unfold update
  split <;> simp [size]

end Registry
end Wiring
