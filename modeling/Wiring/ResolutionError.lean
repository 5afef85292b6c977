import Wiring.Declaration
import Wiring.Diagnostic
import Wiring.Request
import Wiring.Ty.Format

/-!
# Why a resolution fails

Every error ends the top-level request it arises in.  Its message can be written
without a registry, with types as numbers, or with the names of one.
-/

namespace Wiring

/-- What identifies an entry of a collection. -/
inductive EntryKey where
  /-- A set element, by the declaration it comes from. -/
  | element (origin : QName)
  /-- A map entry, by its explicit key. -/
  | key (key : MapKey)
  deriving DecidableEq

/-- Why a resolution fails. -/
inductive ResolutionError where
  /-- No candidate anywhere, for a request that has to be answered.  The chain
  runs from the top-level request to this one. -/
  | missing (type : Ty) (scope : String) (chain : List Link)
  /-- Several equally specific candidates in one tier. -/
  | ambiguous (type : Ty) (tier : Tier) (candidates : List QName)
  /-- A node came back on its own chain with nothing in between that defers it.
  The first and the last link are that node. -/
  | circular (cycle : List Link)
  /-- Two entries of a collection share a key. -/
  | duplicate (collection : Ty) (key : EntryKey) (scope : String)
      (existing repeated : QName)
  /-- A binding would replace an earlier one, which the options forbid. -/
  | overrideViolation (type : Ty) (scope : String) (existing overriding : QName)
  /-- The chain grew past its bound. -/
  | depthExceeded (type : Ty) (depth : Nat) (chain : List Link)
  /-- More requests were made than the budget allows. -/
  | stepBudgetExceeded (type : Ty) (budget : Nat) (chain : List Link)
  /-- A classifier is mentioned that nothing is known about. -/
  | unknownClassifier (classifier : ClassifierId) (origin : QName)
  /-- A module includes itself, along a path of including declarations. -/
  | moduleCycle (module : ClassifierId) (path : List QName)
  deriving DecidableEq

namespace ResolutionError

/-- The message code of an error. -/
def code : ResolutionError → Nat
  | missing .. => Message.noBindingFound
  | ambiguous .. => Message.multipleBindingsFound
  | circular .. => Message.circularDependency
  | duplicate .. => Message.duplicateCollectionEntry
  | overrideViolation .. => Message.overrideNotAllowed
  | depthExceeded .. => Message.resolutionTooDeep
  | stepBudgetExceeded .. => Message.stepBudgetExceeded
  | unknownClassifier .. => Message.unknownClassifier
  | moduleCycle .. => Message.moduleIncludesItself

/-- Where an error is reported: at the last requester of a chain, at the later
of two declarations that collide. -/
def origin? : ResolutionError → Option QName
  | missing _ _ chain => chain.getLast?.map Link.origin
  | depthExceeded _ _ chain => chain.getLast?.map Link.origin
  | stepBudgetExceeded _ _ chain => chain.getLast?.map Link.origin
  | ambiguous _ _ candidates => candidates.head?
  | circular cycle => cycle.getLast?.map Link.origin
  | duplicate _ _ _ _ repeated => some repeated
  | overrideViolation _ _ _ overriding => some overriding
  | unknownClassifier _ origin => some origin
  | moduleCycle _ path => path.getLast?

/-- How a collection entry is named in a message. -/
def entryText (N : Naming) (collection : Ty) : EntryKey → String
  | .element origin =>
      "element '" ++ origin.text ++ "' of " ++ collection.format N
  | .key key => "key '" ++ key.value ++ "' of " ++ collection.format N

/-- What is inserted into the message template of an error. -/
def messageArguments (N : Naming) : ResolutionError → List String
  | missing type scope _ => [type.format N, scope]
  | ambiguous type tier _ => [tier.name, type.format N]
  | circular cycle => [" -> ".intercalate (cycle.map (fun l => l.type.format N))]
  | duplicate collection key scope _ _ => [entryText N collection key, scope]
  | overrideViolation type scope _ _ => [type.format N, scope]
  | depthExceeded type _ _ => [type.format N]
  | stepBudgetExceeded type budget _ => [type.format N, toString budget]
  | unknownClassifier classifier _ => [Naming.numbered classifier.index]
  | moduleCycle module _ => [(Ty.of module).format N]

/-- The message of an error. -/
def message (N : Naming) (e : ResolutionError) : String :=
  Message.ofCode e.code (e.messageArguments N)

/-- The places of declarations, as related places. -/
def declaredAt (origins : List QName) : List (String × String) :=
  origins.map (fun o =>
    (o.text, Message.ofCode Message.candidateDeclaredAt [o.text]))

/-- The requesters along a chain, innermost first, as related places. -/
def requiredBy (N : Naming) (chain : List Link) : List (String × String) :=
  chain.reverse.map (fun l =>
    (l.origin.text, Message.ofCode Message.requiredBy [l.type.format N, l.origin.text]))

/-- The places that an error points at: origin and text of each. -/
def relatedPlaces (N : Naming) : ResolutionError → List (String × String)
  | missing _ _ chain => requiredBy N chain
  | depthExceeded _ _ chain => requiredBy N chain
  | stepBudgetExceeded _ _ chain => requiredBy N chain
  | ambiguous _ _ candidates => declaredAt candidates
  | circular cycle =>
      cycle.map (fun l =>
        (l.origin.text, Message.ofCode Message.cycleMember [l.type.format N]))
  | duplicate _ _ _ existing repeated => declaredAt [existing, repeated]
  | overrideViolation _ _ existing overriding => declaredAt [existing, overriding]
  | moduleCycle _ path => path.map (fun o => (o.text, "included here"))
  | unknownClassifier _ _ => []

/-- The diagnostic that reports an error. -/
def toDiagnostic (N : Naming) (e : ResolutionError) : Diagnostic :=
  { origin := (e.origin?.map QName.text).getD "unknown origin"
    text := e.message N
    code := e.code
    related := (e.relatedPlaces N).map (fun p => { origin := p.1, text := p.2 }) }

end ResolutionError

/-- The diagnostics that report several errors with the names of a registry. -/
def diagnosticsFor (R : Registry) (errors : List ResolutionError) : List Diagnostic :=
  errors.map (ResolutionError.toDiagnostic (.ofRegistry R))

end Wiring
