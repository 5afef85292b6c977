import Wiring.Candidate.Matching
import Wiring.Catalog
import Wiring.Scope.Ancestry

/-!
# Sets and maps of contributions

A set or map is answered by merging contributions along the ancestry of a scope:
what the parent merges, then the global entries at the root, then the scope's own
entries.  Entries collide if they have one key, which is the declaration for a set
element and the explicit key for a map entry; the later entry's policy then
decides.

A collection exists if something contributes to it, if it is declared to exist, or
if the options let every collection exist.
-/

namespace Wiring
namespace Collection

/-- The two kinds of collection. -/
inductive Kind where
  | set
  | map
  deriving DecidableEq

/-- Entries under their keys, in order of each key's first entry. -/
abbrev Keyed := List (EntryKey × Entry)

/-- The key that identifies an entry; a map entry without one has none. -/
def key? : Kind → Entry → Option EntryKey
  | .set, e => some (.element e.origin)
  | .map, e => e.declaration.mapKey.map .key

/-- The entry under a key. -/
def Keyed.find? (entries : Keyed) (k : EntryKey) : Option Entry :=
  entries.lookup k

/-- Put an entry under a key, in the place of an earlier one. -/
def Keyed.put (k : EntryKey) (e : Entry) : Keyed → Keyed
  | [] => [(k, e)]
  | (k', e') :: rest =>
      if k' = k then (k, e) :: rest else (k', e') :: Keyed.put k e rest

/-- Add an entry; its policy decides if its key is taken. -/
def add (kind : Kind) (collection : Ty) (scope : String) (entries : Keyed)
    (e : Entry) : Except ResolutionError Keyed :=
  match key? kind e with
  | none => .ok entries
  | some k =>
      match entries.find? k with
      | none => .ok (entries.put k e)
      | some existing =>
          match e.declaration.policy with
          | .fail => .error (.duplicate collection k scope existing.origin e.origin)
          | .override => .ok (entries.put k e)
          | .drop => .ok entries

/-- The type that an entry has to produce to be in a collection, for a map only if
the entry's key fits. -/
def valueType? (R : Registry) (kind : Kind) (collection : Ty) (e : Entry) : Option Ty :=
  match kind with
  | .set => collection.setElement?
  | .map =>
      match collection.mapParts?, e.declaration.mapKey with
      | some (keyType, valueType), some k =>
          if R.isAssignable k.type keyType then some valueType else none
      | _, _ => none

/-- An entry instantiated for a collection, if it belongs there. -/
def contribution? (R : Registry) (kind : Kind) (collection : Ty) (context : CallContext)
    (e : Entry) : Option Entry :=
  match valueType? R kind collection e with
  | none => none
  | some t =>
      (R.match? e t context).map
        (fun m => { declaration := m.declaration, receivers := m.receivers })

/-- The global entries of a kind. -/
def globals (K : Catalog) : Kind → List Entry
  | .set => K.setElements
  | .map => K.mapEntries

/-- The entries that a scope itself declares. -/
def locals (s : Scope) : Kind → List Entry
  | .set => s.setElements
  | .map => s.mapEntries

/-- The entries that a scope adds to what its parent merges; the root adds the
global ones first. -/
def sources (K : Catalog) (kind : Kind) (s : Scope) : List Entry :=
  (if s.isRoot then globals K kind else []) ++ locals s kind

/-- Whether a collection is declared to exist by a scope, or by the catalog for
the root. -/
def isDeclared (K : Catalog) (collection : Ty) (s : Scope) : Bool :=
  (s.isRoot && K.multibinds.contains collection.nonNull)
    || s.multibinds.contains collection.nonNull

/-- What a scope makes of what its parent merges: its own contributions are added
in order, and the collection exists from here on if it did before, if it is declared
or if it has an entry. -/
def extended (R : Registry) (K : Catalog) (options : Options) (kind : Kind)
    (collection : Ty) (s : Scope) (inherited : Option (List Entry)) :
    Except ResolutionError (Option (List Entry)) :=
  let start := (inherited.getD []).foldl (fun entries e =>
    match key? kind e with
    | some k => Keyed.put k e entries
    | none => entries) []
  let found := (sources K kind s).filterMap (contribution? R kind collection s.context)
  match found.foldlM (add kind collection s.name) start with
  | .error e => .error e
  | .ok entries =>
      if inherited.isSome || isDeclared K collection s || !entries.isEmpty
          || options.emptyCollections then
        .ok (some (entries.map Prod.snd))
      else .ok none

/-- Merge a collection along an ancestry, nearest scope first. -/
def merged (R : Registry) (K : Catalog) (options : Options) (kind : Kind)
    (collection : Ty) : List Scope → Except ResolutionError (Option (List Entry))
  | [] => .ok none
  | s :: ancestors =>
      match merged R K options kind collection ancestors with
      | .error e => .error e
      | .ok inherited => extended R K options kind collection s inherited

end Collection

namespace Interception

/-- An interceptor instantiated for bindings of a type, if it can wrap them: it
produces a function without parameters that returns the type, and asks for
nothing of that type itself. -/
def interceptor? (R : Registry) (t : Ty) (context : CallContext) (e : Entry) :
    Option Entry :=
  match R.match? e (.function [] t.nonNull) context with
  | none => none
  | some m =>
      if m.declaration.parameters.any (fun p => p.type.nonNull = t.nonNull) then none
      else some { declaration := m.declaration, receivers := m.receivers }

/-- The interceptors that a scope adds to those of its parent. -/
def sources (K : Catalog) (s : Scope) : List Entry :=
  (if s.isRoot then K.interceptors else []) ++ s.interceptors

/-- The interceptors for bindings of a type that a scope adds. -/
def added (R : Registry) (K : Catalog) (t : Ty) (s : Scope) : List Entry :=
  (sources K s).filterMap (interceptor? R t s.context)

/-- The interceptors that wrap bindings of a type, outermost scope first, along
an ancestry with the nearest scope first. -/
def visible (R : Registry) (K : Catalog) (t : Ty) : List Scope → List Entry
  | [] => []
  | s :: ancestors => visible R K t ancestors ++ added R K t s

end Interception
end Wiring
