import Wiring.Json.Reader
import Wiring.Options
import Wiring.Text.Words

/-!
# Settings

Settings say which options a build has.  They are written in JSON, as an object or
as an array of the values in a fixed order.  Keys that are not known are ignored,
and options that are not set keep their defaults.

Settings may be based on others, which count for every option that they do not set
themselves.
-/

namespace Wiring

/-- The options that are set. -/
structure ResolverSettings where
  maxDepth : Option Nat := none
  maxSteps : Option Nat := none
  mergeStars : Option Bool := none
  emptyCollections : Option Bool := none
  allowOverrides : Option Bool := none
  deriving DecidableEq

/-- The settings of one file. -/
structure Settings where
  /-- The file that the settings are based on. -/
  base : Option String := none
  resolver : Option ResolverSettings := none
  deriving DecidableEq

/-- Options that are set, or else set by the settings they are based on. -/
def ResolverSettings.basedOn (s base : ResolverSettings) : ResolverSettings :=
  { maxDepth := s.maxDepth.or base.maxDepth
    maxSteps := s.maxSteps.or base.maxSteps
    mergeStars := s.mergeStars.or base.mergeStars
    emptyCollections := s.emptyCollections.or base.emptyCollections
    allowOverrides := s.allowOverrides.or base.allowOverrides }

/-- Why settings cannot be had. -/
inductive SettingsError where
  | malformed
  | zeroDepth
  | zeroSteps
  | unreadable (path : String)
  /-- A file holds no valid settings. -/
  | malformedFile (path : String)
  /-- A file is based on itself. -/
  | cyclic (path : String)
  | noParent
  deriving DecidableEq

namespace SettingsError

/-- The message of an error. -/
def message : SettingsError → String
  | malformed => "failed to parse givens config JSON"
  | zeroDepth => "resolver.maxResolutionDepth must be at least 1"
  | zeroSteps => "resolver.maxResolutionSteps must be at least 1"
  | unreadable path => "failed to read givens config: " ++ path
  | malformedFile path => "failed to parse givens config: " ++ path
  | cyclic path => "givens config extends cycle detected at " ++ path
  | noParent => "givens config has no parent directory"

end SettingsError

namespace Settings

/-! ## Interpreting a document -/

/-- The value of a known key, if it is there; a known key must not be repeated. -/
def member? (members : List (Option String × Json.Tree)) (key : String) :
    Option (Option Json.Tree) :=
  match members.filter (fun m => m.1 = some key) with
  | [] => some none
  | [(_, value)] => some (some value)
  | _ => none

/-- The values of known keys, from an object or from an array in the order of the
keys.  All keys of an object must be texts, and an array must not be too long. -/
def fields? (keys : List String) : Json.Tree → Option (List (Option Json.Tree))
  | .object members =>
      if members.all (fun m => m.1.isSome) then keys.mapM (member? members) else none
  | .array elements =>
      if elements.length ≤ keys.length then
        some (elements.map some ++ List.replicate (keys.length - elements.length) none)
      else none
  | _ => none

/-- A field that may be absent or null. -/
def optional {α : Type} (read : Json.Tree → Option α) :
    Option Json.Tree → Option (Option α)
  | none => some none
  | some .null => some none
  | some value => (read value).map some

/-- A text. -/
def text? : Json.Tree → Option String
  | .string text => text
  | _ => none

/-- A number that fits an option. -/
def count? : Json.Tree → Option Nat
  | .number (some n) => if n ≤ Limits.counterCeiling then some n else none
  | _ => none

/-- The words for yes and no. -/
def flagOfWord? (word : String) : Option Bool :=
  if word ∈ ["true", "1", "yes", "on"] then some true
  else if word ∈ ["false", "0", "no", "off"] then some false
  else none

/-- A flag, or a word for one. -/
def flag? : Json.Tree → Option Bool
  | .bool b => some b
  | .string (some text) => flagOfWord? (Text.word text)
  | _ => none

/-- The keys of the options. -/
def resolverKeys : List String :=
  ["maxResolutionDepth", "maxResolutionSteps", "mergeStarProjections",
    "emptyCollectionsByDefault", "allowOverrides"]

/-- The options that a document sets. -/
def resolver? (tree : Json.Tree) : Option ResolverSettings :=
  match fields? resolverKeys tree with
  | some [depth, steps, merge, empty, overrides] => do
      let depth ← optional count? depth
      let steps ← optional count? steps
      let merge ← optional flag? merge
      let empty ← optional flag? empty
      let overrides ← optional flag? overrides
      pure
        { maxDepth := depth
          maxSteps := steps
          mergeStars := merge
          emptyCollections := empty
          allowOverrides := overrides }
  | _ => none

/-- The settings that a document holds. -/
def ofTree? (tree : Json.Tree) : Option Settings :=
  match fields? ["extends", "resolver"] tree with
  | some [base, resolver] => do
      let base ← optional text? base
      let resolver ← optional resolver? resolver
      pure { base := base, resolver := resolver }
  | _ => none

/-- The settings that a JSON text holds. -/
def ofText? (text : String) : Option Settings :=
  (Json.Tree.read? text).bind ofTree?

/-- The settings that a text holds for a reader.  Both limits must be positive. -/
def parseWith (reader : String → Option Settings) (text : String) :
    Except SettingsError Settings :=
  match reader text with
  | none => .error .malformed
  | some s =>
      if s.resolver.bind ResolverSettings.maxDepth = some 0 then .error .zeroDepth
      else if s.resolver.bind ResolverSettings.maxSteps = some 0 then .error .zeroSteps
      else .ok s

/-- The settings that a JSON text holds.  Both limits must be positive. -/
def parse (text : String) : Except SettingsError Settings :=
  parseWith ofText? text

/-! ## Inheritance -/

/-- Settings on top of those they are based on. -/
def basedOn (s base : Settings) : Settings :=
  { base := none
    resolver :=
      match s.resolver, base.resolver with
      | some r, some r' => some (r.basedOn r')
      | some r, none => some r
      | none, r' => r' }

/-- The options of a build, with defaults for what is not set. -/
def options (s : Settings) : Options :=
  let defaults : Options := {}
  match s.resolver with
  | none => defaults
  | some r =>
      { maxDepth := r.maxDepth.getD defaults.maxDepth
        maxSteps := r.maxSteps.getD defaults.maxSteps
        mergeStars := r.mergeStars.getD defaults.mergeStars
        emptyCollections := r.emptyCollections.getD defaults.emptyCollections
        allowOverrides := r.allowOverrides.getD defaults.allowOverrides }

@[simp] theorem options_default : options {} = {} := rfl

end Settings
end Wiring
