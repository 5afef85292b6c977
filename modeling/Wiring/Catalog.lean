import Wiring.Expansion
import Wiring.Registry.Hierarchy

/-!
# The catalog of global declarations

The catalog holds every globally declared binding, collection entry and
interceptor of one build, together with the modules, components and function
aliases that declarations refer to.

A binding is filed under the supertype closure of the classifier it produces, or
under every classifier if it produces a bare type parameter.
-/

namespace Wiring

/-- What a component declares and exposes. -/
structure Component where
  type : Ty
  declarations : List Declaration := []
  /-- Types that are resolved when the component is built. -/
  entryPoints : List Ty := []

/-- What a catalog is made from.  Of two modules, components or aliases for one
classifier the later counts. -/
structure CatalogSource where
  declarations : List Declaration := []
  modules : List Module := []
  components : List Component := []
  /-- The declarations that function aliases stand for. -/
  aliases : List (ClassifierId × Declaration) := []

/-- A global binding and where it is filed. -/
structure FiledBinding where
  entry : Entry
  /-- The classifiers it is filed under, or none for every classifier. -/
  reach : Option (List ClassifierId)

/-- Whether a binding is filed under a classifier. -/
def FiledBinding.isUnder (b : FiledBinding) (c : ClassifierId) : Bool :=
  match b.reach with
  | some reach => reach.contains c
  | none => true

/-- Every global declaration of one build. -/
structure Catalog where
  filed : List FiledBinding := []
  setElements : List Entry := []
  mapEntries : List Entry := []
  interceptors : List Entry := []
  multibinds : List Ty := []
  modules : List Module := []
  components : List Component := []
  aliases : List (ClassifierId × Declaration) := []

namespace Catalog

/-- The module of a classifier in a list of modules. -/
def moduleIn (modules : List Module) (c : ClassifierId) : Option Module :=
  modules.reverse.find? (fun m => m.classifier = c)

/-- The module of a classifier. -/
def module? (K : Catalog) : ClassifierId → Option Module :=
  moduleIn K.modules

/-- The component of a classifier. -/
def component? (K : Catalog) (c : ClassifierId) : Option Component :=
  K.components.reverse.find? (fun m => m.type.classifier = c)

/-- The declaration that a function alias stands for. -/
def alias? (K : Catalog) (c : ClassifierId) : Option Declaration :=
  K.aliases.reverse.lookup c

/-- All global bindings, in order. -/
def bindings (K : Catalog) : List Entry :=
  K.filed.map FiledBinding.entry

/-- The global bindings filed under a classifier, in order. -/
def implicitFor (K : Catalog) (c : ClassifierId) : List Entry :=
  (K.filed.filter (fun b => b.isUnder c)).map FiledBinding.entry

/-- File one binding; a binding for a function alias is not kept. -/
def file? (R : Registry) (e : Entry) : Option FiledBinding :=
  let produced := e.declaration.type.classifier
  if R.hasFlag produced .funAlias then none
  else if R.isTypeParameter produced then some ⟨e, none⟩
  else some ⟨e, some (R.supertypeClosure produced)⟩

/-- Expand and file the global declarations.  An alias whose classifier is not
declared to be one is an error. -/
def build (R : Registry) (source : CatalogSource) :
    Except ResolutionError Catalog :=
  match source.aliases.reverse.find? (fun a => !R.hasFlag a.1 .funAlias) with
  | some (c, d) => .error (.unknownClassifier c d.name)
  | none =>
      match expand (moduleIn source.modules) source.declarations with
      | .error e => .error e
      | .ok found =>
          .ok
            { filed := found.bindings.filterMap (file? R)
              setElements := found.setElements
              mapEntries := found.mapEntries
              interceptors := found.interceptors
              multibinds := found.multibinds
              modules := source.modules
              components := source.components
              aliases := source.aliases }

/-- Filing selects among the bindings and keeps their order. -/
theorem implicitFor_sublist (K : Catalog) (c : ClassifierId) :
    (K.implicitFor c).Sublist K.bindings :=
  List.Sublist.map _ List.filter_sublist

end Catalog
end Wiring
