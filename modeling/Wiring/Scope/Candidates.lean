import Wiring.Candidate.Matching
import Wiring.Catalog
import Wiring.Scope

/-!
# Candidates of a scope

What a scope itself offers for a type, in this order:

1. declarations that match, inherited ones first,
2. inputs that fit, inherited ones first,
3. the object itself, for an object classifier,
4. an invocation, for a function alias,
5. a provider, for a function type that does not return a child component,
6. a set, for a set type.

Candidates that are equal are offered once.

They are computed each time they are asked for.  Keeping them for each type would come to the
same, as the scope, the registry and the catalog stay as they are while a graph is built.
-/

namespace Wiring

/-- The elements of a list, each at its first occurrence. -/
def distinct {α : Type} [DecidableEq α] (as : List α) : List α :=
  as.foldl (fun seen a => if a ∈ seen then seen else seen ++ [a]) []

namespace Scope

variable (R : Registry) (K : Catalog) (s : Scope) (t : Ty)

/-- Declarations that match a type. -/
def matchingBindings : List Candidate :=
  s.inheritedBindings.filterMap (fun p =>
      (R.match? p.1 t s.context).map (fun m => (Candidate.declaration m).inScope p.2))
    ++ s.bindings.filterMap (fun e => (R.match? e t s.context).map Candidate.declaration)

/-- Inputs that fit a type. -/
def matchingInputs : List Candidate :=
  (s.inheritedInputs.filter (fun i => R.isAssignable i.type t)).map
      (fun i => .input i.index i.type (some i.declaredIn))
    ++ (s.inputs.zipIdx.filter (fun p => R.isAssignable p.1 t)).map
      (fun p => .input p.2 p.1 none)

/-- The object of an object classifier. -/
def objectCandidate : List Candidate :=
  if !t.star && R.hasFlag t.classifier .object then [.object t.nonNull] else []

/-- The invocation of a function alias. -/
def aliasCandidate : List Candidate :=
  if !t.star && R.hasFlag t.classifier .funAlias then
    match K.alias? t.classifier with
    | some d => if s.context.canCall d.callKind then [.funAlias d t.nonNull] else []
    | none => []
  else []

/-- The provider of a function type. -/
def providerCandidate : List Candidate :=
  match t.functionParts? with
  | some (parameters, returns) =>
      if R.hasFlag returns.classifier .childComponent then []
      else [.provider t.nonNull parameters returns]
  | none => []

/-- The set of a set type. -/
def setCandidate : List Candidate :=
  match t.setElement? with
  | some element => [.set t.nonNull element]
  | none => []

/-- Everything that the scope itself offers for a type. -/
def candidatesFor : List Candidate :=
  distinct
    (matchingBindings R s t ++ matchingInputs R s t ++ objectCandidate R t
      ++ aliasCandidate R K s t ++ providerCandidate R t ++ setCandidate t)

end Scope

/-- A request for an inline provider is a request for a function without
parameters, with the same qualifiers and nullability. -/
def Registry.normalize (R : Registry) (t : Ty) : Ty :=
  if t.star || !R.hasFlag t.classifier .inlineProvider then t
  else
    match t.arguments with
    | [] => t
    | inner :: _ =>
        { Ty.function [] inner with
          qualifiers := t.qualifiers
          nullable := t.nullable }

end Wiring
