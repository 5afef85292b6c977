import Wiring.Candidate
import Wiring.Relation.Assignability
import Wiring.Relation.Erasure
import Wiring.Relation.Unification

/-!
# Matching declarations against requests

A generic declaration is first instantiated for the request: its type, viewed as
the requested classifier, is unified with the request, and what stays unbound
becomes a star projection.  The instantiated type then has to be assignable to
the request.

A declaration with assisted parameters matches requests for a factory only: a
function type whose return type the declaration produces and whose parameters
the assisted ones accept, in order.
-/

namespace Wiring

/-- Bind each of the type parameters that is not bound yet to a star. -/
def Substitution.starRest (σ : Substitution) (parameters : List ClassifierId) :
    Substitution :=
  parameters.foldl (fun σ p => σ.insertNew p .starProjection) σ

namespace Registry

/-- The bindings under which a declaration is instantiated for a request. -/
def instantiation? (R : Registry) (d : Declaration) (requested : Ty) :
    Option Substitution :=
  if requested.star || requested.classifier = .any then
    some (Substitution.starRest [] d.typeParameters)
  else
    let pattern := (R.subtypeView? d.type requested.classifier).getD d.type
    (R.tryUnify requested pattern).map (fun σ => σ.starRest d.typeParameters)

/-- A declaration instantiated for a request; one without type parameters is
taken as it is. -/
def instantiate? (R : Registry) (d : Declaration) (requested : Ty) :
    Option Declaration :=
  if d.typeParameters.isEmpty && !R.mentionsParameter d.type then some d
  else
    (R.instantiation? d requested).map (fun σ =>
      let substituted := d.substitute σ
      { substituted with
        type := R.erase substituted.type
        parameters := substituted.parameters.map
          (fun p => { p with type := R.erase p.type }) })

/-- A factory request served by a declaration with assisted parameters. -/
def matchAssisted? (R : Registry) (e : Entry) (requested : Ty) : Option Match :=
  match requested.functionParts? with
  | none => none
  | some (parameters, returns) =>
      match R.instantiate? e.declaration returns with
      | none => none
      | some d =>
          if R.isAssignable d.type returns
              && allPairs R.isAssignable parameters
                (d.assistedParameters.map Parameter.type) then
            some
              { declaration := d
                declared := e.declaration
                receivers := e.receivers
                rawType := requested
                assisted := true }
          else none

/-- A declaration matched against a request made in a call context. -/
def match? (R : Registry) (e : Entry) (requested : Ty) (context : CallContext) :
    Option Match :=
  if !context.canCall e.declaration.callKind then none
  else if e.declaration.hasAssisted then R.matchAssisted? e requested
  else
    match R.instantiate? e.declaration requested with
    | none => none
    | some d =>
        if R.isAssignable d.type requested then
          some
            { declaration := d
              declared := e.declaration
              receivers := e.receivers
              rawType := e.declaration.type
              assisted := false }
        else none

end Registry
end Wiring
