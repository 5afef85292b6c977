import Wiring.Plan
import Wiring.Ty.Star

/-!
# Merging star-projected instantiations

One generic declaration may have been instantiated at several types that differ
by star projections only.  Among the callable nodes of one origin and owner, the
one with the fewest star projections is canonical, the earliest of several such.
Every other node of the group whose type generalizes the canonical type becomes a
delegate to the canonical node, which takes over its eagerness.

Positions never change, so nothing that refers to a node needs rewiring.
-/

namespace Wiring
namespace StarMerge

/-- The group that a node is merged within: nodes without assisted parameters that
invoke a declaration are grouped by origin and owner. -/
def group? (n : Node) : Option (QName × ScopeId) :=
  match n.kind with
  | .callable _ _ [] => n.origin.map (fun o => (o, n.owner))
  | _ => none

/-- The better of two nodes to be canonical. -/
def better (a b : Node) : Node :=
  if b.type.starCount < a.type.starCount
      || (b.type.starCount == a.type.starCount && b.id.index < a.id.index) then b
  else a

/-- The canonical node of a group that contains `n`. -/
def canonicalOf (n : Node) (members : List Node) : Node :=
  members.foldl better n

/-- Whether `n` is to be a delegate to `c`. -/
def delegates (n c : Node) : Bool :=
  n.id ≠ c.id && n.type.generalizes c.type

/-- `n` as a delegate to `c`. -/
def delegateTo (n c : Node) (origin : QName) : Node :=
  { n with
    kind := .delegate c.id
    dependencies := [{ type := c.type, origin := origin }]
    resolved := [c.id]
    interceptors := []
    retained := false
    eager := false }

/-- What becomes of a node among all nodes. -/
def outcome (nodes : List Node) (n : Node) : Node :=
  match group? n with
  | none => n
  | some g =>
      let members := nodes.filter (fun m => group? m = some g)
      let c := canonicalOf n members
      if n.id = c.id then
        { n with eager := n.eager || members.any (fun m => delegates m c && m.eager) }
      else if delegates n c then delegateTo n c g.1
      else n

/-- Turn every node that has to become one into a delegate. -/
def mergeStars (nodes : Array Node) : Array Node :=
  nodes.map (outcome nodes.toList)

/-- The number of nodes that merging turns into delegates. -/
def mergedCount (nodes : Array Node) : Nat :=
  nodes.toList.countP
    (fun n => !n.kind.isDelegate && (outcome nodes.toList n).kind.isDelegate)

@[simp] theorem size_mergeStars (nodes : Array Node) :
    (mergeStars nodes).size = nodes.size := by
  simp [mergeStars]

end StarMerge
end Wiring
