import Wiring.Ty

/-!
# Star projections

How many star projections a type has, and when one type is another with some
positions replaced by star projections.
-/

namespace Wiring
namespace Ty

mutual

/-- Number of star projections anywhere in a type. -/
def starCount : Ty → Nat
  | ⟨_, arguments, _, _, s⟩ => if s then 1 else starCountAll arguments

/-- Number of star projections anywhere in a list of types. -/
def starCountAll : List Ty → Nat
  | [] => 0
  | t :: ts => starCount t + starCountAll ts

end

mutual

/-- Whether the first type is the second with some positions replaced by star
projections.  Equal types qualify. -/
def generalizes : Ty → Ty → Bool
  | ⟨c, arguments, q, n, s⟩, ⟨c', arguments', q', n', _⟩ =>
      s || (c = c' && n = n' && q = q' && generalizesAll arguments arguments')

/-- Whether `generalizes` holds position by position, for lists of one length. -/
def generalizesAll : List Ty → List Ty → Bool
  | [], [] => true
  | g :: gs, t :: ts => generalizes g t && generalizesAll gs ts
  | _, _ => false

end

@[simp] theorem starCount_starProjection : starCount starProjection = 1 := rfl

end Ty
end Wiring
