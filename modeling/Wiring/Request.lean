import Wiring.QName
import Wiring.Ty

/-!
# Requests

A request is what is wanted at a call site, and the tiers are the places where
an answer is looked for, in the order they are tried.
-/

namespace Wiring

/-- What is wanted, and by whom. -/
structure Request where
  type : Ty
  /-- Whose parameter the request satisfies. -/
  origin : QName
  /-- Whether the request must not stay unresolved. -/
  required : Bool := true
  /-- Whether the answer is only evaluated on demand, behind a provider. -/
  lazy : Bool := false
  deriving DecidableEq

/-- A request as one hop of a reported chain. -/
structure Link where
  type : Ty
  origin : QName
  deriving DecidableEq

/-- The hop that a request is reported as. -/
def Request.link (r : Request) : Link := ⟨r.type, r.origin⟩

/-- Where candidates are looked for. -/
inductive Tier where
  | explicit
  | internal
  | external
  | framework
  | parent
  deriving DecidableEq

/-- The name of a tier in messages. -/
def Tier.name : Tier → String
  | explicit => "explicit"
  | internal => "internal"
  | external => "external"
  | framework => "framework"
  | parent => "parent"

end Wiring
