/-!
# Fully qualified names

A qualified name identifies a declaration.  It is the origin shown in
diagnostics and the identity of a set element.
-/

namespace Wiring

/-- A dotted name such as `app.Module.db`. -/
structure QName where
  text : String
  deriving DecidableEq, Inhabited

namespace QName

/-- The name of a member: `app.Module` and `db` give `app.Module.db`.  The
empty name has its members at top level. -/
def child (n : QName) (member : String) : QName :=
  if n.text = "" then ⟨member⟩ else ⟨n.text ++ "." ++ member⟩

/-- The last segment of the name. -/
def short (n : QName) : String :=
  String.ofList (n.text.toList.reverse.takeWhile (· ≠ '.')).reverse

@[simp] theorem child_empty (member : String) :
    child ⟨""⟩ member = ⟨member⟩ := rfl

end QName
end Wiring
