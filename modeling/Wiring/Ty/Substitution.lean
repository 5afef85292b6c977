import Wiring.Ty

/-!
# Substitution of type parameters

A substitution binds type parameters to types.  It is kept as an association
list with one entry per parameter.  An occurrence that is replaced keeps its own
qualifiers in addition to those of the replacement, is nullable if either is,
and loses its own arguments.  Star projections are left alone.
-/

namespace Wiring

/-- Bindings of type parameters, one per parameter. -/
abbrev Substitution := List (ClassifierId × Ty)

namespace Substitution

/-- Bind `parameter` to `value`, in place of an earlier binding. -/
def insert : Substitution → ClassifierId → Ty → Substitution
  | [], parameter, value => [(parameter, value)]
  | (p, v) :: rest, parameter, value =>
      if p = parameter then (parameter, value) :: rest
      else (p, v) :: insert rest parameter value

/-- Bind `parameter` to `value` unless it is bound already. -/
def insertNew (σ : Substitution) (parameter : ClassifierId) (value : Ty) :
    Substitution :=
  match σ.lookup parameter with
  | some _ => σ
  | none => σ ++ [(parameter, value)]

/-- The substitution of a list of bindings, of which later ones win. -/
def ofBindings (bindings : List (ClassifierId × Ty)) : Substitution :=
  bindings.foldl (fun σ b => insert σ b.1 b.2) []

/-- Bind declared type parameters to the arguments in the same positions. -/
def ofArguments (parameters : List ClassifierId) (arguments : List Ty) :
    Substitution :=
  ofBindings (parameters.zip arguments)

/-- Whether `parameter` is bound. -/
def binds (σ : Substitution) (parameter : ClassifierId) : Bool :=
  (σ.lookup parameter).isSome

end Substitution

namespace Ty

/-- What an occurrence becomes that is replaced by `replacement`. -/
def replacedBy (occurrence replacement : Ty) : Ty :=
  { replacement with
    qualifiers := replacement.qualifiers ∪ occurrence.qualifiers
    nullable := replacement.nullable || occurrence.nullable }

mutual

/-- Replace every type parameter that `σ` binds. -/
def substitute (σ : Substitution) : Ty → Ty
  | ⟨c, arguments, q, n, s⟩ =>
      if s then ⟨c, arguments, q, n, s⟩
      else match σ.lookup c with
        | some replacement => replacedBy ⟨c, arguments, q, n, s⟩ replacement
        | none => ⟨c, substituteAll σ arguments, q, n, s⟩

/-- Replace every type parameter that `σ` binds, in each type of a list. -/
def substituteAll (σ : Substitution) : List Ty → List Ty
  | [] => []
  | t :: ts => substitute σ t :: substituteAll σ ts

end

@[simp] theorem substituteAll_eq_map (σ : Substitution) (ts : List Ty) :
    substituteAll σ ts = ts.map (substitute σ) := by
  induction ts with
  | nil => rfl
  | cons t ts ih => simp [substituteAll, ih]

/-! ## The cases of substitution -/

section Cases

variable (σ : Substitution)

theorem substitute_of_star
    {t : Ty}
    (h : t.star = true) :
    t.substitute σ = t := by
  obtain ⟨c, arguments, q, n, s⟩ := t
  dsimp only at h
  simp [substitute, h]

theorem substitute_of_bound
    {t v : Ty}
    (hstar : t.star = false)
    (h : σ.lookup t.classifier = some v) :
    t.substitute σ = t.replacedBy v := by
  obtain ⟨c, arguments, q, n, s⟩ := t
  dsimp only at h hstar
  simp [substitute, h, hstar]

theorem substitute_of_unbound
    {t : Ty}
    (hstar : t.star = false)
    (h : σ.lookup t.classifier = none) :
    t.substitute σ = { t with arguments := substituteAll σ t.arguments } := by
  obtain ⟨c, arguments, q, n, s⟩ := t
  dsimp only at h hstar
  simp [substitute, h, hstar]

/-- An occurrence without marks becomes the replacement itself. -/
theorem substitute_generic
    {c : ClassifierId}
    {v : Ty}
    (h : σ.lookup c = some v)
    {arguments : List Ty} :
    (generic c arguments).substitute σ = v := by
  obtain ⟨d, arguments', q, n, s⟩ := v
  rw [substitute_of_bound σ rfl h]
  simp [replacedBy, generic, QualifierSet.union_empty]

end Cases

end Ty
end Wiring
