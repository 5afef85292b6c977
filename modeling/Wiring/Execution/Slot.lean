/-!
# Slots

A slot keeps the value of a retained node once it has been computed.  A published
value never changes, and a computation that fails publishes nothing, so that the
next request computes again.
-/

namespace Wiring

/-- The place of a value that is computed at most once. -/
structure Slot (α : Type) where
  value? : Option α := none
  deriving DecidableEq

namespace Slot

variable {α ε : Type}

/-- Whether a value has been published. -/
def isInitialized (s : Slot α) : Bool := s.value?.isSome

/-- Publish a value, unless there is one. -/
def publish (s : Slot α) (a : α) : Slot α :=
  match s.value? with
  | some _ => s
  | none => { value? := some a }

/-- The published value, or the one that `init` computes and that is then
published. -/
def getOrInit (s : Slot α) (init : Unit → Except ε α) : Except ε α × Slot α :=
  match s.value? with
  | some a => (.ok a, s)
  | none =>
      match init () with
      | .ok a => (.ok a, s.publish a)
      | .error e => (.error e, s)

@[simp] theorem isInitialized_publish (s : Slot α) (a : α) :
    (s.publish a).isInitialized = true := by
  unfold publish isInitialized
  split <;> simp_all

/-- A published value stays. -/
theorem publish_eq_self {s : Slot α} {a : α} (h : s.isInitialized = true) :
    s.publish a = s := by
  unfold isInitialized at h
  unfold publish
  split <;> simp_all

/-- A failing computation leaves the slot as it was. -/
theorem getOrInit_error {s : Slot α} {init : Unit → Except ε α} {e : ε}
    (h : (s.getOrInit init).1 = .error e) : (s.getOrInit init).2 = s := by
  unfold getOrInit at h ⊢
  split <;> simp_all
  split <;> simp_all

end Slot
end Wiring
