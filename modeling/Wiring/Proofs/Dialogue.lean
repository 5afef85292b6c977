import Mathlib.Tactic.Common

/-!
# Dialogues

A recursive function whose nested calls are made by a parameter does not say which calls
it makes.  Its dialogue does: it is what the function does up to its next call, the state
in which it makes that call, and how it goes on with whatever the call comes to.

From the dialogues of all calls a recursion is solved down to a given depth, and the same
recursion writes down which calls it starts and finishes, in order.

**Results.**
* `Recursion.trace_fst`: writing calls down changes no outcome.
* `Recursion.Modular.trace`: what is known of what is written down if it is known of its
  parts.
* `Recursion.trace_enclosing`: a call that is written down names the calls that have been
  started but not finished yet.
* `Conduct.bind`, `Conduct.around`, and others: the dialogues of composed steps, and what
  they keep to if their parts do.
-/

namespace Wiring

/-- What a step does up to its next call: it ends, or it makes a call in a state and goes
on with the outcome. -/
inductive Dialogue (ι ε σ β α : Type) where
  | ends (outcome : EStateM.Result ε σ α)
  | asks (task : ι) (before : σ)
      (next : EStateM.Result ε σ β → Dialogue ι ε σ β α)

/-- A call that is made while others are open. -/
structure Call (ι σ : Type) where
  /-- The calls that are open, outermost first, each with its state at the start. -/
  enclosing : List (ι × σ)
  task : ι
  before : σ

namespace Call

variable {ι σ : Type}

/-- The open calls and the call itself, outermost first. -/
def path (c : Call ι σ) : List (ι × σ) := c.enclosing ++ [(c.task, c.before)]

end Call

/-- What is written down of a call. -/
inductive Event (ι ε σ β : Type) where
  | started (call : Call ι σ)
  | finished (call : Call ι σ) (outcome : EStateM.Result ε σ β)

/-- An outcome, and what was written down on the way. -/
abbrev Recorded (ι ε σ β α : Type) := EStateM.Result ε σ α × List (Event ι ε σ β)

/-- The state after an outcome. -/
def Dialogue.stateOf {ε σ α : Type} : EStateM.Result ε σ α → σ
  | .ok _ s => s
  | .error _ s => s

/-- What was recorded, without the state. -/
def Recorded.answer {ι ε σ β α : Type} (p : Recorded ι ε σ β α) : Except ε α :=
  match p.1 with
  | .ok a _ => .ok a
  | .error e _ => .error e

namespace Event

variable {ι ε σ β : Type}

/-- The state at an event. -/
def state : Event ι ε σ β → σ
  | started call => call.before
  | finished _ outcome => Dialogue.stateOf outcome

/-- The call that is started, if one is. -/
def start? : Event ι ε σ β → Option (Call ι σ)
  | started call => some call
  | finished _ _ => none

/-- The calls that are started, in order. -/
def calls (events : List (Event ι ε σ β)) : List (Call ι σ) := events.filterMap start?

/-- The calls that are open after some events, innermost last, if `enclosing` were open
before. -/
def openAfter : List (Event ι ε σ β) → (enclosing : List (ι × σ)) → List (ι × σ)
  | [], enclosing => enclosing
  | started call :: events, enclosing =>
      openAfter events (enclosing ++ [(call.task, call.before)])
  | finished _ _ :: events, enclosing => openAfter events enclosing.dropLast

@[simp] theorem calls_nil : calls ([] : List (Event ι ε σ β)) = [] := rfl

@[simp] theorem calls_append (events events' : List (Event ι ε σ β)) :
    calls (events ++ events') = calls events ++ calls events' := by
  simp [calls]

@[simp] theorem calls_started (call : Call ι σ) (events : List (Event ι ε σ β)) :
    calls (started call :: events) = call :: calls events := rfl

@[simp] theorem calls_finished
    (call : Call ι σ)
    (outcome : EStateM.Result ε σ β)
    (events : List (Event ι ε σ β)) :
    calls (finished call outcome :: events) = calls events := rfl

/-- The calls of a call are itself and those that are made within it. -/
theorem calls_around
    (call : Call ι σ)
    (events : List (Event ι ε σ β))
    (outcome : EStateM.Result ε σ β) :
    calls (.started call :: events ++ [.finished call outcome]) = call :: calls events := by
  simp

theorem mem_calls
    {events before after : List (Event ι ε σ β)}
    {call : Call ι σ}
    (h : events = before ++ .started call :: after) :
    call ∈ calls events := by
  rw [h, calls_append, calls_started]
  exact List.mem_append_right _ List.mem_cons_self

theorem openAfter_append
    (events events' : List (Event ι ε σ β))
    (enclosing : List (ι × σ)) :
    openAfter (events ++ events') enclosing
      = openAfter events' (openAfter events enclosing) := by
  induction events generalizing enclosing with
  | nil => rfl
  | cons e events ih =>
      cases e with
      | started call => exact ih _
      | finished call outcome => exact ih _

end Event

namespace Dialogue

variable {ι ε σ β α γ : Type}

/-- The outcome of a dialogue, calls being made by `recur`. -/
def run (recur : ι → EStateM ε σ β) : Dialogue ι ε σ β α → EStateM.Result ε σ α
  | ends outcome => outcome
  | asks task before next => (next (recur task before)).run recur

/-- The outcome of a dialogue and what is written down on the way. -/
def record (solve : ι → σ → Recorded ι ε σ β β) : Dialogue ι ε σ β α → Recorded ι ε σ β α
  | ends outcome => (outcome, [])
  | asks task before next =>
      let solved := solve task before
      let rest := (next solved.1).record solve
      (rest.1, solved.2 ++ rest.2)

/-- Go on after the end of a dialogue. -/
def settle (f : EStateM.Result ε σ α → Dialogue ι ε σ β γ) :
    Dialogue ι ε σ β α → Dialogue ι ε σ β γ
  | ends outcome => f outcome
  | asks task before next => asks task before (fun outcome => (next outcome).settle f)

theorem run_settle
    (recur : ι → EStateM ε σ β)
    (f : EStateM.Result ε σ α → Dialogue ι ε σ β γ)
    (d : Dialogue ι ε σ β α) :
    (d.settle f).run recur = (f (d.run recur)).run recur := by
  induction d with
  | ends outcome => rfl
  | asks task before next ih => exact ih _

/-- Turning the outcome into another one makes no calls. -/
theorem record_settle_ends
    (solve : ι → σ → Recorded ι ε σ β β)
    (f : EStateM.Result ε σ α → EStateM.Result ε σ γ)
    (d : Dialogue ι ε σ β α) :
    (d.settle (fun outcome => .ends (f outcome))).record solve
      = (f (d.record solve).1, (d.record solve).2) := by
  induction d with
  | ends outcome => rfl
  | asks task before next ih =>
      change (Prod.mk _ _ : Recorded ι ε σ β γ) = _
      rw [ih]
      rfl

theorem record_fst
    (solve : ι → σ → Recorded ι ε σ β β)
    (d : Dialogue ι ε σ β α) :
    (d.record solve).1 = d.run (fun task s => (solve task s).1) := by
  induction d with
  | ends outcome => rfl
  | asks task before next ih => exact ih _

end Dialogue

/-! ## Recursions -/

/-- A recursive function: the dialogue of each call, and what a call comes to where the
recursion is cut off. -/
structure Recursion (ι ε σ β : Type) where
  cutOff : ι → EStateM ε σ β
  talk : ι → σ → Dialogue ι ε σ β β

namespace Recursion

variable {ι ε σ β α : Type} (R : Recursion ι ε σ β)

/-- What a call comes to, with at most `levels` nested levels of calls. -/
def solve : (levels : Nat) → ι → EStateM ε σ β
  | 0, task => R.cutOff task
  | levels + 1, task => fun s => (R.talk task s).run (solve levels)

/-- What a call comes to, and what is written down on the way. -/
def trace : (levels : Nat) → (enclosing : List (ι × σ)) → ι → σ → Recorded ι ε σ β β
  | 0, enclosing, task, s =>
      let outcome := R.cutOff task s
      (outcome, [.started ⟨enclosing, task, s⟩, .finished ⟨enclosing, task, s⟩ outcome])
  | levels + 1, enclosing, task, s =>
      let inside := (R.talk task s).record (trace levels (enclosing ++ [(task, s)]))
      (inside.1,
        .started ⟨enclosing, task, s⟩ :: inside.2
          ++ [.finished ⟨enclosing, task, s⟩ inside.1])

/-- Writing calls down changes no outcome. -/
theorem trace_fst
    (levels : Nat)
    (enclosing : List (ι × σ))
    (task : ι)
    (s : σ) :
    (R.trace levels enclosing task s).1 = R.solve levels task s := by
  induction levels generalizing enclosing task s with
  | zero => rfl
  | succ levels ih =>
      change ((R.talk task s).record _).1 = (R.talk task s).run _
      rw [Dialogue.record_fst]
      congr 1
      funext task s
      exact ih _ task s

/-- A call that makes no calls itself, at any depth. -/
theorem trace_of_ends
    {task : ι}
    {s : σ}
    {outcome : EStateM.Result ε σ β}
    (htalk : R.talk task s = .ends outcome)
    (hcut : R.cutOff task s = outcome)
    (enclosing : List (ι × σ))
    (levels : Nat) :
    R.trace levels enclosing task s
      = (outcome, [.started ⟨enclosing, task, s⟩, .finished ⟨enclosing, task, s⟩ outcome]) := by
  cases levels with
  | zero =>
      unfold trace
      rw [hcut]
  | succ levels =>
      unfold trace
      rw [htalk]
      rfl

/-! ## What is written down -/

/-- A property of what is written down while given calls are open, that holds of calls if
it holds of what they give rise to. -/
structure Modular (Q : List (ι × σ) → List (Event ι ε σ β) → Prop) : Prop where
  nil (enclosing : List (ι × σ)) : Q enclosing []
  append {enclosing : List (ι × σ)} {events events' : List (Event ι ε σ β)} :
    Q enclosing events → Q enclosing events' → Q enclosing (events ++ events')
  around (call : Call ι σ) {events : List (Event ι ε σ β)}
    (outcome : EStateM.Result ε σ β) :
    Q call.path events →
    Q call.enclosing (.started call :: events ++ [.finished call outcome])

namespace Modular

variable {Q : List (ι × σ) → List (Event ι ε σ β) → Prop} (hQ : Modular Q)

include hQ

theorem record
    {solve : ι → σ → Recorded ι ε σ β β}
    (enclosing : List (ι × σ))
    (hsolve : ∀ task s, Q enclosing (solve task s).2)
    (d : Dialogue ι ε σ β α) :
    Q enclosing (d.record solve).2 := by
  induction d with
  | ends outcome => exact hQ.nil enclosing
  | asks task before next ih => exact hQ.append (hsolve task before) (ih _)

theorem trace
    (levels : Nat)
    (enclosing : List (ι × σ))
    (task : ι)
    (s : σ) :
    Q enclosing (R.trace levels enclosing task s).2 := by
  induction levels generalizing enclosing task s with
  | zero => exact hQ.around ⟨enclosing, task, s⟩ _ (hQ.nil _)
  | succ levels ih => exact hQ.around ⟨enclosing, task, s⟩ _ (hQ.record _ (ih _) _)

end Modular

/-- Events in which every call that is started names the calls that are open then, and
after which the same calls are open as before. -/
def Nested (enclosing : List (ι × σ)) (events : List (Event ι ε σ β)) : Prop :=
  Event.openAfter events enclosing = enclosing
    ∧ ∀ before call after, events = before ++ .started call :: after →
      call.enclosing = Event.openAfter before enclosing

theorem Nested.append
    {enclosing : List (ι × σ)}
    {events events' : List (Event ι ε σ β)}
    (h : Nested enclosing events)
    (h' : Nested enclosing events') :
    Nested enclosing (events ++ events') := by
  refine ⟨by rw [Event.openAfter_append, h.1, h'.1], fun before call after heq => ?_⟩
  rcases List.append_eq_append_iff.mp heq with
    ⟨between, hbefore, hevents'⟩ | ⟨between, hevents, hafter⟩
  · rw [hbefore, Event.openAfter_append, h.1]
    exact h'.2 between call after hevents'
  · cases between with
    | nil =>
        rw [List.append_nil] at hevents
        rw [← hevents, h.1]
        exact h'.2 [] call after hafter.symm
    | cons e between =>
        obtain ⟨rfl, -⟩ := List.cons.inj hafter
        exact h.2 before call between hevents

/-- A call that is started around nested events, and then finished. -/
theorem Nested.around
    (call : Call ι σ)
    {events : List (Event ι ε σ β)}
    (outcome : EStateM.Result ε σ β)
    (h : Nested call.path events) :
    Nested call.enclosing (.started call :: events ++ [.finished call outcome]) := by
  have hopen : Event.openAfter (.started call :: events) call.enclosing = call.path := h.1
  constructor
  · rw [Event.openAfter_append, hopen]
    simp [Event.openAfter, Call.path]
  · intro before call' after heq
    cases before with
    | nil =>
        obtain ⟨hcall, -⟩ := List.cons.inj heq
        cases hcall
        rfl
    | cons e before =>
        obtain ⟨rfl, hrest⟩ := List.cons.inj heq
        rcases List.append_eq_append_iff.mp hrest with
          ⟨between, -, hlast⟩ | ⟨between, hevents, hafter⟩
        · cases between with
          | nil => exact nomatch (List.cons.inj hlast).1
          | cons e between => exact absurd (List.cons.inj hlast).2 (by simp)
        · cases between with
          | nil => exact nomatch (List.cons.inj hafter).1
          | cons e between =>
              obtain ⟨rfl, -⟩ := List.cons.inj hafter
              exact h.2 before call' between hevents

theorem modular_nested : Modular (Nested (ι := ι) (ε := ε) (σ := σ) (β := β)) where
  nil enclosing := ⟨rfl, fun before call after h => by simp at h⟩
  append := Nested.append
  around := Nested.around

/-- A call that is written down names the calls that have been started but not finished
yet. -/
theorem trace_enclosing
    {levels : Nat}
    {task : ι}
    {s : σ}
    {before after : List (Event ι ε σ β)}
    {call : Call ι σ}
    (h : (R.trace levels [] task s).2 = before ++ .started call :: after) :
    call.enclosing = Event.openAfter before [] :=
  (modular_nested.trace R levels [] task s).2 before call after h

/-- All calls are made while the given ones are open. -/
def Within (enclosing : List (ι × σ)) (events : List (Event ι ε σ β)) : Prop :=
  ∀ c ∈ Event.calls events, enclosing <+: c.enclosing

theorem modular_within : Modular (Within (ι := ι) (ε := ε) (σ := σ) (β := β)) where
  nil _ _ hc := nomatch hc
  append h h' c hc := by
    rw [Event.calls_append] at hc
    exact (List.mem_append.mp hc).elim (h c) (h' c)
  around call events outcome h c hc := by
    rw [Event.calls_around] at hc
    rcases List.mem_cons.mp hc with rfl | hc
    · exact List.prefix_refl _
    · exact (List.prefix_append _ _).trans (h c hc)

/-- The calls of the dialogue of a call are made within it. -/
theorem record_within
    (levels : Nat)
    (path : List (ι × σ))
    (d : Dialogue ι ε σ β α) :
    Within path (d.record (R.trace levels path)).2 :=
  modular_within.record path (modular_within.trace R levels path) d

/-- All calls are the first one or made within it. -/
theorem trace_path
    (levels : Nat)
    (enclosing : List (ι × σ))
    (task : ι)
    (s : σ) :
    ∀ c ∈ Event.calls (R.trace levels enclosing task s).2,
      enclosing ++ [(task, s)] <+: c.path := by
  intro c hc
  cases levels with
  | zero =>
      cases List.mem_singleton.mp hc
      exact List.prefix_refl _
  | succ levels =>
      change c ∈ Event.calls (.started ⟨enclosing, task, s⟩ :: _ ++ [.finished _ _]) at hc
      rw [Event.calls_around] at hc
      rcases List.mem_cons.mp hc with rfl | hc
      · exact List.prefix_refl _
      · exact (R.record_within levels _ _ c hc).trans (List.prefix_append _ _)

/-- Every call that is finished has been started. -/
def Paired (events : List (Event ι ε σ β)) : Prop :=
  ∀ c outcome, .finished c outcome ∈ events → c ∈ Event.calls events

theorem modular_paired :
    Modular (fun (_ : List (ι × σ)) (events : List (Event ι ε σ β)) => Paired events) where
  nil _ _ _ hc := nomatch hc
  append h h' c outcome hc := by
    rw [Event.calls_append]
    rcases List.mem_append.mp hc with hc | hc
    · exact List.mem_append_left _ (h c outcome hc)
    · exact List.mem_append_right _ (h' c outcome hc)
  around call events outcome h c outcome' hc := by
    rw [Event.calls_around]
    rcases List.mem_append.mp hc with hc | hc
    · rcases List.mem_cons.mp hc with hc | hc
      · cases hc
      · exact List.mem_cons_of_mem _ (h c outcome' hc)
    · cases List.mem_singleton.mp hc
      exact List.mem_cons_self

/-- What is finished in the dialogue of a call has been started within it. -/
theorem started_of_finished
    {levels : Nat}
    {path : List (ι × σ)}
    {d : Dialogue ι ε σ β α}
    {c : Call ι σ}
    {outcome : EStateM.Result ε σ β}
    (hc : .finished c outcome ∈ (d.record (R.trace levels path)).2) :
    c ∈ Event.calls (d.record (R.trace levels path)).2 ∧ path <+: c.enclosing := by
  have hcall := modular_paired.record path (modular_paired.trace R levels path) d c outcome hc
  exact ⟨hcall, R.record_within levels path d c hcall⟩

end Recursion

/-! ## Manners -/

/-- What a step may do to the state between two calls, what a call may do to it, and what
becomes of errors. -/
structure Manner (ε σ : Type) where
  moves : σ → σ → Prop
  answers : σ → σ → Prop
  /-- The errors that a step ends with. -/
  raises : ε → Prop
  /-- The errors of calls that end a step at once, as its own. -/
  passes : ε → Prop
  refl (s : σ) : moves s s
  trans {s s' s'' : σ} : moves s s' → moves s' s'' → moves s s''
  /-- The other errors of calls may be the step's own. -/
  relays {e : ε} : ¬ passes e → raises e

/-- A dialogue keeps to a manner, from a state on. -/
inductive Keeps {ι ε σ β α : Type} (M : Manner ε σ) : σ → Dialogue ι ε σ β α → Prop
  | ok {s s' : σ} (a : α) : M.moves s s' → Keeps M s (.ends (.ok a s'))
  | error {s s' : σ} {e : ε} :
      M.raises e →
      M.moves s s' →
      Keeps M s (.ends (.error e s'))
  | asks {s s' : σ} {task : ι} {next : EStateM.Result ε σ β → Dialogue ι ε σ β α} :
      M.moves s s' →
      (∀ b s'', M.answers s' s'' → Keeps M s'' (next (.ok b s''))) →
      (∀ e s'', M.answers s' s'' → ¬ M.passes e → Keeps M s'' (next (.error e s''))) →
      (∀ e s'', M.passes e → ∃ s₁, next (.error e s'') = .ends (.error e s₁)) →
      Keeps M s (.asks task s' next)

/-- Something that holds of a state, and still does after any moves and calls. -/
structure Standing {ε σ : Type} (M : Manner ε σ) where
  holds : σ → Prop
  moved {s s' : σ} : M.moves s s' → holds s → holds s'
  answered {s s' : σ} : M.answers s s' → holds s → holds s'

namespace Standing

variable {ε σ : Type} {M : Manner ε σ}

/-- What always holds. -/
def always (M : Manner ε σ) : Standing M := ⟨fun _ => True, fun _ h => h, fun _ h => h⟩

end Standing

namespace Keeps

variable {ι ε σ β α γ : Type} {M : Manner ε σ} {s s' : σ} {d : Dialogue ι ε σ β α}

theorem of_moves
    (h : Keeps M s' d)
    (hs : M.moves s s') :
    Keeps M s d := by
  cases h with
  | ok a hmoves => exact .ok a (M.trans hs hmoves)
  | error hraises hmoves => exact .error hraises (M.trans hs hmoves)
  | asks hmoves hok herror hpasses => exact .asks (M.trans hs hmoves) hok herror hpasses

/-- What follows a dialogue keeps to its manner if it does so from every end, and passes
on what the dialogue passes on. -/
theorem settle
    (h : Keeps M s d)
    (P : Standing M)
    (hs : P.holds s)
    {f : EStateM.Result ε σ α → Dialogue ι ε σ β γ}
    (hok : ∀ a s, P.holds s → Keeps M s (f (.ok a s)))
    (herror : ∀ e s, P.holds s → M.raises e → Keeps M s (f (.error e s)))
    (hpasses : ∀ e s, M.passes e → ∃ s', f (.error e s) = .ends (.error e s')) :
    Keeps M s (d.settle f) := by
  induction h with
  | ok a hmoves => exact (hok a _ (P.moved hmoves hs)).of_moves hmoves
  | error hraises hmoves => exact (herror _ _ (P.moved hmoves hs) hraises).of_moves hmoves
  | asks hmoves hnext hfailed hpassed ihnext ihfailed =>
      have hs' := P.moved hmoves hs
      refine .asks hmoves (fun b s'' h => ihnext b s'' h (P.answered h hs'))
        (fun e s'' h hpass => ihfailed e s'' h hpass (P.answered h hs'))
        (fun e s'' hpass => ?_)
      obtain ⟨s₁, hnext₁⟩ := hpassed e s'' hpass
      obtain ⟨s₂, hf⟩ := hpasses e s₁ hpass
      exact ⟨s₂, by rw [hnext₁]; exact hf⟩

end Keeps

/-! ## Conduct of steps -/

/-- The dialogues of a step whose calls are made by a parameter, and that they keep to a
manner as long as something holds at the start. -/
structure Conduct {ι ε σ β α : Type} (M : Manner ε σ) (P : Standing M)
    (step : (ι → EStateM ε σ β) → EStateM ε σ α) where
  talk : σ → Dialogue ι ε σ β α
  run_talk (recur : ι → EStateM ε σ β) (s : σ) : (talk s).run recur = step recur s
  keeps (s : σ) : P.holds s → Keeps M s (talk s)

/-- A step without calls keeps to a manner. -/
def Manner.Quiet {ε σ α : Type} (M : Manner ε σ) (P : Standing M)
    (step : EStateM ε σ α) : Prop :=
  ∀ s, P.holds s → match step s with
    | .ok _ s' => M.moves s s'
    | .error e s' => M.raises e ∧ M.moves s s'

namespace Conduct

variable {ι ε σ β α γ δ : Type} {M : Manner ε σ} {P Q : Standing M}

/-- A step without calls. -/
def quiet {step : EStateM ε σ α} (h : M.Quiet P step) :
    Conduct M P (fun _ : ι → EStateM ε σ β => step) where
  talk s := .ends (step s)
  run_talk _ _ := rfl
  keeps s hs := by
    have hstep := h s hs
    cases hrun : step s with
    | ok a s' =>
        rw [hrun] at hstep
        exact .ok a hstep
    | error e s' =>
        rw [hrun] at hstep
        exact .error hstep.1 hstep.2

/-- A step that changes nothing. -/
def pure (a : α) : Conduct M P (fun _ : ι → EStateM ε σ β => Pure.pure a) :=
  quiet (fun s _ => M.refl s)

/-- A call. -/
def call (task : ι) : Conduct M P (fun recur : ι → EStateM ε σ β => recur task) where
  talk s := .asks task s .ends
  run_talk _ _ := rfl
  keeps s _ :=
    .asks (M.refl s) (fun b s'' _ => .ok b (M.refl s''))
      (fun _ s'' _ hpass => .error (M.relays hpass) (M.refl s''))
      (fun _ s'' _ => ⟨s'', rfl⟩)

/-- A step that does what another one does in every state. -/
def congrAt {step step' : (ι → EStateM ε σ β) → EStateM ε σ α} (C : Conduct M P step)
    (h : ∀ recur s, step recur s = step' recur s) : Conduct M P step' where
  talk := C.talk
  run_talk recur s := (C.run_talk recur s).trans (h recur s)
  keeps := C.keeps

/-- A step that is another one. -/
def congr {step step' : (ι → EStateM ε σ β) → EStateM ε σ α} (C : Conduct M P step)
    (h : ∀ recur, step recur = step' recur) : Conduct M P step' :=
  C.congrAt (fun recur s => congrFun (h recur) s)

/-- What is kept as long as something holds is kept where more holds. -/
def weaken {step : (ι → EStateM ε σ β) → EStateM ε σ α} (C : Conduct M P step)
    (h : ∀ s, Q.holds s → P.holds s) : Conduct M Q step where
  talk := C.talk
  run_talk := C.run_talk
  keeps s hs := C.keeps s (h s hs)

/-- A step, and what is done with its outcome. -/
def settle {step : (ι → EStateM ε σ β) → EStateM ε σ α} (C : Conduct M P step)
    (f : EStateM.Result ε σ α → Dialogue ι ε σ β γ)
    (hok : ∀ a s, P.holds s → Keeps M s (f (.ok a s)))
    (herror : ∀ e s, P.holds s → M.raises e → Keeps M s (f (.error e s)))
    (hpasses : ∀ e s, M.passes e → ∃ s', f (.error e s) = .ends (.error e s')) :
    Conduct M P (fun recur s => (f (step recur s)).run recur) where
  talk s := (C.talk s).settle f
  run_talk recur s := by rw [Dialogue.run_settle, C.run_talk]
  keeps s hs := (C.keeps s hs).settle P hs hok herror hpasses

/-- Two steps, the second of which depends on what the first one comes to. -/
def bind {first : (ι → EStateM ε σ β) → EStateM ε σ α}
    {second : α → (ι → EStateM ε σ β) → EStateM ε σ γ} (C : Conduct M P first)
    (D : ∀ a, Conduct M P (second a)) :
    Conduct M P (fun recur => first recur >>= fun a => second a recur) :=
  (C.settle
    (fun
      | .ok a s => (D a).talk s
      | .error e s => .ends (.error e s))
    (fun a s hs => (D a).keeps s hs)
    (fun _ s _ hraises => .error hraises (M.refl s))
    (fun _ s _ => ⟨s, rfl⟩)).congrAt (fun recur s => by
      change _ = EStateM.bind (first recur) _ s
      unfold EStateM.bind
      cases first recur s with
      | ok a s' => exact (D a).run_talk recur s'
      | error e s' => rfl)

/-- A step between two changes of the state, the second of which is made whether the step
fails or not. -/
def around {step : (ι → EStateM ε σ β) → EStateM ε σ α} (C : Conduct M P step)
    (enter leave : σ → σ) (henter : ∀ s, M.moves s (enter s))
    (hleave : ∀ s, M.moves s (leave s)) :
    Conduct M P (fun recur s =>
      match step recur (enter s) with
      | .ok a s' => .ok a (leave s')
      | .error e s' => .error e (leave s')) where
  talk s := (C.talk (enter s)).settle (fun
    | .ok a s' => .ends (.ok a (leave s'))
    | .error e s' => .ends (.error e (leave s')))
  run_talk recur s := by
    rw [Dialogue.run_settle, C.run_talk]
    cases step recur (enter s) <;> rfl
  keeps s hs := by
    have hs' := P.moved (henter s) hs
    refine Keeps.of_moves ?_ (henter s)
    exact (C.keeps (enter s) hs').settle P hs' (fun a s' _ => .ok a (hleave s'))
      (fun _ s' _ hraises => .error hraises (hleave s')) (fun _ s' _ => ⟨leave s', rfl⟩)

/-- A step that depends on the state in which it is run. -/
def atState {step : σ → (ι → EStateM ε σ β) → EStateM ε σ α} {Q : σ → Standing M}
    (C : ∀ s₀, Conduct M (Q s₀) (step s₀)) (h : ∀ s, P.holds s → (Q s).holds s) :
    Conduct M P (fun recur s => step s recur s) where
  talk s := (C s).talk s
  run_talk recur s := (C s).run_talk recur s
  keeps s hs := (C s).keeps s (h s hs)

/-- A step for each case of an optional value. -/
def option {present : γ → (ι → EStateM ε σ β) → EStateM ε σ α}
    {absent : (ι → EStateM ε σ β) → EStateM ε σ α} (C : ∀ a, Conduct M P (present a))
    (D : Conduct M P absent) :
    (found : Option γ) →
      Conduct M P (fun recur => found.elim (absent recur) (fun a => present a recur))
  | some a => C a
  | none => D

/-- A step for each outcome of a computation that may fail. -/
def except {fine : γ → (ι → EStateM ε σ β) → EStateM ε σ α}
    {failed : δ → (ι → EStateM ε σ β) → EStateM ε σ α} (C : ∀ a, Conduct M P (fine a))
    (D : ∀ e, Conduct M P (failed e)) :
    (outcome : Except δ γ) →
      Conduct M P (fun recur =>
        outcome.casesOn (motive := fun _ => EStateM ε σ α) (fun e => failed e recur)
          (fun a => fine a recur))
  | .ok a => C a
  | .error e => D e

/-- A step for each case of a list. -/
def list {nonempty : γ → List γ → (ι → EStateM ε σ β) → EStateM ε σ α}
    {empty : (ι → EStateM ε σ β) → EStateM ε σ α}
    (C : ∀ a as, Conduct M P (nonempty a as)) (D : Conduct M P empty) :
    (found : List γ) →
      Conduct M P (fun recur =>
        found.casesOn (motive := fun _ => EStateM ε σ α) (empty recur)
          (fun a as => nonempty a as recur))
  | a :: as => C a as
  | [] => D

/-- One step for each element of a list, in order. -/
def mapM {step : γ → (ι → EStateM ε σ β) → EStateM ε σ α}
    (C : ∀ a, Conduct M P (step a)) :
    (as : List γ) → Conduct M P (fun recur => as.mapM (fun a => step a recur))
  | [] => (pure []).congr (fun recur => by rw [List.mapM_nil])
  | a :: as =>
      ((C a).bind (fun b => (mapM C as).bind (fun bs => pure (b :: bs)))).congr
        (fun recur => by rw [List.mapM_cons])

/-- One step for each element of a list, each going on from what the one before came
to. -/
def foldlM {step : δ → γ → (ι → EStateM ε σ β) → EStateM ε σ δ}
    (C : ∀ b a, Conduct M P (step b a)) :
    (as : List γ) → (b : δ) →
      Conduct M P (fun recur => as.foldlM (fun b a => step b a recur) b)
  | [], b => (pure b).congr (fun recur => by rw [List.foldlM_nil])
  | a :: as, b =>
      ((C b a).bind (fun b' => foldlM C as b')).congr
        (fun recur => by rw [List.foldlM_cons])

/-- One step for each element of a list, whose results do not matter. -/
def forM {step : γ → (ι → EStateM ε σ β) → EStateM ε σ PUnit}
    (C : ∀ a, Conduct M P (step a)) :
    (as : List γ) → Conduct M P (fun recur => as.forM (fun a => step a recur))
  | [] => (pure ⟨⟩).congr (fun _ => rfl)
  | a :: as => ((C a).bind (fun _ => forM C as)).congr (fun _ => rfl)

end Conduct
end Wiring
