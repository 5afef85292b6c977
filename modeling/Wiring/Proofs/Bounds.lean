import Wiring.Proofs.Bounds.Conduct
import Wiring.Proofs.Collecting

/-!
# Resolution is bounded

A request is opened only while fewer requests are open than the options allow, and only
while fewer have been opened in all.  So a search opens at most so many requests, and no
deeper nesting than the options allow is ever needed.  This does not depend on how often
nested requests are made or on what they are made for.

The calls of a search are those that are written down by its recursion, opened and refused
ones.  A request that is refused ends the whole search, with an error that lists the open
requests from the top-level one to the refused one.

**Results.**
* `Keeps.bounded`: a step is bounded if its nested requests are.
* `Resolve.trace_bounded`: this for a request with others open.
* `Graph.Consulted.resolve_bounded`: this for a top-level request, and that it needs no
  deeper nesting.
-/

namespace Wiring

/-- A request in a scope. -/
abbrev Inquiry := ScopeId × Request

/-- A request that is made while others are open. -/
abbrev Visit := Call Inquiry Search

/-- Whether one more request may be opened. -/
def Search.admits (s : Search) : Bool := s.chain.counter.enter.1 = .entered

namespace Event

variable {ε β : Type}

/-- The requests that are opened, in order. -/
def opened (events : List (Event Inquiry ε Search β)) : List Visit :=
  (calls events).filter (fun c => c.before.admits)

@[simp] theorem opened_append (events events' : List (Event Inquiry ε Search β)) :
    opened (events ++ events') = opened events ++ opened events' := by
  simp [opened]

/-- Without a refused request all are opened. -/
theorem opened_eq_calls
    {events : List (Event Inquiry ε Search β)}
    (h : ∀ c ∈ calls events, c.before.admits = true) :
    opened events = calls events :=
  List.filter_eq_self.mpr h

end Event

/-! ## Refused requests -/

/-- The open requests and the request itself, as hops of a reported chain. -/
def Call.links (c : Visit) : List Link := c.path.map (fun p => p.1.2.link)

/-- Whether an error refuses a request: as one too many on the chain, which is as long as
it may be then, or as one too many in all. -/
inductive Refuses (B : Build) (c : Visit) : ResolutionError → Prop
  | tooDeep :
      c.links.length = B.options.maxDepth + 1 →
      Refuses B c (.depthExceeded c.task.2.type B.options.maxDepth c.links)
  | outOfSteps :
      c.links.length ≤ B.options.maxDepth + 1 →
      Refuses B c (.stepBudgetExceeded c.task.2.type B.options.maxSteps c.links)

/-- Whether a search stands where given requests are open, within its bounds. -/
structure Stands (B : Build) (enclosing : List (Inquiry × Search)) (s : Search) : Prop where
  requests : s.chain.requests = enclosing.map (fun p => p.1.2)
  depth : s.chain.counter.depth = enclosing.length
  maxDepth : s.chain.counter.maxDepth = B.options.maxDepth
  maxSteps : s.chain.counter.maxSteps = B.options.maxSteps
  deep : enclosing.length ≤ B.options.maxDepth
  steps : s.chain.counter.steps ≤ B.options.maxSteps
  rooted : s.graph.Rooted
  numbered : s.graph.Numbered

namespace Stands

variable {B : Build} {enclosing : List (Inquiry × Search)} {s s' : Search}

theorem moves
    (h : Stands B enclosing s)
    (hs : s.Moves s') :
    Stands B enclosing s' where
  requests := hs.requests.trans h.requests
  depth := by rw [hs.counter, h.depth]
  maxDepth := by rw [hs.counter, h.maxDepth]
  maxSteps := by rw [hs.counter, h.maxSteps]
  deep := h.deep
  steps := by rw [hs.counter]; exact h.steps
  rooted := hs.graph.rooted h.rooted
  numbered := hs.graph.numbered h.numbered

/-- The innermost request is closed. -/
theorem close
    {p : Inquiry × Search}
    (h : Stands B (enclosing ++ [p]) s) :
    Stands B enclosing { s with chain := s.chain.closeRequest } where
  requests := by simp [Chain.closeRequest, h.requests]
  depth := by simp [Chain.closeRequest, Walk.Counter.leave, h.depth]
  maxDepth := h.maxDepth
  maxSteps := h.maxSteps
  deep := by
    have hdeep := h.deep
    rw [List.length_append] at hdeep
    omega
  steps := h.steps
  rooted := h.rooted
  numbered := h.numbered

/-- The counters after one more attempt, which is counted whatever it comes to. -/
def counted (s : Search) : Walk.Counter :=
  { s.chain.counter with steps := s.chain.counter.steps + 1 }

/-- As long as the budget is below the greatest number of steps, every attempt is
counted. -/
theorem enter_eq
    (h : Stands B enclosing s)
    (hbudget : B.options.maxSteps < Limits.counterCeiling) :
    s.chain.counter.enter =
      if B.options.maxSteps ≤ s.chain.counter.steps then (.outOfSteps, counted s)
      else if enclosing.length = B.options.maxDepth then (.tooDeep, counted s)
      else (.entered, { counted s with depth := enclosing.length + 1 }) := by
  have hsteps := h.steps
  have hmin : min (s.chain.counter.steps + 1) Limits.counterCeiling
      = s.chain.counter.steps + 1 := by omega
  unfold Walk.Counter.enter
  simp only [hmin, h.maxSteps, h.maxDepth, h.depth]
  have hdeep := h.deep
  by_cases hbudget' : B.options.maxSteps ≤ s.chain.counter.steps
  · rw [if_pos (by omega), if_pos hbudget']
    simp [counted, h.maxSteps, h.maxDepth, h.depth]
  · rw [if_neg (by omega), if_neg hbudget']
    by_cases htop : enclosing.length = B.options.maxDepth
    · rw [if_pos (by omega), if_pos htop]
      simp [counted, h.maxSteps, h.maxDepth, h.depth]
    · rw [if_neg (by omega), if_neg htop]
      simp [counted, h.maxSteps, h.maxDepth]

/-- The open requests and one more, as hops of a reported chain. -/
theorem links_eq
    (h : Stands B enclosing s)
    (q : Inquiry) :
    s.chain.links ++ [q.2.link] = (Call.mk enclosing q s).links := by
  unfold Chain.links Call.links Call.path
  rw [h.requests]
  simp

theorem length_links
    (h : Stands B enclosing s)
    (q : Inquiry) :
    (Call.mk enclosing q s).links.length ≤ B.options.maxDepth + 1 := by
  have hdeep := h.deep
  simp only [Call.links, Call.path, List.length_map, List.length_append,
    List.length_singleton]
  omega

end Stands

/-! ## Bounded parts of a search -/

/-- What is known of a part of a search that runs while given requests are open.  Either
it ends well and has opened all its requests, each of which is counted, or it fails: with
the refusal of a request that it did not open, or with an error of its own. -/
inductive Bounded (B : Build) {α : Type} (enclosing : List (Inquiry × Search))
    (s : Search) : Recorded Inquiry ResolutionError Search NodeId α → Prop
  | answered {a : α} {s' : Search}
      {events : List (Event Inquiry ResolutionError Search NodeId)} :
      (∀ c ∈ Event.calls events, Stands B c.enclosing c.before) →
      (∀ c ∈ Event.calls events, c.before.admits = true) →
      Stands B enclosing s' →
      s.graph.Branches s'.graph →
      s'.chain.counter.steps = s.chain.counter.steps + (Event.calls events).length →
      Bounded B enclosing s (.ok a s', events)
  | failed {e : ResolutionError} {s' : Search}
      {events : List (Event Inquiry ResolutionError Search NodeId)} :
      (∀ c ∈ Event.calls events, Stands B c.enclosing c.before) →
      s.chain.counter.steps + (Event.opened events).length ≤ B.options.maxSteps →
      (∀ c ∈ Event.calls events, c.before.admits = false → Refuses B c e) →
      (B.Raises e ∨ ∃ c ∈ Event.calls events, c.before.admits = false) →
      Bounded B enclosing s (.error e s', events)

namespace Bounded

variable {B : Build} {enclosing : List (Inquiry × Search)} {s s' : Search} {α : Type}

/-- What a search did before it made a call does not matter. -/
theorem of_moves
    {p : Recorded Inquiry ResolutionError Search NodeId α}
    (h : Bounded B enclosing s' p)
    (hs : s.Moves s') :
    Bounded B enclosing s p := by
  have hsteps : s'.chain.counter.steps = s.chain.counter.steps := by rw [hs.counter]
  cases h with
  | answered hstands hadmits hs' hbranches hcounted =>
      exact .answered hstands hadmits hs' (hs.graph.trans hbranches) (by omega)
  | failed hstands hcounted hrefuses hcause =>
      exact .failed hstands (by omega) hrefuses hcause

/-- A part of a search that goes on after another one ended well. -/
theorem append
    {id : NodeId}
    {events : List (Event Inquiry ResolutionError Search NodeId)}
    {rest : Recorded Inquiry ResolutionError Search NodeId α}
    (h : Bounded B enclosing s
      ((.ok id s', events) : Recorded Inquiry ResolutionError Search NodeId NodeId))
    (hrest : Bounded B enclosing s' rest) :
    Bounded B enclosing s (rest.1, events ++ rest.2) := by
  cases h with
  | answered hstands hadmits _ hbranches hcounted =>
      cases hrest with
      | answered hstands' hadmits' hs'' hbranches' hcounted' =>
          refine .answered ?_ ?_ hs'' (hbranches.trans hbranches') ?_
          · simpa [or_imp, forall_and] using ⟨hstands, hstands'⟩
          · simpa [or_imp, forall_and] using ⟨hadmits, hadmits'⟩
          · simp only [Event.calls_append, List.length_append]
            omega
      | failed hstands' hcounted' hrefuses hcause =>
          refine .failed ?_ ?_ ?_ ?_
          · simpa [or_imp, forall_and] using ⟨hstands, hstands'⟩
          · simp only [Event.opened_append, Event.opened_eq_calls hadmits, List.length_append]
            omega
          · intro c hc hrefused
            rcases List.mem_append.mp (Event.calls_append _ _ ▸ hc) with hc | hc
            · exact nomatch (hadmits c hc).symm.trans hrefused
            · exact hrefuses c hc hrefused
          · refine hcause.imp_right (fun ⟨c, hc, hrefused⟩ => ⟨c, ?_, hrefused⟩)
            simp [hc]

end Bounded

/-- A step is bounded if its nested requests are. -/
theorem Keeps.bounded
    {B : Build}
    {α : Type}
    {s : Search}
    {d : Dialogue Inquiry ResolutionError Search NodeId α}
    (h : Keeps B.manner s d)
    {enclosing : List (Inquiry × Search)}
    (hs : Stands B enclosing s)
    {solve : Inquiry → Search → Recorded Inquiry ResolutionError Search NodeId NodeId}
    (hsolve : ∀ q s, Stands B enclosing s → Bounded B enclosing s (solve q s)) :
    Bounded B enclosing s (d.record solve) := by
  induction h with
  | ok a hmoves =>
      refine .answered (fun _ hc => nomatch hc) (fun _ hc => nomatch hc)
        (hs.moves hmoves) hmoves.graph ?_
      rw [hmoves.counter]
      rfl
  | error hraises hmoves =>
      exact .failed (fun _ hc => nomatch hc) hs.steps (fun _ hc => nomatch hc) (.inl hraises)
  | @asks s s' q next hmoves _ _ hpasses ih _ =>
      have hcall := hsolve q s' (hs.moves hmoves)
      refine Bounded.of_moves ?_ hmoves
      rw [Dialogue.record]
      generalize solve q s' = solved at hcall
      have hcalled := hcall
      cases hcall with
      | @answered id s₁ events _ _ hs₁ hbranches _ =>
          exact hcalled.append (ih id s₁ hbranches hs₁)
      | @failed e s₁ events hstands hcounted hrefuses hcause =>
          obtain ⟨s₂, hnext⟩ := hpasses e s₁ trivial
          dsimp only
          rw [hnext]
          simp only [Dialogue.record, List.append_nil]
          exact .failed hstands hcounted hrefuses hcause

/-- The outcome of a step does not depend on how nested requests are solved where they are
never made. -/
theorem Keeps.record_congr
    {B : Build}
    {α : Type}
    {s : Search}
    {d : Dialogue Inquiry ResolutionError Search NodeId α}
    (h : Keeps B.manner s d)
    {enclosing : List (Inquiry × Search)}
    (hs : Stands B enclosing s)
    {solve solve' : Inquiry → Search → Recorded Inquiry ResolutionError Search NodeId NodeId}
    (hsolve : ∀ q s, Stands B enclosing s → Bounded B enclosing s (solve q s))
    (heq : ∀ q s, Stands B enclosing s → solve' q s = solve q s) :
    d.record solve' = d.record solve := by
  induction h with
  | ok a hmoves => rfl
  | error hraises hmoves => rfl
  | @asks s s' q next hmoves _ _ hpasses ih _ =>
      have hs' := hs.moves hmoves
      have hcall := hsolve q s' hs'
      rw [Dialogue.record, Dialogue.record, heq q s' hs']
      generalize solve q s' = solved at hcall
      cases hcall with
      | @answered id s₁ events _ _ hs₁ hbranches _ =>
          dsimp only
          rw [ih id s₁ hbranches hs₁]
      | @failed e s₁ events _ _ _ _ =>
          obtain ⟨s₂, hnext⟩ := hpasses e s₁ trivial
          dsimp only
          rw [hnext]
          rfl

/-! ## Requests -/

namespace Resolve

/-- Close the request that was opened last, whatever it came to. -/
def closed : EStateM.Result ResolutionError Search NodeId →
    EStateM.Result ResolutionError Search NodeId
  | .ok id s => .ok id { s with chain := s.chain.closeRequest }
  | .error e s => .error e { s with chain := s.chain.closeRequest }

/-- A request: it is refused, or it is opened, answered and closed. -/
def requestTalk (B : Build) (q : Inquiry) (s : Search) :
    Dialogue Inquiry ResolutionError Search NodeId NodeId :=
  match s.chain.counter.enter with
  | (.entered, counter) =>
      ((answerConduct B q.1 q.2).talk
          { s with chain := s.chain.openRequest counter q.2 }).settle
        (fun outcome => .ends (closed outcome))
  | (.outOfSteps, counter) =>
      .ends (refuse q.2 counter (fun t => .stepBudgetExceeded t counter.maxSteps) s)
  | (_, counter) =>
      .ends (refuse q.2 counter (fun t => .depthExceeded t counter.maxDepth) s)

/-- Requests, each of which is answered with the help of nested ones. -/
def requests (B : Build) : Recursion Inquiry ResolutionError Search NodeId where
  cutOff q := request B 0 q.1 q.2
  talk := requestTalk B

/-- A request is solved by the function that resolves it. -/
theorem solve_requests (B : Build) (levels : Nat) (q : Inquiry) :
    (requests B).solve levels q = request B levels q.1 q.2 := by
  induction levels generalizing q with
  | zero => rfl
  | succ levels ih =>
      funext s
      change (requestTalk B q s).run ((requests B).solve levels) = _
      have hsolve : (requests B).solve levels = fun q => request B levels q.1 q.2 :=
        funext ih
      rw [hsolve]
      unfold requestTalk
      conv_rhs => unfold request
      rcases s.chain.counter.enter with ⟨outcome, counter⟩
      cases outcome with
      | entered =>
          dsimp only
          rw [Dialogue.run_settle, (answerConduct B q.1 q.2).run_talk]
          unfold withRequest bracket
          dsimp only
          cases answer B (request B levels) q.1 q.2
            { s with chain := s.chain.openRequest counter q.2 } <;> rfl
      | repeated => rfl
      | tooDeep => rfl
      | outOfSteps => rfl

section Bounds

variable {B : Build} {enclosing : List (Inquiry × Search)} {s : Search}

/-- The search with one more request open. -/
def opened (enclosing : List (Inquiry × Search)) (q : Inquiry) (s : Search) : Search :=
  { s with chain :=
      s.chain.openRequest { Stands.counted s with depth := enclosing.length + 1 } q.2 }

/-- The search after a request was refused. -/
def counting (s : Search) : Search :=
  { s with chain := { s.chain with counter := Stands.counted s } }

/-- A refusal names the request and those that enclose it. -/
theorem refuse_eq
    (hs : Stands B enclosing s)
    (q : Inquiry)
    (cause : Ty → List Link → ResolutionError) :
    refuse q.2 (Stands.counted s) cause s
      = .error (cause q.2.type (Call.mk enclosing q s).links) (counting s) := by
  unfold refuse
  rw [hs.links_eq q]
  rfl

theorem trace_of_talk
    {q : Inquiry}
    {outcome : EStateM.Result ResolutionError Search NodeId}
    (hrefused : s.admits = false)
    (enclosing : List (Inquiry × Search))
    (htalk : (requests B).talk q s = .ends outcome)
    (levels : Nat) :
    (requests B).trace levels enclosing q s
      = (outcome, [.started ⟨enclosing, q, s⟩, .finished ⟨enclosing, q, s⟩ outcome]) := by
  refine (requests B).trace_of_ends htalk ?_ enclosing levels
  change requestTalk B q s = _ at htalk
  change request B 0 q.1 q.2 s = _
  unfold requestTalk at htalk
  unfold Search.admits at hrefused
  unfold request
  generalize s.chain.counter.enter = entered at htalk hrefused ⊢
  obtain ⟨result, counter⟩ := entered
  cases result with
  | entered => cases hrefused
  | repeated => exact Dialogue.ends.inj htalk
  | tooDeep => exact Dialogue.ends.inj htalk
  | outOfSteps => exact Dialogue.ends.inj htalk

/-- A request that is refused makes no nested requests, at any depth. -/
theorem trace_of_refused
    (hs : Stands B enclosing s)
    (hbudget : B.options.maxSteps < Limits.counterCeiling)
    (hrefused : s.admits = false)
    (q : Inquiry) :
    ∃ e s', Refuses B ⟨enclosing, q, s⟩ e
      ∧ ∀ levels, (requests B).trace levels enclosing q s
        = (.error e s', [.started ⟨enclosing, q, s⟩,
            .finished ⟨enclosing, q, s⟩ (.error e s')]) := by
  have henter := hs.enter_eq hbudget
  by_cases hsteps : B.options.maxSteps ≤ s.chain.counter.steps
  · rw [if_pos hsteps] at henter
    have hmax : (Stands.counted s).maxSteps = B.options.maxSteps := hs.maxSteps
    have houtcome :=
      refuse_eq hs q (fun t => .stepBudgetExceeded t (Stands.counted s).maxSteps)
    rw [hmax] at houtcome
    refine ⟨_, counting s, .outOfSteps (hs.length_links q),
      trace_of_talk hrefused enclosing ?_⟩
    change requestTalk B q s = _
    unfold requestTalk
    rw [henter]
    dsimp only
    rw [hmax]
    exact congrArg Dialogue.ends houtcome
  · rw [if_neg hsteps] at henter
    by_cases htop : enclosing.length = B.options.maxDepth
    · rw [if_pos htop] at henter
      have hmax : (Stands.counted s).maxDepth = B.options.maxDepth := hs.maxDepth
      have houtcome :=
        refuse_eq hs q (fun t => .depthExceeded t (Stands.counted s).maxDepth)
      rw [hmax] at houtcome
      refine ⟨_, counting s, .tooDeep ?_, trace_of_talk hrefused enclosing ?_⟩
      · simp [Call.links, Call.path, htop]
      · change requestTalk B q s = _
        unfold requestTalk
        rw [henter]
        dsimp only
        rw [hmax]
        exact congrArg Dialogue.ends houtcome
    · rw [if_neg htop] at henter
      unfold Search.admits at hrefused
      rw [henter] at hrefused
      cases hrefused

theorem bounded_of_refused
    (hs : Stands B enclosing s)
    (hbudget : B.options.maxSteps < Limits.counterCeiling)
    (hrefused : s.admits = false)
    (q : Inquiry)
    (levels : Nat) :
    Bounded B enclosing s ((requests B).trace levels enclosing q s) := by
  obtain ⟨e, s', hrefuses, htrace⟩ := trace_of_refused hs hbudget hrefused q
  rw [htrace]
  refine .failed ?_ ?_ ?_ (.inr ⟨_, List.mem_singleton_self _, hrefused⟩)
  · intro c hc
    cases List.mem_singleton.mp hc
    exact hs
  · have hnone : Event.opened [.started ⟨enclosing, q, s⟩,
        .finished (ε := ResolutionError) ⟨enclosing, q, s⟩ (.error e s' :
          EStateM.Result ResolutionError Search NodeId)] = [] := by
      simp [Event.opened, Event.calls, Event.start?, hrefused]
    rw [hnone]
    exact hs.steps
  · intro c hc _
    cases List.mem_singleton.mp hc
    exact hrefuses

/-- A request that is entered is answered while it is open. -/
theorem trace_of_entered
    (h : s.chain.counter.enter.1 = .entered)
    (enclosing : List (Inquiry × Search))
    (q : Inquiry)
    (levels : Nat) :
    (requests B).trace (levels + 1) enclosing q s
      = (let inside := ((answerConduct B q.1 q.2).talk
            { s with chain := s.chain.openRequest s.chain.counter.enter.2 q.2 }).record
            ((requests B).trace levels (enclosing ++ [(q, s)]))
        (closed inside.1,
          .started ⟨enclosing, q, s⟩ :: inside.2
            ++ [.finished ⟨enclosing, q, s⟩ (closed inside.1)])) := by
  have htalk : (requests B).talk q s
      = ((answerConduct B q.1 q.2).talk
          { s with chain := s.chain.openRequest s.chain.counter.enter.2 q.2 }).settle
        (fun outcome => .ends (closed outcome)) := by
    change requestTalk B q s = _
    unfold requestTalk
    generalize s.chain.counter.enter = entered at h
    obtain ⟨result, counter⟩ := entered
    cases h
    rfl
  rw [Recursion.trace, htalk, Dialogue.record_settle_ends]

/-- Within the bounds, a request that is entered may be opened. -/
theorem trace_of_admitted
    (hs : Stands B enclosing s)
    (hbudget : B.options.maxSteps < Limits.counterCeiling)
    (hadmits : s.admits = true)
    (q : Inquiry)
    (levels : Nat) :
    Stands B (enclosing ++ [(q, s)]) (opened enclosing q s)
      ∧ enclosing.length < B.options.maxDepth
      ∧ (requests B).trace (levels + 1) enclosing q s
        = (let inside := ((answerConduct B q.1 q.2).talk (opened enclosing q s)).record
              ((requests B).trace levels (enclosing ++ [(q, s)]))
          (closed inside.1,
            .started ⟨enclosing, q, s⟩ :: inside.2
              ++ [.finished ⟨enclosing, q, s⟩ (closed inside.1)])) := by
  have henter := hs.enter_eq hbudget
  unfold Search.admits at hadmits
  by_cases hsteps : B.options.maxSteps ≤ s.chain.counter.steps
  · rw [if_pos hsteps] at henter
    rw [henter] at hadmits
    cases hadmits
  · by_cases htop : enclosing.length = B.options.maxDepth
    · rw [if_neg hsteps, if_pos htop] at henter
      rw [henter] at hadmits
      cases hadmits
    · rw [if_neg hsteps, if_neg htop] at henter
      have hdeep := hs.deep
      refine ⟨?_, by omega, ?_⟩
      · exact
          { requests := by simp [opened, Chain.openRequest, hs.requests]
            depth := by simp [opened, Chain.openRequest]
            maxDepth := hs.maxDepth
            maxSteps := hs.maxSteps
            deep := by simp only [List.length_append, List.length_singleton]; omega
            steps := by simp only [opened, Chain.openRequest, Stands.counted]; omega
            rooted := hs.rooted
            numbered := hs.numbered }
      · have htrace := trace_of_entered (B := B) (s := s) (by rw [henter]) enclosing q levels
        rw [henter] at htrace
        exact htrace

/-- A request that is opened is bounded if what it gives rise to is. -/
theorem bounded_of_admitted
    (hs : Stands B enclosing s)
    (hadmits : s.admits = true)
    (q : Inquiry)
    {inside : Recorded Inquiry ResolutionError Search NodeId NodeId}
    (h : Bounded B (enclosing ++ [(q, s)]) (opened enclosing q s) inside) :
    Bounded B enclosing s
      (closed inside.1,
        .started ⟨enclosing, q, s⟩ :: inside.2
          ++ [.finished ⟨enclosing, q, s⟩ (closed inside.1)]) := by
  have hsteps : (opened enclosing q s).chain.counter.steps
      = s.chain.counter.steps + 1 := rfl
  cases h with
  | @answered id s₁ events hstands hopened hs₁ hbranches hcounted =>
      refine .answered ?_ ?_ hs₁.close hbranches ?_
      · rw [Event.calls_around]
        exact List.forall_mem_cons.mpr ⟨hs, hstands⟩
      · rw [Event.calls_around]
        exact List.forall_mem_cons.mpr ⟨hadmits, hopened⟩
      · rw [Event.calls_around, List.length_cons]
        change s₁.chain.counter.steps
          = s.chain.counter.steps + ((Event.calls events).length + 1)
        omega
  | @failed e s₁ events hstands hcounted hrefuses hcause =>
      refine .failed ?_ ?_ ?_ ?_
      · rw [Event.calls_around]
        exact List.forall_mem_cons.mpr ⟨hs, hstands⟩
      · have hevents : Event.opened (.started ⟨enclosing, q, s⟩ :: events
            ++ [.finished ⟨enclosing, q, s⟩ (closed (.error e s₁))])
            = ⟨enclosing, q, s⟩ :: Event.opened events := by
          unfold Event.opened
          rw [Event.calls_around]
          exact List.filter_cons_of_pos hadmits
        rw [hevents, List.length_cons]
        omega
      · rw [Event.calls_around]
        exact List.forall_mem_cons.mpr
          ⟨fun hrefused => (nomatch hadmits.symm.trans hrefused), hrefuses⟩
      · rw [Event.calls_around]
        exact hcause.imp_right
          (fun ⟨c, hc, hrefused⟩ => ⟨c, List.mem_cons_of_mem _ hc, hrefused⟩)

/-- Where as many requests are open as may be, one more is refused. -/
theorem refused_of_deep
    (hs : Stands B enclosing s)
    (hbudget : B.options.maxSteps < Limits.counterCeiling)
    (hdeep : B.options.maxDepth ≤ enclosing.length)
    (q : Inquiry) :
    s.admits = false := by
  by_contra hadmits
  obtain ⟨-, hlt, -⟩ := trace_of_admitted hs hbudget (by simpa using hadmits) q 0
  omega

/-- A request is bounded, with any requests open, if it is solved down to the deepest
level that the options allow. -/
theorem trace_bounded
    (hbudget : B.options.maxSteps < Limits.counterCeiling)
    (levels : Nat)
    (hs : Stands B enclosing s)
    (hlevels : B.options.maxDepth ≤ enclosing.length + levels)
    (q : Inquiry) :
    Bounded B enclosing s ((requests B).trace levels enclosing q s) := by
  induction levels generalizing enclosing s q with
  | zero =>
      have hrefused := refused_of_deep hs hbudget hlevels q
      exact bounded_of_refused hs hbudget hrefused q 0
  | succ levels ih =>
      by_cases hadmits : s.admits = true
      · obtain ⟨hopen, hlt, htrace⟩ := trace_of_admitted hs hbudget hadmits q levels
        have hlevels' : B.options.maxDepth ≤ (enclosing ++ [(q, s)]).length + levels := by
          simp only [List.length_append, List.length_singleton]
          omega
        have hinside := ((answerConduct B q.1 q.2).keeps _ hopen.numbered).bounded hopen
          (fun q' s' hs' => ih hs' hlevels' q')
        rw [htrace]
        exact bounded_of_admitted hs hadmits q hinside
      · exact bounded_of_refused hs hbudget (by simpa using hadmits) q (levels + 1)

/-- A request needs no deeper level than the options allow. -/
theorem trace_add
    (hbudget : B.options.maxSteps < Limits.counterCeiling)
    {levels : Nat}
    (hs : Stands B enclosing s)
    (hlevels : B.options.maxDepth ≤ enclosing.length + levels)
    (q : Inquiry)
    (extra : Nat) :
    (requests B).trace (levels + extra) enclosing q s
      = (requests B).trace levels enclosing q s := by
  induction levels generalizing enclosing s q with
  | zero =>
      have hrefused := refused_of_deep hs hbudget hlevels q
      obtain ⟨e, s', -, htrace⟩ := trace_of_refused hs hbudget hrefused q
      rw [htrace, htrace]
  | succ levels ih =>
      by_cases hadmits : s.admits = true
      · obtain ⟨hopen, hlt, htrace⟩ := trace_of_admitted hs hbudget hadmits q levels
        obtain ⟨-, -, htrace'⟩ := trace_of_admitted hs hbudget hadmits q (levels + extra)
        have hlevels' : B.options.maxDepth ≤ (enclosing ++ [(q, s)]).length + levels := by
          simp only [List.length_append, List.length_singleton]
          omega
        have hcongr := ((answerConduct B q.1 q.2).keeps _ hopen.numbered).record_congr hopen
          (fun q' s' hs' => trace_bounded hbudget levels hs' hlevels' q')
          (fun q' s' hs' => ih hs' hlevels' q')
        rw [Nat.add_right_comm, htrace, htrace', hcongr]
      · obtain ⟨e, s', -, htrace⟩ := trace_of_refused hs hbudget (by simpa using hadmits) q
        rw [htrace, htrace]

end Bounds

end Resolve

/-! ## Top-level requests -/

/-- What bounds mean for the requests that are written down in a search for the answer to
a top-level request, and for its outcome. -/
structure Resolve.WithinBounds (B : Build) (top : Request)
    (events : List (Event Inquiry ResolutionError Search NodeId))
    (outcome : Except ResolutionError NodeId) : Prop where
  /-- As many requests are opened as the options allow, at most. -/
  steps : (Event.opened events).length ≤ B.options.maxSteps
  /-- A request is opened within fewer open requests than the options allow. -/
  depth {before after : List (Event Inquiry ResolutionError Search NodeId)} {c : Visit} :
    events = before ++ .started c :: after →
    c.before.admits = true →
    (Event.openAfter before []).length + 1 ≤ B.options.maxDepth
  /-- A refused request is what the search fails with: the chain runs from the top-level
  request through the open ones to the refused one. -/
  refused {before after : List (Event Inquiry ResolutionError Search NodeId)} {c : Visit} :
    events = before ++ .started c :: after →
    c.before.admits = false →
    ∃ e, outcome = .error e ∧ Refuses B c e
      ∧ c.links = (Event.openAfter before []).map (fun p => p.1.2.link) ++ [c.task.2.link]
      ∧ c.links.head? = some top.link
  /-- Otherwise a limit is only reported if expanding modules does. -/
  limits {e : ResolutionError} :
    outcome = .error e →
    e.isLimit = true →
    (∃ c ∈ Event.calls events, c.before.admits = false)
      ∨ ∃ declarations, expand B.catalog.module? declarations = .error e
  /-- Whenever a request is made, the parent links between scopes come to an end. -/
  rooted : ∀ c ∈ Event.calls events, c.before.graph.Rooted

namespace Resolve

variable {B : Build} {g : Graph}

/-- A search stands at the beginning. -/
theorem stands_start
    (hrooted : g.Rooted)
    (hnumbered : g.Numbered) :
    Stands B [] ⟨g, .start B.options⟩ where
  requests := rfl
  depth := rfl
  maxDepth := rfl
  maxSteps := rfl
  deep := Nat.zero_le _
  steps := Nat.zero_le _
  rooted := hrooted
  numbered := hnumbered

/-- What is known of a whole search. -/
theorem withinBounds_of_bounded
    (hbudget : B.options.maxSteps < Limits.counterCeiling)
    {levels : Nat}
    {q : Inquiry}
    (h : Bounded B [] ⟨g, .start B.options⟩
      ((requests B).trace levels [] q ⟨g, .start B.options⟩)) :
    WithinBounds B q.2 ((requests B).trace levels [] q ⟨g, .start B.options⟩).2
      ((requests B).trace levels [] q ⟨g, .start B.options⟩).answer := by
  have henclosing {before after : List (Event Inquiry ResolutionError Search NodeId)}
      {c : Visit}
      (hevents : ((requests B).trace levels [] q ⟨g, .start B.options⟩).2
        = before ++ .started c :: after) :
      c.enclosing = Event.openAfter before [] :=
    (requests B).trace_enclosing hevents
  have hpath := (requests B).trace_path levels [] q ⟨g, .start B.options⟩
  generalize (requests B).trace levels [] q ⟨g, .start B.options⟩ = solved at *
  have hstands : ∀ c ∈ Event.calls solved.2, Stands B c.enclosing c.before := by
    cases h with
    | answered hstands => exact hstands
    | failed hstands => exact hstands
  refine
    { steps := ?_
      depth := fun {before after c} hevents hadmits => ?_
      refused := fun {before after c} hevents hrefused => ?_
      limits := fun {e} herror hlimit => ?_
      rooted := fun c hc => (hstands c hc).rooted }
  · cases h with
    | @answered id s' events _ hadmits hs' _ hcounted =>
        have hsteps := hs'.steps
        rw [Event.opened_eq_calls hadmits]
        have hzero : (Search.mk g (.start B.options)).chain.counter.steps = 0 := rfl
        omega
    | failed _ hcounted => exact (Nat.le_add_left _ _).trans hcounted
  · have hs := hstands c (Event.mem_calls hevents)
    rw [← henclosing hevents]
    exact (trace_of_admitted hs hbudget hadmits q 0).2.1
  · have hc := Event.mem_calls hevents
    cases h with
    | answered _ hadmits => exact nomatch (hadmits c hc).symm.trans hrefused
    | @failed e s' events _ _ hrefuses _ =>
        refine ⟨e, rfl, hrefuses c hc hrefused, ?_, ?_⟩
        · rw [← henclosing hevents]
          simp [Call.links, Call.path]
        · obtain ⟨rest, hrest⟩ := hpath c hc
          simp [Call.links, ← hrest]
  · cases h with
    | answered => cases herror
    | failed _ _ _ hcause =>
        cases herror
        rcases hcause with hraises | hrefused
        · exact .inr (hraises hlimit)
        · exact .inl hrefused

end Resolve

namespace Graph

open Resolve in
/-- In every graph that calls reach, a top-level request stays within the bounds of the
options, and needs no deeper levels than they allow. -/
theorem Consulted.resolve_bounded
    {B : Build}
    {g : Graph}
    (h : Consulted B g)
    (hbudget : B.options.maxSteps < Limits.counterCeiling)
    (scope : ScopeId)
    (r : Request) :
    ∃ solved : Recorded Inquiry ResolutionError Search NodeId NodeId,
      (∀ levels, B.options.maxDepth ≤ levels →
        (requests B).trace levels [] (scope, r) ⟨g, .start B.options⟩ = solved
          ∧ request B levels scope r ⟨g, .start B.options⟩ = solved.1)
        ∧ (g.resolve B scope r).1 = solved.answer
        ∧ WithinBounds B r solved.2 solved.answer := by
  have hstart := stands_start (B := B) h.faithful.rooted h.faithful.tree.numbered
  have hrequest : ∀ levels, request B levels scope r ⟨g, .start B.options⟩
      = ((requests B).trace levels [] (scope, r) ⟨g, .start B.options⟩).1 := fun levels => by
    rw [Recursion.trace_fst, solve_requests]
  have hbounded := trace_bounded hbudget B.options.maxDepth hstart
    (Nat.le_add_left _ _) (scope, r)
  refine ⟨(requests B).trace B.options.maxDepth [] (scope, r) ⟨g, .start B.options⟩,
    fun levels hlevels => ?_, ?_, withinBounds_of_bounded hbudget hbounded⟩
  · obtain ⟨extra, rfl⟩ := Nat.exists_eq_add_of_le hlevels
    have hadd := trace_add hbudget hstart (Nat.le_add_left _ _) (scope, r) extra
    exact ⟨hadd, by rw [hrequest, hadd]⟩
  · unfold Graph.resolve Recorded.answer
    rw [hrequest]
    cases ((requests B).trace B.options.maxDepth [] (scope, r)
      ⟨g, .start B.options⟩).1 <;> rfl

/-! ## Crates of crates -/

/-- A class of crates, with a declaration whose crate of anything asks for a crate of a
crate, and bounds that are soon reached. -/
def crateBuild : Build where
  registry :=
    { Registry.initial with
      registered :=
        #[ { name := ⟨"T"⟩, flags := [.typeParameter] },
          { name := ⟨"Crate"⟩, typeParameters := [⟨16⟩] },
          { name := ⟨"Foo"⟩ } ] }
  options := { maxDepth := 2, maxSteps := 5 }

/-- A crate of a type. -/
def crateOf (t : Ty) : Ty := .generic ⟨17⟩ [t]

/-- The declaration of crates. -/
def crateDeclaration : Declaration :=
  { name := ⟨"app.crate"⟩
    type := crateOf (.of ⟨16⟩)
    parameters := [{ name := "inner", type := crateOf (crateOf (.of ⟨16⟩)) }]
    typeParameters := [⟨16⟩] }

/-- The graph with a scope that declares crates. -/
def crateGraph : Graph := Graph.empty.withScope crateBuild none { name := "App" } [crateDeclaration]

/-- A request for a crate of something else. -/
def crateRequest : Request := { type := crateOf (.of ⟨18⟩), origin := ⟨"app"⟩ }

theorem crateGraph_resolve_bounded :
    Consulted crateBuild crateGraph
      ∧ crateBuild.options.maxSteps < Limits.counterCeiling
      ∧ ∃ solved : Recorded Inquiry ResolutionError Search NodeId NodeId,
        (∀ levels, crateBuild.options.maxDepth ≤ levels →
          (Resolve.requests crateBuild).trace levels [] (⟨0⟩, crateRequest)
              ⟨crateGraph, .start crateBuild.options⟩ = solved
            ∧ Resolve.request crateBuild levels ⟨0⟩ crateRequest
              ⟨crateGraph, .start crateBuild.options⟩ = solved.1)
          ∧ (crateGraph.resolve crateBuild ⟨0⟩ crateRequest).1 = solved.answer
          ∧ Resolve.WithinBounds crateBuild crateRequest solved.2 solved.answer := by
  have hconsulted : Consulted crateBuild crateGraph := by
    refine Consulted.empty.withScope ?_ _ _
    rintro p ⟨⟩
  have hbudget : crateBuild.options.maxSteps < Limits.counterCeiling := by decide
  exact ⟨hconsulted, hbudget, hconsulted.resolve_bounded hbudget ⟨0⟩ crateRequest⟩

/-- The third crate is refused. -/
example :
    (crateGraph.resolve crateBuild ⟨0⟩ crateRequest).1.toOption = none
      ∧ ((Resolve.requests crateBuild).trace 2 [] (⟨0⟩, crateRequest)
          ⟨crateGraph, .start crateBuild.options⟩).2.length = 6 := by
  decide +kernel

end Graph
end Wiring
