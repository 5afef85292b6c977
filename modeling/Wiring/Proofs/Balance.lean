import Wiring.Proofs.Balance.Conduct

/-!
# The chain is balanced

Whatever a request comes to, it gives back the chain that it was made with: the same nodes,
the same open requests and the same depth.  A request that is refused opens nothing, and one
that is opened is closed again whether it is answered or not.  Meanwhile each nested request
is made with that chain, the requests that were opened since and more nodes on top.  So the
depth is always the number of open requests, if it was at first.

Only the steps that were counted differ afterwards.

**Results.**
* `Resolve.trace_balanced`: this for a request with others open.
* `Resolve.trace_levels`: deeper levels than the chain allows are never needed.
* `Resolve.request_balanced`: this for a request with any chain, and that a top-level
  request leaves an empty chain behind.
-/

namespace Wiring

/-! ## Chains on which requests were opened -/

namespace Walk.Counter

/-- A level that is not entered leaves the depth alone. -/
theorem enter_depth_of_ne
    {c : Counter}
    (h : c.enter.1 ≠ .entered) :
    c.enter.2.depth = c.depth := by
  unfold enter at h ⊢
  dsimp only at h ⊢
  split
  · rfl
  · split
    · rfl
    · rename_i hsteps hdepth
      rw [if_neg hsteps, if_neg hdepth] at h
      exact absurd rfl h

theorem enter_maxDepth (c : Counter) : c.enter.2.maxDepth = c.maxDepth := by
  unfold enter
  dsimp only
  split
  · rfl
  · split <;> rfl

/-- A level is entered below the greatest depth only. -/
theorem enter_depth
    {c : Counter}
    (h : c.enter.1 = .entered) :
    c.depth < c.maxDepth ∧ c.enter.2.depth = c.depth + 1 := by
  unfold enter at h ⊢
  dsimp only at h ⊢
  split at h
  · cases h
  · split at h
    · cases h
    · rename_i hsteps hdepth
      rw [if_neg hsteps, if_neg hdepth]
      exact ⟨Nat.lt_of_not_le hdepth, rfl⟩

end Walk.Counter

namespace Chain

/-- Whether the depth is the number of open requests. -/
def Consistent (c : Chain) : Prop := c.counter.depth = c.requests.length

/-- Whether a chain is another one on which given requests were opened, with more nodes on
top. -/
structure Grown (root : Chain) (enclosing : List (Inquiry × Search)) (c : Chain) : Prop where
  nodes : root.nodes <+: c.nodes
  requests : c.requests = root.requests ++ enclosing.map (fun p => p.1.2)
  depth : c.counter.depth = root.counter.depth + enclosing.length
  maxDepth : c.counter.maxDepth = root.counter.maxDepth

namespace Grown

variable {root c c' : Chain} {enclosing : List (Inquiry × Search)}

theorem refl (c : Chain) : c.Grown [] c := ⟨List.prefix_refl _, by simp, rfl, rfl⟩

theorem supports
    (h : root.Grown enclosing c)
    (h' : c.Supports c') :
    root.Grown enclosing c' :=
  ⟨h.nodes.trans h'.nodes, h'.requests.trans h.requests, h'.depth.trans h.depth,
    h'.maxDepth.trans h.maxDepth⟩

/-- Opening requests keeps the depth the number of open requests. -/
theorem consistent
    (h : root.Grown enclosing c)
    (hroot : root.Consistent) :
    c.Consistent := by
  unfold Consistent at hroot ⊢
  rw [h.depth, h.requests, hroot]
  simp

/-- One more request is opened. -/
theorem openRequest
    {s : Search}
    (h : root.Grown enclosing s.chain)
    (henter : s.chain.counter.enter.1 = .entered)
    (q : Inquiry) :
    root.Grown (enclosing ++ [(q, s)])
      (s.chain.openRequest s.chain.counter.enter.2 q.2) := by
  refine ⟨h.nodes, ?_, ?_, (Walk.Counter.enter_maxDepth _).trans h.maxDepth⟩
  · simp [Chain.openRequest, h.requests]
  · change s.chain.counter.enter.2.depth = _
    rw [(Walk.Counter.enter_depth henter).2, h.depth, List.length_append]
    rfl

end Grown

/-- The request that was opened last is closed. -/
theorem Restored.closeRequest
    {c c' : Chain}
    (henter : c.counter.enter.1 = .entered)
    {r : Request}
    (h : (c.openRequest c.counter.enter.2 r).Restored c') :
    c.Restored c'.closeRequest := by
  have hdepth := h.depth
  change _ = c.counter.enter.2.depth at hdepth
  rw [(Walk.Counter.enter_depth henter).2] at hdepth
  refine ⟨h.nodes, ?_, ?_, h.maxDepth.trans (Walk.Counter.enter_maxDepth _)⟩
  · change c'.requests.dropLast = c.requests
    rw [h.requests]
    simp [Chain.openRequest]
  · change c'.counter.depth - 1 = c.counter.depth
    rw [hdepth]
    rfl

end Chain

/-! ## What is written down -/

/-- Whether a request is started on a chain that has grown from a given one, and gives back
the chain on which it was started. -/
def Event.Balanced (root : Chain) :
    Event Inquiry ResolutionError Search NodeId → Prop
  | .started call => root.Grown call.enclosing call.before.chain
  | .finished call outcome => call.before.chain.Restored (Dialogue.stateOf outcome).chain

/-- Whether a part of a search gives back the chain that it starts with, and its requests do
the same. -/
structure Recorded.Balanced {α : Type} (root c : Chain)
    (p : Recorded Inquiry ResolutionError Search NodeId α) : Prop where
  restored : c.Restored (Dialogue.stateOf p.1).chain
  events : ∀ e ∈ p.2, e.Balanced root

namespace Dialogue.BalancedOver

variable {α : Type} {root c : Chain} {enclosing : List (Inquiry × Search)}
  {d : Dialogue Inquiry ResolutionError Search NodeId α}
  {solve solve' : Inquiry → Search → Recorded Inquiry ResolutionError Search NodeId NodeId}

/-- A balanced dialogue with balanced requests. -/
theorem record
    (h : d.BalancedOver c)
    (hc : root.Grown enclosing c)
    (hsolve : ∀ q s, root.Grown enclosing s.chain → (solve q s).Balanced root s.chain) :
    (d.record solve).Balanced root c := by
  induction h with
  | ends hend => exact ⟨hend, fun e he => nomatch he⟩
  | @asks q s next hsupports _ ih =>
      have hsolved := hsolve q s (hc.supports hsupports)
      have hrest := ih (solve q s).1 hsolved.restored
      refine ⟨hrest.restored, fun e he => ?_⟩
      exact (List.mem_append.mp he).elim (hsolved.events e) (hrest.events e)

/-- What a balanced dialogue comes to does not depend on how requests are solved that it
never makes. -/
theorem record_congr
    (h : d.BalancedOver c)
    (hc : root.Grown enclosing c)
    (hsolve : ∀ q s, root.Grown enclosing s.chain → (solve q s).Balanced root s.chain)
    (heq : ∀ q s, root.Grown enclosing s.chain → solve' q s = solve q s) :
    d.record solve' = d.record solve := by
  induction h with
  | ends hend => rfl
  | @asks q s next hsupports _ ih =>
      have hs := hc.supports hsupports
      rw [Dialogue.record, Dialogue.record, heq q s hs,
        ih (solve q s).1 (hsolve q s hs).restored]

end Dialogue.BalancedOver

/-! ## Requests -/

namespace Resolve

variable {B : Build} {root : Chain} {enclosing : List (Inquiry × Search)} {s : Search}

/-- A request that is not entered is refused, and then the depth is as before. -/
theorem talk_of_not_entered
    (h : s.chain.counter.enter.1 ≠ .entered)
    (q : Inquiry) :
    ∃ outcome, (requests B).talk q s = .ends outcome
      ∧ s.chain.Restored (Dialogue.stateOf outcome).chain := by
  have hrestored : s.chain.Restored { s.chain with counter := s.chain.counter.enter.2 } :=
    ⟨rfl, rfl, Walk.Counter.enter_depth_of_ne h, Walk.Counter.enter_maxDepth _⟩
  change ∃ outcome, requestTalk B q s = .ends outcome ∧ _
  unfold requestTalk
  generalize s.chain.counter.enter = entered at h hrestored
  obtain ⟨result, counter⟩ := entered
  cases result with
  | entered => exact absurd rfl h
  | repeated => exact ⟨_, rfl, hrestored⟩
  | tooDeep => exact ⟨_, rfl, hrestored⟩
  | outOfSteps => exact ⟨_, rfl, hrestored⟩

/-- A request that is not entered is finished at once, at any depth. -/
theorem trace_of_not_entered
    (h : s.chain.counter.enter.1 ≠ .entered)
    (enclosing : List (Inquiry × Search))
    (q : Inquiry) :
    ∃ outcome, s.chain.Restored (Dialogue.stateOf outcome).chain
      ∧ ∀ levels, (requests B).trace levels enclosing q s
        = (outcome, [.started ⟨enclosing, q, s⟩, .finished ⟨enclosing, q, s⟩ outcome]) := by
  obtain ⟨outcome, htalk, hrestored⟩ := talk_of_not_entered (B := B) h q
  exact ⟨outcome, hrestored, trace_of_talk (decide_eq_false h) enclosing htalk⟩

/-- A request that is finished at once. -/
theorem balanced_of_refused
    (hs : root.Grown enclosing s.chain)
    (q : Inquiry)
    {outcome : EStateM.Result ResolutionError Search NodeId}
    (h : s.chain.Restored (Dialogue.stateOf outcome).chain) :
    Recorded.Balanced root s.chain
      (outcome, [.started ⟨enclosing, q, s⟩, .finished ⟨enclosing, q, s⟩ outcome]) := by
  refine ⟨h, fun e he => ?_⟩
  rcases List.mem_cons.mp he with rfl | he
  · exact hs
  · cases List.mem_singleton.mp he
    exact h

/-- A request that is opened gives back the chain if its answer does. -/
theorem balanced_of_opened
    (h : s.chain.counter.enter.1 = .entered)
    (hs : root.Grown enclosing s.chain)
    (q : Inquiry)
    {inside : Recorded Inquiry ResolutionError Search NodeId NodeId}
    (hinside : inside.Balanced root (s.chain.openRequest s.chain.counter.enter.2 q.2)) :
    Recorded.Balanced root s.chain
      (closed inside.1,
        .started ⟨enclosing, q, s⟩ :: inside.2
          ++ [.finished ⟨enclosing, q, s⟩ (closed inside.1)]) := by
  have hclosed : s.chain.Restored (Dialogue.stateOf (closed inside.1)).chain := by
    have hrestored := hinside.restored.closeRequest h
    cases houtcome : inside.1 with
    | ok id s' =>
        rw [houtcome] at hrestored
        exact hrestored
    | error e s' =>
        rw [houtcome] at hrestored
        exact hrestored
  refine ⟨hclosed, fun e he => ?_⟩
  rcases List.mem_append.mp he with he | he
  · rcases List.mem_cons.mp he with rfl | he
    · exact hs
    · exact hinside.events e he
  · cases List.mem_singleton.mp he
    exact hclosed

/-- Fewer levels are needed below a request that is opened. -/
theorem levels_of_opened
    {levels : Nat}
    (hs : root.Grown enclosing s.chain)
    (hlevels : s.chain.counter.maxDepth ≤ s.chain.counter.depth + (levels + 1))
    {p : Inquiry × Search}
    {s' : Search}
    (hs' : root.Grown (enclosing ++ [p]) s'.chain) :
    s'.chain.counter.maxDepth ≤ s'.chain.counter.depth + levels := by
  have hdepth := hs'.depth
  rw [List.length_append, List.length_singleton] at hdepth
  have := hs.depth
  have := hs.maxDepth
  have := hs'.maxDepth
  omega

/-- A request gives back the chain that it was made with, if it is solved down to the
deepest level that the chain allows. -/
theorem trace_balanced
    (levels : Nat)
    (hs : root.Grown enclosing s.chain)
    (hlevels : s.chain.counter.maxDepth ≤ s.chain.counter.depth + levels)
    (q : Inquiry) :
    ((requests B).trace levels enclosing q s).Balanced root s.chain := by
  induction levels generalizing enclosing s q with
  | zero =>
      -- No level is left, so the chain is as deep as it may be and the request is refused.
      have hrefused : s.chain.counter.enter.1 ≠ .entered := fun h =>
        Nat.not_lt_of_le hlevels (Walk.Counter.enter_depth h).1
      obtain ⟨outcome, hrestored, htrace⟩ := trace_of_not_entered (B := B) hrefused enclosing q
      rw [htrace]
      exact balanced_of_refused hs q hrestored
  | succ levels ih =>
      by_cases h : s.chain.counter.enter.1 = .entered
      · have hinside := (answerConduct_balanced (B := B) q.1 q.2
          { s with chain := s.chain.openRequest s.chain.counter.enter.2 q.2 }).record
          (hs.openRequest h q)
          (fun q' s' hs' => ih hs' (levels_of_opened hs hlevels hs') q')
        rw [trace_of_entered h]
        exact balanced_of_opened h hs q hinside
      · obtain ⟨outcome, hrestored, htrace⟩ := trace_of_not_entered (B := B) h enclosing q
        rw [htrace]
        exact balanced_of_refused hs q hrestored

/-- Deeper levels than the chain allows are never needed. -/
theorem trace_levels
    {levels : Nat}
    (hs : root.Grown enclosing s.chain)
    (hlevels : s.chain.counter.maxDepth ≤ s.chain.counter.depth + levels)
    (q : Inquiry)
    (extra : Nat) :
    (requests B).trace (levels + extra) enclosing q s
      = (requests B).trace levels enclosing q s := by
  induction levels generalizing enclosing s q with
  | zero =>
      have hrefused : s.chain.counter.enter.1 ≠ .entered := fun h =>
        Nat.not_lt_of_le hlevels (Walk.Counter.enter_depth h).1
      obtain ⟨outcome, -, htrace⟩ := trace_of_not_entered (B := B) hrefused enclosing q
      rw [htrace, htrace]
  | succ levels ih =>
      by_cases h : s.chain.counter.enter.1 = .entered
      · have hcongr := (answerConduct_balanced (B := B) q.1 q.2
          { s with chain := s.chain.openRequest s.chain.counter.enter.2 q.2 }).record_congr
          (hs.openRequest h q)
          (fun q' s' hs' => trace_balanced levels hs' (levels_of_opened hs hlevels hs') q')
          (fun q' s' hs' => ih hs' (levels_of_opened hs hlevels hs') q')
        rw [Nat.add_right_comm, trace_of_entered h, trace_of_entered h, hcongr]
      · obtain ⟨outcome, -, htrace⟩ := trace_of_not_entered (B := B) h enclosing q
        rw [htrace, htrace]

/-- What balance means for the requests that are written down in a search, and for its
outcome. -/
structure InBalance (c : Chain)
    (solved : Recorded Inquiry ResolutionError Search NodeId NodeId) : Prop where
  /-- With an answer or an error, the chain is in the end what it was at first. -/
  restored : c.Restored (Dialogue.stateOf solved.1).chain
  /-- A nested request is started on the chain that was there at first, with the requests
  that are open then and more nodes on top. -/
  started {before after : List (Event Inquiry ResolutionError Search NodeId)} {v : Visit} :
    solved.2 = before ++ .started v :: after →
    c.Grown (Event.openAfter before []) v.before.chain
  /-- A nested request that is finished has given back the chain on which it was started. -/
  finished {v : Visit} {outcome : EStateM.Result ResolutionError Search NodeId} :
    .finished v outcome ∈ solved.2 →
    v.before.chain.Restored (Dialogue.stateOf outcome).chain
  /-- Whenever a request is started, the depth is the number of open requests. -/
  consistent : ∀ v ∈ Event.calls solved.2, v.before.chain.Consistent

theorem inBalance_trace
    (levels : Nat)
    (hs : s.chain.Consistent)
    (hlevels : s.chain.counter.maxDepth ≤ s.chain.counter.depth + levels)
    (q : Inquiry) :
    InBalance s.chain ((requests B).trace levels [] q s) := by
  have hbalanced := trace_balanced (B := B) levels (.refl s.chain) hlevels q
  refine
    { restored := hbalanced.restored
      started := fun {before after v} h => ?_
      finished := fun {v outcome} h => hbalanced.events _ h
      consistent := fun v hv => ?_ }
  · rw [← (requests B).trace_enclosing h]
    exact hbalanced.events (.started v) (by rw [h]; simp)
  · obtain ⟨e, he, hstart⟩ := List.mem_filterMap.mp hv
    cases e with
    | started call =>
        cases hstart
        exact (hbalanced.events _ he).consistent hs
    | finished call outcome => cases hstart

end Resolve

/-! ## Top-level requests -/

namespace Graph

/-- A top-level request, and the chain that it leaves behind. -/
def resolveWithChain (B : Build) (g : Graph) (scope : ScopeId) (r : Request) :
    (Except ResolutionError NodeId × Graph) × Chain :=
  match Resolve.request B B.options.maxDepth scope r ⟨g, .start B.options⟩ with
  | .ok id s => ((.ok id, { s.graph with roots := s.graph.roots ++ [⟨scope, r, id⟩] }), s.chain)
  | .error e s => ((.error e, s.graph.rollback g.nodes.size g.scopes.size), s.chain)

theorem resolveWithChain_fst (B : Build) (g : Graph) (scope : ScopeId) (r : Request) :
    (g.resolveWithChain B scope r).1 = g.resolve B scope r := by
  unfold resolveWithChain Graph.resolve
  cases Resolve.request B B.options.maxDepth scope r ⟨g, .start B.options⟩ <;> rfl

theorem resolveWithChain_snd (B : Build) (g : Graph) (scope : ScopeId) (r : Request) :
    (g.resolveWithChain B scope r).2 = (Dialogue.stateOf
      (Resolve.request B B.options.maxDepth scope r ⟨g, .start B.options⟩)).chain := by
  unfold resolveWithChain
  cases Resolve.request B B.options.maxDepth scope r ⟨g, .start B.options⟩ <;> rfl

end Graph

namespace Resolve

/-- A request gives back the chain that it was made with, and nested requests are made on
chains whose depth is the number of open requests, if that one's is.  A top-level request
leaves an empty chain behind. -/
theorem request_balanced
    (B : Build)
    (s : Search)
    (hs : s.chain.Consistent)
    (scope : ScopeId)
    (r : Request) :
    (∃ solved : Recorded Inquiry ResolutionError Search NodeId NodeId,
      (∀ levels, s.chain.counter.maxDepth ≤ s.chain.counter.depth + levels →
        (requests B).trace levels [] (scope, r) s = solved
          ∧ request B levels scope r s = solved.1)
        ∧ InBalance s.chain solved)
      ∧ (s.graph.resolveWithChain B scope r).1 = s.graph.resolve B scope r
      ∧ (s.graph.resolveWithChain B scope r).2.nodes = []
      ∧ (s.graph.resolveWithChain B scope r).2.requests = []
      ∧ (s.graph.resolveWithChain B scope r).2.counter.depth = 0 := by
  have hrequest : ∀ levels s, request B levels scope r s
      = ((requests B).trace levels [] (scope, r) s).1 := fun levels s => by
    rw [Recursion.trace_fst, solve_requests]
  refine ⟨?_, s.graph.resolveWithChain_fst B scope r, ?_⟩
  · have henough : s.chain.counter.maxDepth
        ≤ s.chain.counter.depth + (s.chain.counter.maxDepth - s.chain.counter.depth) := by
      omega
    refine ⟨_, fun levels hlevels => ?_, inBalance_trace (B := B) _ hs henough (scope, r)⟩
    have hle : s.chain.counter.maxDepth - s.chain.counter.depth ≤ levels := by omega
    obtain ⟨extra, rfl⟩ := Nat.exists_eq_add_of_le hle
    have htrace := trace_levels (B := B) (.refl s.chain) henough (scope, r) extra
    exact ⟨htrace, by rw [hrequest, htrace]⟩
  · have hstart := trace_balanced (B := B) (s := ⟨s.graph, .start B.options⟩) B.options.maxDepth
      (.refl _) (Nat.le_add_left _ _) (scope, r)
    rw [Graph.resolveWithChain_snd, hrequest]
    exact ⟨hstart.restored.nodes, hstart.restored.requests, hstart.restored.depth⟩

/-! ## Crates on a chain -/

/-- A chain on which a crate was asked for, with room for one more request. -/
def crateChain : Chain where
  requests := [Graph.crateRequest]
  counter := { depth := 1, maxDepth := 2, maxSteps := 5 }

/-- A search that has come to a crate. -/
def crateSearch : Search := ⟨Graph.crateGraph, crateChain⟩

/-- The crate inside is refused when its owner is on the chain already. -/
theorem crateSearch_balanced :
    crateSearch.chain.Consistent
      ∧ ((requests Graph.crateBuild).trace 1 [] (⟨0⟩, Graph.crateRequest)
        crateSearch).answer.toOption = none
      ∧ (∃ solved : Recorded Inquiry ResolutionError Search NodeId NodeId,
        (∀ levels, crateChain.counter.maxDepth ≤ crateChain.counter.depth + levels →
          (requests Graph.crateBuild).trace levels [] (⟨0⟩, Graph.crateRequest) crateSearch
              = solved
            ∧ request Graph.crateBuild levels ⟨0⟩ Graph.crateRequest crateSearch = solved.1)
          ∧ InBalance crateChain solved)
      ∧ (Graph.crateGraph.resolveWithChain Graph.crateBuild ⟨0⟩ Graph.crateRequest).1
        = Graph.crateGraph.resolve Graph.crateBuild ⟨0⟩ Graph.crateRequest
      ∧ (Graph.crateGraph.resolveWithChain Graph.crateBuild ⟨0⟩ Graph.crateRequest).2.nodes = []
      ∧ (Graph.crateGraph.resolveWithChain Graph.crateBuild ⟨0⟩ Graph.crateRequest).2.requests
        = []
      ∧ (Graph.crateGraph.resolveWithChain Graph.crateBuild ⟨0⟩
        Graph.crateRequest).2.counter.depth = 0 := by
  have hconsistent : crateSearch.chain.Consistent := rfl
  exact ⟨hconsistent, by decide +kernel,
    request_balanced Graph.crateBuild crateSearch hconsistent ⟨0⟩ Graph.crateRequest⟩

end Resolve
end Wiring
