import Wiring.Proofs.Bounds

/-!
# Dialogues that leave the chain as it was

A search puts nodes on its chain and takes them off again, and it opens and closes
requests.  Both happen around steps that may fail, so a step that fails has to undo as much
as one that does not.

What a step does to the chain depends on what nested requests do to it.  A dialogue is
balanced over a chain if it ends with that chain, whatever the outcome, and makes each
nested request with that chain and more nodes on top, as long as every nested request gives
back the chain that it was made with.

**Results.**
* `Dialogue.BalancedOver.settle`, `Conduct.Balanced.bind`, and others: balanced dialogues
  and steps put together.
* `Resolve.answerConduct_balanced`: the answer to a request is balanced over the chain on
  which the request was opened.
-/

namespace Wiring

/-! ## Chains -/

namespace Chain

/-- Whether a chain has the nodes, the open requests and the depth of another one.  How many
steps were counted does not matter. -/
structure Restored (c c' : Chain) : Prop where
  nodes : c'.nodes = c.nodes
  requests : c'.requests = c.requests
  depth : c'.counter.depth = c.counter.depth
  maxDepth : c'.counter.maxDepth = c.counter.maxDepth

/-- Whether a chain is another one with more nodes on top, at most. -/
structure Supports (c c' : Chain) : Prop where
  nodes : c.nodes <+: c'.nodes
  requests : c'.requests = c.requests
  depth : c'.counter.depth = c.counter.depth
  maxDepth : c'.counter.maxDepth = c.counter.maxDepth

variable {c c' c'' : Chain}

theorem Restored.refl (c : Chain) : c.Restored c := ⟨rfl, rfl, rfl, rfl⟩

theorem Restored.trans
    (h : c.Restored c')
    (h' : c'.Restored c'') :
    c.Restored c'' :=
  ⟨h'.nodes.trans h.nodes, h'.requests.trans h.requests, h'.depth.trans h.depth,
    h'.maxDepth.trans h.maxDepth⟩

theorem Supports.refl (c : Chain) : c.Supports c := ⟨List.prefix_refl _, rfl, rfl, rfl⟩

theorem Supports.trans
    (h : c.Supports c')
    (h' : c'.Supports c'') :
    c.Supports c'' :=
  ⟨h.nodes.trans h'.nodes, h'.requests.trans h.requests, h'.depth.trans h.depth,
    h'.maxDepth.trans h.maxDepth⟩

theorem Restored.supports (h : c.Restored c') : c.Supports c' :=
  ⟨h.nodes ▸ List.prefix_refl _, h.requests, h.depth, h.maxDepth⟩

theorem supports_pushNode (c : Chain) (id : NodeId) : c.Supports (c.pushNode id) :=
  ⟨List.prefix_append _ _, rfl, rfl, rfl⟩

/-- A node that was put on a chain is taken off again. -/
theorem Restored.popNode
    {id : NodeId}
    (h : (c.pushNode id).Restored c') :
    c.Restored c'.popNode := by
  refine ⟨?_, h.requests, h.depth, h.maxDepth⟩
  change c'.nodes.dropLast = c.nodes
  rw [h.nodes]
  exact congrArg Chain.nodes (popNode_pushNode c id)

end Chain

/-! ## Balanced dialogues -/

namespace Dialogue

variable {α γ : Type}

/-- Whether a dialogue ends with a given chain and makes nested requests with more nodes on
top of it, if these give back their chains. -/
inductive BalancedOver (c : Chain) : Dialogue Inquiry ResolutionError Search NodeId α → Prop
  | ends {outcome : EStateM.Result ResolutionError Search α} :
      c.Restored (stateOf outcome).chain →
      BalancedOver c (.ends outcome)
  | asks {q : Inquiry} {s : Search}
      {next : EStateM.Result ResolutionError Search NodeId →
        Dialogue Inquiry ResolutionError Search NodeId α} :
      c.Supports s.chain →
      (∀ outcome, s.chain.Restored (stateOf outcome).chain → BalancedOver c (next outcome)) →
      BalancedOver c (.asks q s next)

namespace BalancedOver

variable {c c' : Chain} {d : Dialogue Inquiry ResolutionError Search NodeId α}

theorem of_restored
    (h : BalancedOver c' d)
    (hc : c.Restored c') :
    BalancedOver c d := by
  induction h with
  | ends hend => exact .ends (hc.trans hend)
  | asks hsupports _ ih => exact .asks (hc.supports.trans hsupports) ih

/-- A dialogue with more nodes on top, and what follows it with them still there. -/
theorem settle
    (h : BalancedOver c' d)
    (hc : c.Supports c')
    {f : EStateM.Result ResolutionError Search α →
      Dialogue Inquiry ResolutionError Search NodeId γ}
    (hf : ∀ outcome, c'.Restored (stateOf outcome).chain → BalancedOver c (f outcome)) :
    BalancedOver c (d.settle f) := by
  induction h with
  | ends hend => exact hf _ hend
  | asks hsupports _ ih => exact .asks (hc.trans hsupports) ih

end BalancedOver
end Dialogue

/-! ## Balanced steps -/

/-- Whether a step ends with the chain that it starts with. -/
def Resolve.KeepsChain {α : Type} (step : Resolve α) : Prop :=
  ∀ s, (Dialogue.stateOf (step s)).chain = s.chain

namespace Conduct

variable {α γ δ : Type} {M : Manner ResolutionError Search} {P Q : Standing M}

/-- Whether the dialogues of a step are balanced over the chain that it starts with. -/
def Balanced {step : (Inquiry → Resolve NodeId) → Resolve α} (C : Conduct M P step) : Prop :=
  ∀ s, (C.talk s).BalancedOver s.chain

namespace Balanced

variable {step step' : (Inquiry → Resolve NodeId) → Resolve α} {C : Conduct M P step}

theorem quiet
    {step : Resolve α}
    {h : M.Quiet P step}
    (hstep : step.KeepsChain) :
    (Conduct.quiet h : Conduct M P (fun _ : Inquiry → Resolve NodeId => step)).Balanced :=
  fun s => .ends (hstep s ▸ .refl _)

theorem pure (a : α) :
    (Conduct.pure a : Conduct M P (fun _ : Inquiry → Resolve NodeId => Pure.pure a)).Balanced :=
  fun s => .ends (.refl s.chain)

theorem call (q : Inquiry) :
    (Conduct.call q : Conduct M P (fun recur : Inquiry → Resolve NodeId => recur q)).Balanced :=
  fun s => .asks (.refl s.chain) (fun _ h => .ends h)

theorem congrAt
    (hC : C.Balanced)
    (h : ∀ recur s, step recur s = step' recur s) :
    (C.congrAt h).Balanced :=
  hC

theorem congr
    (hC : C.Balanced)
    (h : ∀ recur, step recur = step' recur) :
    (C.congr h).Balanced :=
  hC

theorem weaken
    (hC : C.Balanced)
    (h : ∀ s, Q.holds s → P.holds s) :
    (C.weaken h).Balanced :=
  hC

theorem bind
    (hC : C.Balanced)
    {second : α → (Inquiry → Resolve NodeId) → Resolve γ}
    {D : ∀ a, Conduct M P (second a)}
    (hD : ∀ a, (D a).Balanced) :
    (C.bind D).Balanced := by
  refine fun s => (hC s).settle (.refl s.chain) fun outcome h => ?_
  cases outcome with
  | ok a s' => exact (hD a s').of_restored h
  | error e s' => exact .ends h

theorem atState
    {step : Search → (Inquiry → Resolve NodeId) → Resolve α}
    {Q : Search → Standing M}
    {C : ∀ s₀, Conduct M (Q s₀) (step s₀)}
    (hC : ∀ s₀, (C s₀).Balanced)
    (h : ∀ s, P.holds s → (Q s).holds s) :
    (Conduct.atState C h).Balanced :=
  fun s => hC s s

theorem option
    {present : γ → (Inquiry → Resolve NodeId) → Resolve α}
    {absent : (Inquiry → Resolve NodeId) → Resolve α}
    {C : ∀ a, Conduct M P (present a)}
    {D : Conduct M P absent}
    (hC : ∀ a, (C a).Balanced)
    (hD : D.Balanced)
    (found : Option γ) :
    (Conduct.option C D found).Balanced := by
  cases found with
  | some a => exact hC a
  | none => exact hD

theorem list
    {nonempty : γ → List γ → (Inquiry → Resolve NodeId) → Resolve α}
    {empty : (Inquiry → Resolve NodeId) → Resolve α}
    {C : ∀ a as, Conduct M P (nonempty a as)}
    {D : Conduct M P empty}
    (hC : ∀ a as, (C a as).Balanced)
    (hD : D.Balanced)
    (found : List γ) :
    (Conduct.list C D found).Balanced := by
  cases found with
  | cons a as => exact hC a as
  | nil => exact hD

theorem mapM
    {step : γ → (Inquiry → Resolve NodeId) → Resolve α}
    {C : ∀ a, Conduct M P (step a)}
    (hC : ∀ a, (C a).Balanced)
    (as : List γ) :
    (Conduct.mapM C as).Balanced := by
  induction as with
  | nil => exact .congr (.pure []) _
  | cons a as ih =>
      exact .congr (.bind (hC a) (fun b => .bind ih (fun bs => .pure (b :: bs)))) _

end Balanced
end Conduct

namespace Resolve

/-! ## Steps without nested requests -/

section KeepsChain

variable {B : Build} {α : Type}

theorem KeepsChain.of_outcomes
    {step : Resolve α}
    (hok : ∀ s a s', step s = .ok a s' → s'.chain = s.chain)
    (herror : ∀ s e s', step s = .error e s' → s'.chain = s.chain) :
    KeepsChain step := by
  intro s
  cases h : step s with
  | ok a s' => exact hok s a s' h
  | error e s' => exact herror s e s' h

theorem OnlyMemo.keepsChain
    {step : Resolve α}
    (h : OnlyMemo B step) :
    KeepsChain step := by
  refine .of_outcomes (fun s a s' hstep => ?_) (fun s e s' hstep => ?_)
  · obtain ⟨m, -, rfl⟩ := h.ok hstep
    rfl
  · obtain ⟨m, -, rfl⟩ := h.error hstep
    rfl

theorem keepsChain_pushNode (n : Node) (key : Option Ty) : KeepsChain (pushNode n key) := by
  cases key with
  | none => exact fun _ => rfl
  | some t => exact fun _ => rfl

theorem keepsChain_revisit (repeated : NodeId) (inside : List NodeId) :
    KeepsChain (revisit repeated inside) :=
  .of_outcomes (fun _ _ _ h => congrArg Search.chain (revisit_eq_ok h).2.1)
    (fun _ _ _ h => congrArg Search.chain (revisit_eq_error h).1)

theorem keepsChain_recalled (scope : ScopeId) (t : Ty) : KeepsChain (recalled scope t) := by
  refine .of_outcomes (fun s found s' h => ?_) (fun s e s' h => ?_)
  · cases found with
    | none => exact congrArg Search.chain (recalled_eq_none h).1
    | some id => exact congrArg Search.chain (recalled_eq_some h).1
  · exact congrArg Search.chain (recalled_eq_error h).1

theorem keepsChain_extend (f : Graph → Except ResolutionError (α × Graph)) :
    KeepsChain (extend f) :=
  .of_outcomes (fun _ _ _ h => (extend_eq_ok h).2)
    (fun _ _ _ h => congrArg Search.chain (extend_eq_error h))

theorem keepsChain_relocated? (scope owner : ScopeId) (key : Option Ty) :
    KeepsChain (relocated? scope owner key) := by
  refine .of_outcomes (fun s found s' h => ?_) (fun s e s' h => ?_)
  · rcases relocated?_eq_ok h with ⟨-, rfl, -⟩ | ⟨t, id, -, -, -, -, -, rfl⟩ <;> rfl
  · exact congrArg Search.chain (relocated?_eq_error h).1

theorem keepsChain_inputNode
    (scope : ScopeId)
    (key : Ty)
    (index : Nat)
    (type : Ty)
    (declaredIn : Option ScopeId) :
    KeepsChain (inputNode scope key index type declaredIn) := by
  intro s
  rw [inputNode_eq]
  cases s.graph.answers.find? (declaredIn.getD scope) key <;> rfl

theorem keepsChain_unresolved (scope : ScopeId) (r : Request) :
    KeepsChain (unresolved scope r) := by
  intro s
  unfold unresolved
  split
  · rfl
  · split <;> rfl

end KeepsChain

/-! ## Nodes -/

section Nodes

variable {B : Build} {P : Standing B.manner}

theorem quietly_balanced
    {α : Type}
    {step : Resolve α}
    {h : B.manner.Quiet P step}
    (hstep : KeepsChain step) :
    (quietly B h).Balanced :=
  .quiet hstep

theorem eachConduct_balanced (scope : ScopeId) (requests : List Request) :
    (eachConduct (P := P) B scope requests).Balanced :=
  .mapM (fun r => .call (scope, r)) requests

/-- A node is put on the chain before a step and taken off after it. -/
theorem withNodeConduct_balanced
    {α : Type}
    {step : (ScopeId → Request → Resolve NodeId) → Resolve α}
    {C : Conducted B P step}
    (hC : C.Balanced)
    (id : NodeId) :
    (withNodeConduct B C id).Balanced := by
  intro s
  refine (hC { s with chain := s.chain.pushNode id }).settle (Chain.supports_pushNode _ id)
    fun outcome h => ?_
  -- The node is taken off whether the step fails or not.
  cases outcome with
  | ok a s' => exact .ends h.popNode
  | error e s' => exact .ends h.popNode

theorem buildNodeConduct_balanced
    (n : Node)
    (key : Option Ty)
    (scope : ScopeId)
    {dependencies : (ScopeId → Request → Resolve NodeId) → Resolve (List NodeId)}
    {C : Conducted B P dependencies}
    (hC : C.Balanced) :
    (buildNodeConduct B n key scope C).Balanced := by
  unfold buildNodeConduct
  refine .congrAt (.bind (quietly_balanced fun _ => rfl) fun id => ?_) _
  refine .bind (withNodeConduct_balanced hC id) fun ids => ?_
  exact .bind (quietly_balanced fun _ => rfl) fun _ => .pure id

theorem attachConduct_balanced (id : NodeId) (owner : ScopeId) (t : Ty) (e : Entry) :
    (attachConduct (P := P) B id owner t e).Balanced := by
  unfold attachConduct
  exact .bind (withNodeConduct_balanced (eachConduct_balanced owner _) id) fun _ => .pure _

theorem attachInterceptorsConduct_balanced (id : NodeId) (owner : ScopeId) :
    (attachInterceptorsConduct (P := P) B id owner).Balanced := by
  unfold attachInterceptorsConduct
  refine .congr (.bind (quietly_balanced fun _ => rfl) fun g => ?_) _
  refine .option (fun n => ?_) (.pure _) _
  refine .bind (quietly_balanced fun _ => rfl) fun visible => ?_
  refine .bind (.mapM (attachConduct_balanced id owner n.type) visible) fun attached => ?_
  exact quietly_balanced fun _ => rfl

theorem freshNodeConduct_balanced
    (scope owner : ScopeId)
    (key : Option Ty)
    (e : Entry)
    (declared : Declaration)
    (type : Ty)
    (assisted : Bool) :
    (freshNodeConduct (P := P) B scope owner key e declared type assisted).Balanced := by
  unfold freshNodeConduct
  refine .congr (.bind ?_ fun id => ?_) _
  · exact buildNodeConduct_balanced _ key scope (eachConduct_balanced owner _)
  · refine .bind (quietly_balanced fun _ => rfl) fun _ => ?_
    exact .bind (attachInterceptorsConduct_balanced id owner) fun _ => .pure id

theorem declarationNodeConduct_balanced
    (scope : ScopeId)
    (declaredIn : Option ScopeId)
    (key : Option Ty)
    (e : Entry)
    (declared : Declaration)
    (assisted : Bool) :
    (declarationNodeConduct (P := P) B scope declaredIn key e declared assisted).Balanced := by
  unfold declarationNodeConduct
  refine .congr (.bind (quietly_balanced fun _ => rfl) fun g => ?_) _
  refine .bind (quietly_balanced fun _ => rfl) fun again => .list (fun _ _ => ?_) ?_ again
  · exact quietly_balanced (keepsChain_revisit _ _)
  · refine .bind (quietly_balanced (keepsChain_relocated? scope _ key)) fun found => ?_
    exact .option (fun id => .pure id) (freshNodeConduct_balanced _ _ _ _ _ _ _) found

theorem entryNodesConduct_balanced (scope : ScopeId) (entries : List Entry) :
    (entryNodesConduct (P := P) B scope entries).Balanced :=
  .mapM (fun e => declarationNodeConduct_balanced scope none none e e.declaration false) entries

theorem aliasNodeConduct_balanced (scope : ScopeId) (key : Ty) (d : Declaration) (type : Ty) :
    (aliasNodeConduct (P := P) B scope key d type).Balanced := by
  unfold aliasNodeConduct
  refine .congr (.bind (quietly_balanced fun _ => rfl) fun g => ?_) _
  refine .bind (quietly_balanced fun _ => rfl) fun again => .list (fun _ _ => ?_) ?_ again
  · exact quietly_balanced (keepsChain_revisit _ _)
  · exact buildNodeConduct_balanced _ _ scope (eachConduct_balanced scope _)

theorem collectionNodeConduct_balanced
    (scope : ScopeId)
    (key : Ty)
    (kind : Collection.Kind)
    (type : Ty) :
    (collectionNodeConduct (P := P) B scope key kind type).Balanced := by
  unfold collectionNodeConduct
  refine .congr (.bind ?_ fun merged => ?_) _
  · exact quietly_balanced (collected_onlyMemo B scope kind type).keepsChain
  · exact buildNodeConduct_balanced _ _ scope (entryNodesConduct_balanced scope _)

theorem providerNodeConduct_balanced
    (scope : ScopeId)
    (r : Request)
    (type : Ty)
    (parameters : List Ty)
    (returns : Ty) :
    (providerNodeConduct B scope r type parameters returns).Balanced := by
  unfold providerNodeConduct
  refine .congr (.bind (quietly_balanced fun _ => rfl) fun g => ?_) _
  refine .bind (quietly_balanced (keepsChain_extend _)) fun inner => ?_
  exact buildNodeConduct_balanced _ _ scope (eachConduct_balanced inner _)

theorem childComponentNodeConduct_balanced
    (scope : ScopeId)
    (r : Request)
    (type : Ty)
    (parameters : List Ty)
    (component : Ty) :
    (childComponentNodeConduct B scope r type parameters component).Balanced := by
  unfold childComponentNodeConduct
  refine .congr (.option (fun c => ?_) (quietly_balanced fun _ => rfl) _) _
  refine .bind (quietly_balanced (keepsChain_extend _)) fun inner => ?_
  exact buildNodeConduct_balanced _ _ scope (eachConduct_balanced inner _)

/-- The node of a candidate is built over the chain that is there. -/
theorem nodeOfConduct_balanced (scope : ScopeId) (r : Request) (c : Candidate) :
    (nodeOfConduct B scope r c).Balanced := by
  cases c with
  | declaration m => exact declarationNodeConduct_balanced scope _ _ _ _ _
  | input index type declaredIn =>
      exact quietly_balanced (keepsChain_inputNode scope r.type index type declaredIn)
  | object type =>
      exact quietly_balanced (keepsChain_pushNode (.plain type scope .object) (some r.type))
  | self type =>
      exact quietly_balanced (keepsChain_pushNode (.plain type scope .self) (some r.type))
  | funAlias d type => exact aliasNodeConduct_balanced scope r.type d type
  | provider type parameters returns =>
      exact providerNodeConduct_balanced scope r type parameters returns
  | set type element => exact collectionNodeConduct_balanced scope r.type .set type
  | map type => exact collectionNodeConduct_balanced scope r.type .map type
  | childComponent type parameters component =>
      exact childComponentNodeConduct_balanced scope r type parameters component

end Nodes

/-! ## Tiers -/

section Tiers

variable {B : Build} {P : Standing B.manner}

theorem orTryConduct_balanced
    {α : Type}
    {first second : (ScopeId → Request → Resolve NodeId) → Resolve (Option α)}
    {C : Conducted B P first}
    {D : Conducted B P second}
    (hC : C.Balanced)
    (hD : D.Balanced) :
    (orTryConduct B C D).Balanced := by
  unfold orTryConduct
  refine .congr (.bind hC fun found => ?_) _
  exact .option (fun a => .pure (some a)) hD found

theorem tryTierConduct_balanced
    (scope : ScopeId)
    (r : Request)
    (tier : Tier)
    (candidates : List Candidate) :
    (tryTierConduct B scope r tier candidates).Balanced := by
  unfold tryTierConduct
  split
  · exact .congr (.pure none) _
  · exact .congr (.bind (nodeOfConduct_balanced scope r _) fun id => .pure (some id)) _
  · exact .congr (quietly_balanced fun _ => rfl) _

theorem ownTiersConduct_balanced (s : Scope) (r : Request) (path : List Scope) :
    (ownTiersConduct B s r path).Balanced := by
  unfold ownTiersConduct
  refine orTryConduct_balanced (tryTierConduct_balanced _ r _ _) ?_
  refine orTryConduct_balanced (tryTierConduct_balanced _ r _ _) ?_
  refine orTryConduct_balanced (tryTierConduct_balanced _ r _ _) ?_
  refine .bind (quietly_balanced ?_) fun offered => tryTierConduct_balanced _ r _ offered
  exact (frameworkCandidates_onlyMemo B s path r.type _).keepsChain

theorem inheritConduct_balanced
    (scope : ScopeId)
    (t : Ty)
    {up : (ScopeId → Request → Resolve NodeId) → Resolve (Option NodeId)}
    {C : Conducted B P up}
    (hC : C.Balanced) :
    (inheritConduct B scope t C).Balanced := by
  unfold inheritConduct
  refine .congr (.bind hC fun found => .option (fun id => ?_) (.pure none) found) _
  exact .bind (quietly_balanced fun _ => rfl) fun _ => .pure (some id)

/-- A scope and its ancestors are searched over the chain that is there. -/
theorem lookupConduct_balanced
    (r : Request)
    (scope : Option ScopeId)
    (path : List Scope) :
    (lookupConduct B r scope path).Balanced := by
  induction path generalizing scope with
  | nil =>
      cases scope with
      | none => exact .congr (.pure none) _
      | some scope => exact .congr (quietly_balanced (keepsChain_recalled scope r.type)) _
  | cons s ancestors ih =>
      cases scope with
      | none => exact .congr (.pure none) _
      | some scope =>
          unfold lookupConduct
          refine .congr (orTryConduct_balanced ?_ ?_) _
          · exact quietly_balanced (keepsChain_recalled scope r.type)
          · refine .bind (quietly_balanced fun _ => rfl) fun g => orTryConduct_balanced ?_ ?_
            · exact .weaken (ownTiersConduct_balanced s r (g.path s.id)) _
            · exact inheritConduct_balanced s.id r.type (.weaken (ih s.parent) _)

/-- The answer to a request is balanced over the chain on which it was opened. -/
theorem answerConduct_balanced (scope : ScopeId) (r : Request) :
    (answerConduct B scope r).Balanced := by
  unfold answerConduct
  refine .congrAt (.atState (fun s => ?_) _) _
  refine .bind (lookupConduct_balanced _ _ _) fun found => ?_
  exact .option (fun id => .pure id) (quietly_balanced (keepsChain_unresolved scope _)) found

end Tiers
end Resolve
end Wiring
