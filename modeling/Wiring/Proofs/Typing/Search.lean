import Wiring.Proofs.Offer
import Wiring.Proofs.Typing.Invariant

/-!
# Searches answer what is asked

A candidate is offered because its type fits, and becomes a node of that type.  What is
found again, in the graph or on the stack, was remembered for the same type or was
instantiated for it.

**Results.**
* `Derives.typed`: every finished part of a search comes to answers to what was
  requested.
-/

namespace Wiring

namespace Judgement

/-- What the new node of a part of a search has to be like. -/
def Suited (B : Build) (g : Graph) (met : NodeId → Prop) : Judgement → Prop
  | node n key .. => ∀ t, key = some t → met g.nextId ∨ n.Answers B t true
  | _ => True

/-- The types of what a part of a search came to. -/
def Typed (B : Build) (g : Graph) (met : NodeId → Prop) : Judgement → Prop
  | request _ r id => met id ∨ g.Answers B id (B.registry.normalize r.type) r.required
  | search _ r id => met id ∨ g.Answers B id r.type true
  | candidate _ r _ id => met id ∨ g.Answers B id r.type true
  | declaration _ _ key _ _ _ id => ∀ t, key = some t → met id ∨ g.Answers B id t true
  | node .. => True
  | demands _ ts ids =>
      ∀ r d, (Demand.request r, d) ∈ ts.zip ids →
        met d ∨ g.Answers B d (B.registry.normalize r.type) r.required
  | interceptors .. => True

end Judgement

/-! ## Types of candidates -/

/-- A declaration that is supplied for a type has that type or one that is assignable to
it. -/
theorem Supplied.matches
    {B : Build}
    {declaredIn : Option ScopeId}
    {t : Ty}
    {e : Entry}
    {declared : Declaration}
    {assisted : Bool}
    (h : Supplied B declaredIn (some t) e declared assisted) :
    Ty.Matches B (if assisted then t else e.declaration.type) t := by
  cases h with
  | offered hoffered =>
      obtain ⟨e, -, -, hinst⟩ := hoffered.declaration
      split
      · exact .inr (.inr rfl)
      · rename_i hassisted
        have heq := hinst.instance_eq
        rw [if_neg hassisted] at heq
        exact .inr (.inl heq.2)

/-- The alias of a type that is offered is invoked as that type, not nullable. -/
theorem Offered.alias_type
    {B : Build}
    {s : Scope}
    {t type : Ty}
    {d : Declaration}
    (h : Offered B s t (.funAlias d type)) :
    type = t.nonNull := by
  cases h with
  | own hmem =>
      cases ownCandidate_of_mem hmem with
      | funAlias => rfl

/-- The new node of a candidate answers what the candidate is offered for. -/
theorem Blueprint.answers
    {B : Build}
    {s : Scope}
    {evaluated : ScopeId}
    {r : Request}
    {c : Candidate}
    {n : Node}
    {demands : List Demand}
    {g g' : Graph}
    (h : Blueprint B s.id r g c n evaluated demands g')
    (hoffered : Offered B s r.type c) :
    n.Answers B r.type true := by
  cases h with
  | input =>
      cases hoffered with
      | own hmem =>
          cases ownCandidate_of_mem hmem with
          | inheritedInput _ hfits => exact .typed (.inr (.inl hfits))
          | input _ hfits => exact .typed (.inr (.inl hfits))
  | object =>
      cases hoffered with
      | own hmem =>
          cases ownCandidate_of_mem hmem with
          | object => exact .typed (.inl rfl)
  | self =>
      cases hoffered with
      | own hmem => cases ownCandidate_of_mem hmem
      | self => exact .typed (.inl rfl)
  | funAlias => exact .typed (.inl hoffered.alias_type)
  | set =>
      cases hoffered with
      | own hmem =>
          cases ownCandidate_of_mem hmem with
          | set => exact .typed (.inl rfl)
  | map =>
      cases hoffered with
      | own hmem => cases ownCandidate_of_mem hmem
      | map => exact .typed (.inl rfl)
  | provider =>
      cases hoffered with
      | own hmem =>
          cases ownCandidate_of_mem hmem with
          | provider => exact .typed (.inl rfl)
  | childComponent =>
      cases hoffered with
      | own hmem => cases ownCandidate_of_mem hmem
      | childComponent => exact .typed (.inl rfl)

theorem Blueprint.typed
    {B : Build}
    {scope evaluated : ScopeId}
    {r : Request}
    {c : Candidate}
    {n : Node}
    {demands : List Demand}
    {g g' : Graph}
    (h : Blueprint B scope r g c n evaluated demands g')
    {met : NodeId → Prop}
    (hg : g.TypedExcept B met) :
    g'.TypedExcept B met :=
  h.surroundings (P := fun g => g.TypedExcept B met) (fun hg _ => hg.withMemo _)
    (fun hp => hg.pushScope hp) hg

/-- A node on the stack has the type that it was instantiated with. -/
theorem Graph.IsInstance.answers
    {B : Build}
    {g : Graph}
    {id : NodeId}
    {name : QName}
    {type t : Ty}
    (h : g.IsInstance id name type)
    (hmatches : type.Matches B t) :
    g.Answers B id t true := by
  obtain ⟨n, hn, -, rfl⟩ := h
  exact ⟨n, hn, .typed hmatches⟩

/-- What was built answers what the new node does. -/
theorem Derives.answers_of_node
    {B : Build}
    {stack : List NodeId}
    {n : Node}
    {key : Option Ty}
    {scope evaluated : ScopeId}
    {demands : List Demand}
    {id : NodeId}
    {g g' : Graph}
    (h : Derives B stack g (.node n key scope evaluated demands id) g')
    {t : Ty}
    {required : Bool}
    (hanswers : n.Answers B t required) :
    g'.Answers B id t required := by
  obtain ⟨ids, hn⟩ := h.node_built
  exact ⟨{ n with id := id, resolved := ids }, hn, hanswers.congr rfl rfl⟩

/-- The node of a declaration answers what the declaration is asked for. -/
theorem Supplied.answers
    {B : Build}
    {declaredIn : Option ScopeId}
    {t : Ty}
    {e : Entry}
    {declared : Declaration}
    {assisted : Bool}
    (h : Supplied B declaredIn (some t) e declared assisted)
    (owner : ScopeId) :
    Node.Answers B
      (.ofDeclaration e declared (if assisted then t else e.declaration.type) assisted owner)
      t true :=
  .typed h.matches

/-- The node of a declaration also does so once it is built and its type is narrowed. -/
theorem Supplied.answers_narrowed
    {B : Build}
    {stack : List NodeId}
    {scope owner : ScopeId}
    {declaredIn : Option ScopeId}
    {t : Ty}
    {e : Entry}
    {declared : Declaration}
    {assisted : Bool}
    {demands : List Demand}
    {id : NodeId}
    {n : Node}
    {g g₁ : Graph}
    (h : Supplied B declaredIn (some t) e declared assisted)
    (hnode : Derives B stack g
      (.node
        (.ofDeclaration e declared (if assisted then t else e.declaration.type) assisted
          owner)
        (some t) scope owner demands id) g₁)
    (hn : (g₁.narrowAt B id declared assisted).node? id = some n) :
    n.Answers B t true := by
  cases assisted with
  | true =>
      -- assisted declarations are not narrowed
      obtain ⟨ids, hbuilt⟩ := hnode.node_built
      have heq : n = _ := Option.some.inj (hn.symm.trans hbuilt)
      rw [heq]
      exact (h.answers owner).congr rfl rfl
  | false =>
      obtain ⟨ids, type, hnarrowed⟩ := hnode.narrowed_node? declared false
      rw [hn] at hnarrowed
      cases hnarrowed
      exact (h.answers owner).narrowed rfl rfl rfl

/-! ## Searches -/

/-- Every finished part of a search comes to answers to what was requested. -/
theorem Derives.typed
    {B : Build}
    {stack : List NodeId}
    {J : Judgement}
    {g g' : Graph}
    (h : Derives B stack g J g')
    {met : NodeId → Prop}
    (hg : g.TypedExcept B met)
    (hJ : J.Suited B g met) :
    g'.TypedExcept B met ∧ J.Typed B g' met := by
  induction h with
  | found _ ih =>
      obtain ⟨htyped, hid⟩ := ih hg trivial
      exact ⟨htyped, hid.imp_right Graph.Answers.optional⟩
  | @null stack scope r id g g₁ g' habsent hnullable hd ih =>
      obtain ⟨m, -, rfl⟩ := habsent.withMemo
      have hnode : Node.Answers B (.plain (B.registry.normalize r.type) scope .null)
          (B.registry.normalize r.type) true := .null rfl hnullable
      obtain ⟨htyped, -⟩ := ih (hg.withMemo m) (by
        rintro t ⟨⟩
        exact .inr hnode)
      exact ⟨htyped, .inr (hd.answers_of_node hnode.optional)⟩
  | @missing stack scope r id g g₁ g' habsent _ hrequired hd ih =>
      obtain ⟨m, -, rfl⟩ := habsent.withMemo
      obtain ⟨htyped, -⟩ := ih (hg.withMemo m) (fun _ hkey => nomatch hkey)
      exact ⟨htyped, .inr (hd.answers_of_node (.missing rfl hrequired))⟩
  | recalled hfound _ => exact ⟨hg, hg.find? hfound⟩
  | chosen _ _ _ hoffers _ _ ih =>
      obtain ⟨m, -, rfl⟩ := hoffers.withMemo
      exact ih (hg.withMemo m) trivial
  | @inherited stack scope parent s r id g g₁ g' _ _ hoffers _ _ ih =>
      obtain ⟨m, -, rfl⟩ := hoffers.withMemo
      obtain ⟨htyped, hid⟩ := ih (hg.withMemo m) trivial
      exact ⟨htyped.remember hid scope, hid⟩
  | @declaration stack s r m id g g' _ _ ih =>
      obtain ⟨htyped, hid⟩ := ih hg trivial
      exact ⟨htyped, hid r.type rfl⟩
  | @keptInput stack s r index type declaredIn id g _ hfound =>
      have hid := hg.find? hfound
      exact ⟨hg.remember hid s.id, hid⟩
  | aliasAgain hoffered _ hagain _ =>
      exact ⟨hg, .inr (hagain.answers (.inl hoffered.alias_type))⟩
  | @built stack s evaluated r c n demands id g g₁ g' hoffered hblueprint hd ih =>
      have hanswers := hblueprint.answers hoffered
      obtain ⟨htyped, -⟩ := ih (hblueprint.typed hg) (by
        rintro t ⟨⟩
        exact .inr hanswers)
      exact ⟨htyped, .inr (hd.answers_of_node hanswers)⟩
  | again hsupplied _ hagain _ =>
      refine ⟨hg, ?_⟩
      rintro t rfl
      exact .inr (hagain.answers hsupplied.matches)
  | @relocated stack scope declaredIn t e declared assisted id g _ _ hfound _ =>
      have hid := hg.find? hfound
      refine ⟨hg.remember hid scope, ?_⟩
      rintro t' ⟨⟩
      exact hid
  | @fresh stack scope owner declaredIn key e declared assisted n entries attached m id g
      g₁ g' hsupplied _ _ hnode hn _ hd ihnode ih =>
      obtain ⟨htyped₁, -⟩ := ihnode hg (by
        rintro t rfl
        exact .inr (hsupplied.answers owner))
      obtain ⟨ids, hbuilt⟩ := hnode.node_built
      -- the type that is narrowed is the one that the declaration was instantiated with
      have hnarrow : met id ∨ assisted = true ∨ ∃ n d receivers, g₁.node? id = some n
          ∧ n.kind = .callable d receivers [] ∧ n.type = d.type := by
        cases assisted with
        | true => exact .inr (.inl rfl)
        | false => exact .inr (.inr ⟨_, _, _, hbuilt, rfl, rfl⟩)
      obtain ⟨htyped, -⟩ := ih ((htyped₁.narrowAt hnarrow declared).withMemo m) trivial
      refine ⟨htyped.change _ (.inr fun n t required _ hanswers => hanswers.congr rfl rfl)
        (fun n r d hn hkind hr => ?_), ?_⟩
      · have hasked : met d ∨ g'.Answers B d (B.registry.normalize r.type) r.required :=
          htyped.asked hn hkind hr
        exact hasked
      · rintro t rfl
        have hlast := hsupplied.answers_narrowed hnode hn
        have hself := Graph.change_node? (hd.grows.node? hn)
          (fun n => { n with interceptors := attached })
        exact .inr ⟨{ n with interceptors := attached }, hself, hlast.congr rfl rfl⟩
  | @node stack n key scope evaluated demands ids g g' hplans hd ih =>
      obtain ⟨htyped, hids⟩ := ih (hg.begin hplans.resolved hJ scope) trivial
      refine ⟨htyped.change _ (.inr fun n t required _ hanswers => hanswers.congr rfl rfl)
        (fun n' r d hn' hkind hr => ?_), trivial⟩
      have hself := hd.grows.node? (g.begin_node?_self n key scope)
      rw [hself] at hn'
      cases hn'
      obtain ⟨rs, rfl⟩ := hplans.requests hkind
      change (r, d) ∈ n.dependencies.zip ids at hr
      rw [hplans.dependencies, map_asRequest_request] at hr
      refine hids r d ?_
      rw [List.zip_map_left]
      exact List.mem_map.mpr ⟨(r, d), hr, rfl⟩
  | noDemands => exact ⟨hg, fun _ _ hmem => nomatch hmem⟩
  | @requestDemand stack scope r id demands ids g g₁ g' hd hds ih ihs =>
      obtain ⟨htyped₁, hid⟩ := ih hg trivial
      obtain ⟨htyped, hids⟩ := ihs htyped₁ trivial
      refine ⟨htyped, fun r' d hmem => ?_⟩
      rcases List.mem_cons.mp hmem with heq | hmem
      · cases heq
        exact hid.imp_right (fun hh => hh.grows hds.grows)
      · exact hids r' d hmem
  | @entryDemand stack scope e id demands ids g g₁ g' hd hds ih ihs =>
      obtain ⟨htyped₁, -⟩ := ih hg trivial
      obtain ⟨htyped, hids⟩ := ihs htyped₁ trivial
      refine ⟨htyped, fun r' d hmem => ?_⟩
      rcases List.mem_cons.mp hmem with heq | hmem
      · cases heq
      · exact hids r' d hmem
  | noInterceptors => exact ⟨hg, trivial⟩
  | interceptor _ _ ih ihs =>
      obtain ⟨htyped₁, -⟩ := ih hg trivial
      exact ihs htyped₁ trivial

end Wiring
