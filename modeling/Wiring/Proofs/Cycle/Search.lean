import Wiring.Proofs.Cycle.Exploration
import Wiring.Proofs.Offer
import Wiring.Proofs.Refinement

/-!
# Searches explore

Every derivation explores in the sense of `Explored`.  An answer that is on the stack
was checked when it was used, in all rules but the one that takes over what an ancestor
has for an inherited input.

**Results.**
* `Derives.explored`: this for every part of a search.
-/

namespace Wiring

/-! ## Narrowing an open node -/

theorem breaksCycles_change
    {g : Graph}
    {id : NodeId}
    {f : Node → Node}
    (hf : ∀ n, g.node? id = some n → n.breaksCycles = true → (f n).breaksCycles = true)
    {p : NodeId}
    (hp : g.breaksCycles p = true) :
    (g.change id f).breaksCycles p = true := by
  by_cases heq : p = id
  · subst heq
    cases hn : g.node? p with
    | none => simp [Graph.breaksCycles, hn] at hp
    | some n =>
        rw [Graph.breaksCycles_eq hn] at hp
        rw [Graph.breaksCycles_eq (Graph.change_node? hn f)]
        exact hf n hn hp
  · rw [Graph.breaksCycles_congr (Graph.change_node?_of_ne (Ne.symm heq) f)]
    exact hp

/-- Changing an open node explores nothing. -/
theorem Explored.of_change
    {B : Build}
    {Loose : NodeId → Prop}
    {stack : List NodeId}
    {g : Graph}
    {id : NodeId}
    {f : Node → Node}
    (hid : id ∈ stack)
    (hstack : ∀ i ∈ stack, i.index < g.nodes.size)
    (hf : ∀ n, g.node? id = some n → n.breaksCycles = true → (f n).breaksCycles = true) :
    Explored B Loose stack g (g.change id f) [] := by
  have hsize : (g.change id f).nodes.size = g.nodes.size := g.change_size id f
  have hlt := hstack id hid
  have hedge : ∀ {n d : NodeId}, g.nodes.size ≤ n.index → ¬ (g.change id f).Edge n d :=
    fun {n d} hn he => by
      have := he.lt
      omega
  refine
    { scopes := fun hs => hs
      size := Nat.le_of_eq hsize.symm
      frame := fun {p} hp hst => ?_
      breaks := fun hb => breaksCycles_change hf hb
      closed := fun hn he => absurd he (hedge hn)
      found_lt := fun hr => nomatch hr
      cover := fun hd hd' => by omega
      interval := fun {m d n} hm hb hd hn => ?_
      inner := fun {w m} hm he hb => absurd he (hedge (Nat.le_trans hm hb.le))
      outer := fun hw he _ => absurd he (hedge hw)
      again := fun hr => nomatch hr }
  · refine Graph.change_node?_of_ne ?_ f
    rintro rfl
    exact hst hid
  · rcases Relation.ReflTransGen.cases_head hb with rfl | ⟨c, hc, -⟩
    · rw [NodeId.eq_of_index (Nat.le_antisymm hd hn)]
      exact .refl
    · exact absurd hc.2 (hedge hm)

/-- Narrowing keeps nodes that put cycles off. -/
theorem Explored.of_narrowAt
    {B : Build}
    {Loose : NodeId → Prop}
    {stack : List NodeId}
    {g : Graph}
    {id : NodeId}
    {declared : Declaration}
    {assisted : Bool}
    (hid : id ∈ stack)
    (hstack : ∀ i ∈ stack, i.index < g.nodes.size)
    (hstar : ∀ n, g.node? id = some n → assisted = false →
      declared.type.star = true → n.type.star = true) :
    Explored B Loose stack g (g.narrowAt B id declared assisted) [] := by
  rcases g.narrowAt_cases B id declared assisted with heq | ⟨hassisted, types, heq⟩
  · rw [heq]
    exact .refl
  · rw [heq]
    refine Explored.of_change hid hstack ?_
    intro n hn hb
    unfold Node.breaksCycles at hb ⊢
    rcases Bool.or_eq_true_iff.mp hb with hprovider | htype
    · exact Bool.or_eq_true_iff.mpr (.inl hprovider)
    · exact Bool.or_eq_true_iff.mpr (.inr
        (Registry.isFunctionType_refine (hstar n hn hassisted) _ htype))

/-! ## Derivations -/

/-- Answers to demands that an inherited input fits. -/
def DemandsLoose (B : Build) (g : Graph) (scope : ScopeId) (demands : List Demand)
    (ids : List NodeId) (d : NodeId) : Prop :=
  ∃ r, (Demand.request r, d) ∈ demands.zip ids
    ∧ g.InputFits B scope (B.registry.normalize r.type)

namespace Judgement

/-- The results of a part of a search that need not have been checked. -/
def Loose (B : Build) (g g' : Graph) : Judgement → NodeId → Prop
  | request scope r _, _ => g'.InputFits B scope (B.registry.normalize r.type)
  | search scope r _, _ => g'.InputFits B scope r.type
  | candidate s r c _, d =>
      ∃ index type declaredIn, c = .input index type declaredIn
        ∧ g.answers.find? (declaredIn.getD s.id) r.type = some d
  | declaration .., _ => False
  | node .., _ => False
  | demands scope ts ids, d => DemandsLoose B g' scope ts ids d
  | interceptors _ owner _ _ attached, d =>
      ∃ i ∈ attached, ∃ r, (r, d) ∈ i.dependencies.zip i.resolved
        ∧ g'.InputFits B owner (B.registry.normalize r.type)

/-- What a part of a search explores.  A new node stays open at its end, because its
interceptors are still to come. -/
def Explores (B : Build) (stack : List NodeId) (g : Graph) (J : Judgement) (g' : Graph) :
    Prop :=
  match J with
  | node n key scope evaluated ts id =>
      id = g.nextId ∧ n.Plans evaluated ts ∧ ∃ ids,
        Explored B (DemandsLoose B g' evaluated ts ids) (stack ++ [id])
          (g.begin n key scope) g' ids
        ∧ g'.node? id = some { n with id := id, resolved := ids }
  | J => Explored B (J.Loose B g g') stack g g' J.results

end Judgement

theorem mem_zip_requests
    {rs : List Request}
    {ids : List NodeId}
    {r : Request}
    {d : NodeId}
    (h : (Demand.request r, d) ∈ (rs.map Demand.request).zip ids) :
    (r, d) ∈ rs.zip ids := by
  rw [List.zip_map_left] at h
  obtain ⟨⟨r', d'⟩, hmem, heq⟩ := List.mem_map.mp h
  cases heq
  exact hmem

theorem mem_zip_asRequest
    {demands : List Demand}
    {ids : List NodeId}
    {r : Request}
    {d : NodeId}
    (h : (Demand.request r, d) ∈ demands.zip ids) :
    (r, d) ∈ (demands.map Demand.asRequest).zip ids := by
  rw [List.zip_map_left]
  exact List.mem_map.mpr ⟨(Demand.request r, d), h, rfl⟩

/-- A node without interceptors is closed once its dependencies are resolved. -/
theorem Judgement.Explores.close
    {B : Build}
    {stack : List NodeId}
    {n : Node}
    {key : Option Ty}
    {scope evaluated : ScopeId}
    {demands : List Demand}
    {id : NodeId}
    {g g' : Graph}
    (h : Judgement.Explores B stack g (.node n key scope evaluated demands id) g')
    (hstack : ∀ i ∈ stack, i.index < g.nodes.size) :
    Explored B (fun _ => False) stack g g' [id] := by
  obtain ⟨rfl, hplans, ids, hexplored, hnode⟩ := h
  refine hexplored.close hstack hnode ?_ ?_
  · intro d
    simp [Node.edges, hplans.interceptors]
  · rintro d - ⟨r, hr, hfits⟩
    refine ⟨evaluated, r, ⟨_, hnode, .inl ⟨hplans.evaluated.symm, ?_⟩⟩, hfits⟩
    dsimp only
    rw [hplans.dependencies]
    exact mem_zip_asRequest hr

/-- The node of a declaration is closed once its type is narrowed and its interceptors
are attached. -/
theorem Judgement.Explores.attach
    {B : Build}
    {stack : List NodeId}
    {e : Entry}
    {declared : Declaration}
    {type t : Ty}
    {assisted : Bool}
    {key : Option Ty}
    {scope owner : ScopeId}
    {id : NodeId}
    {n : Node}
    {m : Memo}
    {entries : List Entry}
    {attached : List Interceptor}
    {g g₁ g' : Graph}
    (h : Judgement.Explores B stack g
      (.node (.ofDeclaration e declared type assisted owner) key scope owner
        (e.declaration.requests.map .request) id) g₁)
    (hstar : assisted = false → declared.type.star = true → type.star = true)
    (hn : (g₁.narrowAt B id declared assisted).node? id = some n)
    (hgrows : ((g₁.narrowAt B id declared assisted).withMemo m).Grows g')
    (hinterceptors : Judgement.Explores B (stack ++ [id])
      ((g₁.narrowAt B id declared assisted).withMemo m)
      (.interceptors id owner t entries attached) g')
    (hstack : ∀ i ∈ stack, i.index < g.nodes.size) :
    Explored B (fun _ => False) stack g
      (g'.change id (fun n => { n with interceptors := attached })) [id] := by
  obtain ⟨rfl, -, ids, hexplored, hbuilt⟩ := h
  have hopen := stack_push hstack (.ofDeclaration e declared type assisted owner) key scope
  have hopen₁ : ∀ i ∈ stack ++ [g.nextId], i.index < g₁.nodes.size := fun i hi =>
    Nat.lt_of_lt_of_le (hopen i hi) hexplored.size
  have hopen₂ : ∀ i ∈ stack ++ [g.nextId],
      i.index < (g₁.narrowAt B g.nextId declared assisted).nodes.size := fun i hi => by
    rw [Graph.narrowAt_size]
    exact hopen₁ i hi
  have hself : g.nextId ∈ stack ++ [g.nextId] := List.mem_concat_self
  -- the node is open while its dependencies and interceptors are resolved
  have hnarrow : Explored B (fun _ => False) (stack ++ [g.nextId]) g₁
      (g₁.narrowAt B g.nextId declared assisted) [] := by
    refine .of_narrowAt hself hopen₁ ?_
    intro n' hn' hassisted hdeclared
    rw [hbuilt] at hn'
    cases hn'
    exact hstar hassisted hdeclared
  have hattach : Explored B (fun _ => False) (stack ++ [g.nextId]) g'
      (g'.change g.nextId (fun n => { n with interceptors := attached })) [] :=
    .of_change hself (stack_grows hopen₂ (((Graph.Grows.refl _).withMemo m).trans hgrows))
      (fun _ _ hb => hb)
  have hall := ((hexplored.seq hnarrow hopen).seq (hinterceptors.after_memo hopen₂)
    hopen).seq hattach hopen
  obtain ⟨t, ht⟩ := g₁.narrowAt_node?_self B g.nextId declared assisted hbuilt
  rw [hn] at ht
  cases ht
  have hlast := Graph.change_node? (hgrows.node? hn)
    (fun n => { n with interceptors := attached })
  refine hall.close hstack hlast ?_ ?_
  · intro d
    simp [Node.edges, Judgement.results]
  · rintro d - (⟨-, ⟨-, ⟨-, r, hr, hfits⟩ | ⟨-, hfalse⟩⟩ | ⟨-, i, hi, r, hr, hfits⟩⟩
      | ⟨-, hfalse⟩)
    · exact ⟨owner, r, ⟨_, hlast, .inl ⟨rfl, mem_zip_requests hr⟩⟩,
        (hfits.mono hnarrow.scopes).mono hgrows.scopes⟩
    · exact hfalse.elim
    · exact ⟨owner, r, ⟨_, hlast, .inr ⟨rfl, i, hi, hr⟩⟩, hfits⟩
    · exact hfalse.elim

/-- An answer that leaves the nodes alone and may be used explores nothing. -/
theorem explored_of_admits
    {B : Build}
    {Loose : NodeId → Prop}
    {stack : List NodeId}
    {id : NodeId}
    {g g' : Graph}
    (hnodes : g'.nodes = g.nodes)
    (hscopes : g'.scopes = g.scopes)
    (hid : id.index < g.nodes.size)
    (hadmits : g.Admits stack id) :
    Explored B Loose stack g g' [id] := by
  refine .of_nodes_eq hnodes (fun hs => by rw [hscopes]; exact hs) ?_ ?_
  · intro r hr
    rw [List.mem_singleton.mp hr]
    exact hid
  · intro r hr hmem
    rw [List.mem_singleton.mp hr] at hmem ⊢
    exact .inr (hadmits hmem)

theorem Blueprint.nodes_eq
    {B : Build}
    {scope evaluated : ScopeId}
    {r : Request}
    {c : Candidate}
    {n : Node}
    {demands : List Demand}
    {g g' : Graph}
    (h : Blueprint B scope r g c n evaluated demands g') :
    g'.nodes = g.nodes :=
  h.surroundings (P := fun g' => g'.nodes = g.nodes) (fun hg _ => hg)
    (fun hp => (Graph.pushScope_answers hp).2) rfl

theorem Graph.InputFits.inherit
    {B : Build}
    {g : Graph}
    {scope parent : ScopeId}
    {t : Ty}
    (hparent : g.IsParent scope parent)
    (h : g.InputFits B parent t) :
    g.InputFits B scope t := by
  obtain ⟨above, s, i, habove, hs, hi, hfits⟩ := h
  exact ⟨above, s, i, .head hparent habove, hs, hi, hfits⟩

/-- Every part of a search explores. -/
theorem Derives.explored
    {B : Build}
    {stack : List NodeId}
    {J : Judgement}
    {g g' : Graph}
    (h : Derives B stack g J g')
    (hstack : ∀ i ∈ stack, i.index < g.nodes.size)
    (hg : g.Bounded) :
    J.Explores B stack g g' := by
  induction h with
  | found _ ih => exact ih hstack hg
  | null habsent _ _ ih =>
      obtain ⟨m, -, rfl⟩ := habsent.withMemo
      have hclosed := (ih hstack hg).close hstack
      exact (hclosed.after_memo hstack).imp (fun _ _ hfalse => hfalse.elim)
  | missing habsent _ _ _ ih =>
      obtain ⟨m, -, rfl⟩ := habsent.withMemo
      have hclosed := (ih hstack hg).close hstack
      exact (hclosed.after_memo hstack).imp (fun _ _ hfalse => hfalse.elim)
  | recalled hfound hadmits =>
      exact explored_of_admits rfl rfl (hg.find? hfound) hadmits
  | @chosen stack scope s r candidates c id g g₁ g' hnone hscope hsid hoffers hc hd ih =>
      obtain ⟨m, -, rfl⟩ := hoffers.withMemo
      have hoffered := hoffers.offered (mem_of_mostSpecific_eq_chosen hc)
      have hscope₁ : (g.withMemo m).scope? scope = some s := hscope
      have hs := hd.grows.scope? hscope₁
      refine ((ih hstack hg).after_memo hstack).imp ?_
      -- an unchecked answer is taken over for an inherited input
      rintro d - ⟨index, type, declaredIn, rfl, hfound⟩
      cases declaredIn with
      | none =>
          change g.answers.find? s.id r.type = some d at hfound
          rw [hsid, hnone] at hfound
          cases hfound
      | some above =>
          obtain ⟨hin, hfits⟩ := hoffered.inheritedInput
          exact ⟨scope, s, _, .refl, hs, hin, hfits⟩
  | @inherited stack scope parent s r id g g₁ g' _ hscope hoffers hparent hd ih =>
      obtain ⟨m, -, rfl⟩ := hoffers.withMemo
      have hscope₁ : (g.withMemo m).scope? scope = some s := hscope
      have hs := hd.grows.scope? hscope₁
      have hexplored :=
        ((ih hstack hg).after_memo hstack).before_remember scope r.type id hstack
      exact hexplored.imp (fun _ _ hfits => hfits.inherit ⟨s, hs, hparent⟩)
  | declaration _ _ ih =>
      exact (ih hstack hg).imp (fun _ _ hfalse => hfalse.elim)
  | keptInput _ hfound =>
      refine .of_nodes_eq rfl (fun hs => hs) ?_ ?_
      · intro d hd
        rw [List.mem_singleton.mp hd]
        exact hg.find? hfound
      · intro d hd _
        rw [List.mem_singleton.mp hd]
        exact .inl ⟨_, _, _, rfl, hfound⟩
  | aliasAgain _ hmem _ hadmits => exact explored_of_admits rfl rfl (hstack _ hmem) hadmits
  | built _ hblueprint _ ih =>
      have hstack' := stack_grows hstack hblueprint.grows
      have hclosed := (ih hstack' (hblueprint.bounded hg)).close hstack'
      exact (hclosed.after_same hblueprint.nodes_eq hblueprint.grows.scopes hstack).imp
        (fun _ _ hfalse => hfalse.elim)
  | again _ hmem _ hadmits => exact explored_of_admits rfl rfl (hstack _ hmem) hadmits
  | relocated _ _ hfound hadmits => exact explored_of_admits rfl rfl (hg.find? hfound) hadmits
  | @fresh stack scope owner declaredIn key e declared assisted n entries attached m id g
      g₁ g' hsupplied _ _ hnode hn _ hd ihnode ih =>
      obtain ⟨hopen, hbounded⟩ := hnode.reopened hstack hg declared assisted
      refine (ihnode hstack hg).attach ?_ hn hd.grows (ih hopen hbounded) hstack
      rintro rfl hstar
      exact hsupplied.star hstar
  | @node stack n key scope evaluated demands ids g g' hplans hd ih =>
      have hpush := stack_push hstack n key scope
      have hexplored := ih hpush (hg.begin n key scope)
      have hstack' := stack_grows hpush hd.grows
      have hchange : Explored B (fun _ => False) (stack ++ [g.nextId]) g'
          (g'.change g.nextId (fun n => { n with resolved := ids })) [] :=
        .of_change (by simp) hstack' (fun _ _ hb => hb)
      have hseq := hexplored.seq hchange hpush
      rw [List.append_nil] at hseq
      refine ⟨rfl, hplans, ids, hseq.imp ?_, ?_⟩
      · rintro d - (⟨-, hloose⟩ | ⟨-, hfalse⟩)
        · exact hloose
        · exact hfalse.elim
      · exact Graph.change_node? (hd.grows.node? (g.begin_node?_self n key scope)) _
  | noDemands => exact .refl
  | @requestDemand stack scope r id demands ids g g₁ g' hd hds ih ihs =>
      have hbounded := (hd.bounded hstack hg).1
      have hstack' := stack_grows hstack hd.grows
      refine ((ih hstack hg).seq (ihs hstack' hbounded) hstack).imp ?_
      rintro d - (⟨hmem, hfits⟩ | ⟨-, r', hr', hfits⟩)
      · rw [List.mem_singleton.mp hmem]
        exact ⟨r, List.mem_cons_self, hfits.mono hds.grows.scopes⟩
      · exact ⟨r', List.mem_cons_of_mem _ hr', hfits⟩
  | @entryDemand stack scope e id demands ids g g₁ g' hd hds ih ihs =>
      have hbounded := (hd.bounded hstack hg).1
      have hstack' := stack_grows hstack hd.grows
      refine ((ih hstack hg).seq (ihs hstack' hbounded) hstack).imp ?_
      rintro d - (⟨-, hfalse⟩ | ⟨-, r', hr', hfits⟩)
      · exact hfalse.elim
      · exact ⟨r', List.mem_cons_of_mem _ hr', hfits⟩
  | noInterceptors => exact .refl
  | @interceptor stack id owner t e entries ids attached g g₁ g' hd hds ih ihs =>
      have hbounded := (hd.bounded hstack hg).1
      have hstack' := stack_grows hstack hd.grows
      refine ((ih hstack hg).seq (ihs hstack' hbounded) hstack).imp ?_
      rintro d - (⟨-, r, hr, hfits⟩ | ⟨-, i, hi, hloose⟩)
      · exact ⟨_, List.mem_cons_self, r, mem_zip_requests hr,
          hfits.mono hds.grows.scopes⟩
      · exact ⟨i, List.mem_cons_of_mem _ hi, hloose⟩

end Wiring
