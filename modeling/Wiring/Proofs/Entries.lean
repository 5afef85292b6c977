import Wiring.Proofs.Caching.Provenance
import Wiring.Proofs.Collecting.Keys
import Wiring.Proofs.Completion
import Wiring.Proofs.Wrapping

/-!
# Entries of running maps

Contributions to a map are told apart by the type and the text of their keys.  When the plan
is run the map is made again from the texts alone, so of two keys that only differ in their
types one entry is left, in the place of the first with the value of the second.

**Results.**
* `Graph.Batched.keyed`: a map node has as many keys as dependencies, and no key twice.
* `Eval.node_map`: a map node comes to its values, each put under the text of its key.
* `Graph.Batched.keepsEntries_iff`: no entry is lost exactly if no two keys of the node share
  a text.
-/

namespace Wiring

open Dialogue (stateOf)

/-! ## Keys of a node -/

namespace Graph

/-- A map node is not retained, and has as many keys as dependencies and no key twice. -/
theorem Batched.keyed
    {B : Build}
    {g : Graph}
    (h : Batched B g) :
    g.Every (fun _ n => ∀ keys, n.kind = .map keys →
      n.retained = false ∧ keys.length = n.dependencies.length ∧ keys.Nodup) := by
  refine (h.every_keeping (Memo.persists_keyedApart B) ?_ (fun _ hn => hn) (fun _ hn => hn)
    (fun _ hn => hn) ?_).2
  · intro id n hnew keys hkind
    cases hnew with
    | null | missing | declaration => cases hkind
    | candidate hblueprint hmemo =>
        cases hblueprint with
        | input | object | self | funAlias | set | provider | childComponent => cases hkind
        | @map type merged m hm =>
            cases hkind
            have hmerged := (hmemo.merged (B := B) .map type _).2 merged (by rw [hm])
            obtain ⟨hlength, hnodup⟩ := hmerged.mapKeys
            exact ⟨rfl, by simpa [Node.ofCollection] using hlength, hnodup⟩
  · intro id nodes n n' houtcome hn
    cases houtcome with
    | kept => exact hn
    | canonical => exact hn
    | delegate =>
        intro keys hkind
        cases hkind

end Graph

/-! ## Making a map -/

section Maps

variable {σ κ : Type}

theorem Value.putText_eq_upsert
    (text : String)
    (v : Value κ)
    (entries : List (String × Value κ)) :
    Value.putText text v entries = upsert text v entries := by
  induction entries with
  | nil => rfl
  | cons first rest ih =>
      obtain ⟨text', v'⟩ := first
      rw [Value.putText, upsert, ih]

theorem Value.mapOf_eq
    (entries : List (String × Value κ)) :
    Value.mapOf entries = .map (upsertAll entries) := by
  simp only [Value.mapOf, Value.putText_eq_upsert, upsertAll]

theorem Eval.missing_ne_ok
    {α : Type}
    (P : Program σ κ)
    (i : InstanceId)
    (what : Unavailable)
    (a : α)
    (r r' : Run σ κ) :
    Eval.missing P i what r ≠ .ok a r' := by
  intro h
  obtain ⟨_, _, _, hfail⟩ := Eval.bind_eq_ok.mp h
  cases hfail

/-- A map node comes to the values of its dependencies, each put under the text of its key. -/
theorem Eval.node_map
    {P : Program σ κ}
    {recur : Task κ → Eval σ κ (Value κ)}
    {i : InstanceId}
    {id : NodeId}
    {n : Node}
    {keys : List MapKey}
    (hnode : P.plan.node? id = some n)
    (hkind : n.kind = .map keys)
    (hpassing : n.retained = false)
    {v : Value κ}
    {r r' : Run σ κ}
    (h : Eval.node P recur i id r = .ok v r') :
    ∃ owner values, r.nearest? i n.owner = some owner
      ∧ Eval.nodes recur owner n.resolved r = .ok values r'
      ∧ v = .map (upsertAll ((keys.map MapKey.value).zip values)) := by
  unfold Eval.node at h
  simp only [hnode] at h
  obtain ⟨live, r₁, hlive, h⟩ := Eval.bind_eq_ok.mp h
  cases hlive
  cases howner : (r.instances[i.index]?).bind (fun s => s.lineage.lookup n.owner) with
  | none =>
      rw [howner] at h
      exact absurd h (Eval.missing_ne_ok P i _ v r r')
  | some owner =>
      rw [howner] at h
      simp only [hpassing, Bool.not_false, if_true, Eval.compute, hkind] at h
      obtain ⟨values, r₁, hvalues, hv⟩ := Eval.bind_eq_ok.mp h
      cases hv
      exact ⟨owner, values, howner, hvalues, Value.mapOf_eq _⟩

/-- Whether a map has one entry for each key of its node, in the order of the keys, with the
value that the dependency of the key came to. -/
def Program.KeepsEntries (P : Program σ κ) (fuel : Nat) (i : InstanceId) (n : Node)
    (keys : List MapKey) (r : Run σ κ) (v : Value κ) (r' : Run σ κ) : Prop :=
  ∃ owner values entries, r.nearest? i n.owner = some owner
    ∧ Eval.nodes (Eval.task P fuel) owner n.resolved r = .ok values r'
    ∧ v = .map entries
    ∧ entries.map Prod.fst = keys.map MapKey.value
    ∧ entries.map Prod.snd = values

/-- A map keeps its entries exactly if the keys of its node have different texts. -/
theorem Program.keepsEntries_iff_nodup
    {P : Program σ κ}
    {fuel : Nat}
    {i : InstanceId}
    {id : NodeId}
    {n : Node}
    {keys : List MapKey}
    (hnode : P.plan.node? id = some n)
    (hkind : n.kind = .map keys)
    (hpassing : n.retained = false)
    (hlength : keys.length = n.resolved.length)
    {v : Value κ}
    {r r' : Run σ κ}
    (h : Eval.task P (fuel + 1) (.node i id) r = .ok v r') :
    P.KeepsEntries fuel i n keys r v r' ↔ (keys.map MapKey.value).Nodup := by
  obtain ⟨owner, values, howner, hvalues, rfl⟩ := Eval.node_map hnode hkind hpassing h
  have hcount : (keys.map MapKey.value).length = values.length := by
    rw [List.length_map, hlength, Eval.length_of_nodes hvalues]
  constructor
  · rintro ⟨_, _, entries, -, -, hmap, htexts, -⟩
    obtain rfl : upsertAll _ = entries := Value.map.inj hmap
    rw [← htexts, keys_upsertAll]
    exact nodup_distinct _
  · intro hnodup
    have hzip : ((keys.map MapKey.value).zip values).map Prod.fst = keys.map MapKey.value :=
      List.map_fst_zip (Nat.le_of_eq hcount)
    have hkept := upsertAll_eq_self_iff.mpr (hzip.symm ▸ hnodup)
    exact ⟨owner, values, _, howner, hvalues, congrArg Value.map hkept, hzip,
      List.map_snd_zip (Nat.le_of_eq hcount.symm)⟩

end Maps

namespace Graph

/-- In a plan of a graph that calls and batches reach, a map keeps its entries exactly if no
two keys of its node share a text. -/
theorem Batched.keepsEntries_iff
    {B : Build}
    {g : Graph}
    (h : Batched B g)
    {σ κ : Type}
    {P : Program σ κ}
    (hplan : P.plan = g.plan)
    {id : NodeId}
    {n : Node}
    (hn : g.node? id = some n)
    {keys : List MapKey}
    (hkind : n.kind = .map keys)
    {fuel : Nat}
    {i : InstanceId}
    {v : Value κ}
    {r r' : Run σ κ}
    (hrun : Eval.task P (fuel + 1) (.node i id) r = .ok v r') :
    P.KeepsEntries fuel i n keys r v r' ↔
      ∀ a ∈ keys, ∀ b ∈ keys, a.value = b.value → a = b := by
  have hnode : P.plan.node? id = some n := by
    rw [hplan]
    exact hn
  obtain ⟨hpassing, hlength, hnodup⟩ := h.keyed hn keys hkind
  rw [Program.keepsEntries_iff_nodup hnode hkind hpassing
    (hlength.trans (h.complete hn).dependencies.symm) hrun]
  exact List.nodup_map_iff_inj_on hnodup

/-! ## Two keys with one text -/

/-- Three classes: what the entries are, and the types of their keys. -/
def spellings : Build where
  registry :=
    { Registry.initial with
      registered := #[{ name := ⟨"Meaning"⟩ }, { name := ⟨"Word"⟩ }, { name := ⟨"Number"⟩ }] }

/-- A word and a number with the same text. -/
def spellingKeys : List MapKey := [⟨.of ⟨17⟩, "1"⟩, ⟨.of ⟨18⟩, "1"⟩]

/-- An entry for each of them. -/
def spellingDeclarations : List Declaration :=
  [ { name := ⟨"app.word"⟩, type := .of ⟨16⟩, role := .mapEntry, mapKey := spellingKeys[0] },
    { name := ⟨"app.number"⟩, type := .of ⟨16⟩, role := .mapEntry, mapKey := spellingKeys[1] } ]

/-- The graph after a map with keys of any type was asked for. -/
def spellingGraph : Graph :=
  ((Graph.empty.withScope spellings none { name := "App" } spellingDeclarations).resolve
    spellings ⟨0⟩ { type := .mapOf (.of .any) (.of ⟨16⟩), origin := ⟨"app"⟩ }).2

/-- The plan with factories that return their names. -/
def spellingProgram : Program Unit String where
  plan := spellingGraph.plan
  factories := { factories := [(⟨"app.word"⟩, "word"), (⟨"app.number"⟩, "number")] }
  host :=
    { factory := fun name _ _ => .finish () (.ok (.text name))
      function := fun _ _ _ _ => .finish () (.ok .absent) }

/-- The run after the scope was instantiated. -/
def spellingStart : Run Unit String :=
  stateOf (spellingProgram.perform 4 (.instantiate ⟨0⟩ []) { host := () })

theorem spellingGraph_batched : Batched spellings spellingGraph :=
  .resolve _ _ (Batched.empty.withScope _ _ _)

/-- The map has both keys and succeeds. -/
theorem spellingProgram_succeeds :
    ∃ n v r', spellingGraph.node? ⟨0⟩ = some n
      ∧ n.kind = .map spellingKeys
      ∧ n.retained = false
      ∧ n.resolved.length = 2
      ∧ Eval.task spellingProgram 4 (.node ⟨0⟩ ⟨0⟩) spellingStart = .ok v r' := by
  have hnode : (spellingGraph.node? ⟨0⟩).any (fun n =>
      decide (n.kind = .map spellingKeys ∧ n.retained = false ∧ n.resolved.length = 2))
        = true := by
    decide +kernel
  obtain ⟨n, hn, hfacts⟩ := (Option.any_eq_true _ _).mp hnode
  obtain ⟨hkind, hpassing, hlength⟩ := of_decide_eq_true hfacts
  have hsucceeds : Eval.succeeds (Eval.task spellingProgram 4 (.node ⟨0⟩ ⟨0⟩)) spellingStart
      = true := by
    decide +kernel
  obtain ⟨v, r', hrun⟩ := Eval.exists_ok_of_succeeds hsucceeds
  exact ⟨n, v, r', hn, hkind, hpassing, hlength, hrun⟩

theorem spellingProgram_keepsEntries_iff :
    ∃ n v r', spellingGraph.node? ⟨0⟩ = some n
      ∧ n.kind = .map spellingKeys
      ∧ Eval.task spellingProgram 4 (.node ⟨0⟩ ⟨0⟩) spellingStart = .ok v r'
      ∧ (spellingProgram.KeepsEntries 3 ⟨0⟩ n spellingKeys spellingStart v r' ↔
        ∀ a ∈ spellingKeys, ∀ b ∈ spellingKeys, a.value = b.value → a = b) := by
  obtain ⟨n, v, r', hn, hkind, -, -, hrun⟩ := spellingProgram_succeeds
  exact ⟨n, v, r', hn, hkind, hrun,
    Batched.keepsEntries_iff spellingGraph_batched rfl hn hkind hrun⟩

/-- One entry is left of the two. -/
theorem spellingProgram_not_keepsEntries :
    Batched spellings spellingGraph
      ∧ (match Eval.task spellingProgram 4 (.node ⟨0⟩ ⟨0⟩) spellingStart with
        | .ok (.map entries) _ => entries.map (fun e => (e.1, e.2.text?))
        | _ => []) = [("1", some "number")]
      ∧ ∃ n v r', spellingGraph.node? ⟨0⟩ = some n
        ∧ n.kind = .map spellingKeys
        ∧ Eval.task spellingProgram 4 (.node ⟨0⟩ ⟨0⟩) spellingStart = .ok v r'
        ∧ ¬ spellingProgram.KeepsEntries 3 ⟨0⟩ n spellingKeys spellingStart v r' := by
  obtain ⟨n, v, r', hn, hkind, hpassing, hlength, hrun⟩ := spellingProgram_succeeds
  refine ⟨spellingGraph_batched, by decide +kernel, n, v, r', hn, hkind, hrun, ?_⟩
  rw [Program.keepsEntries_iff_nodup (P := spellingProgram) hn hkind hpassing hlength.symm hrun]
  decide

end Graph
end Wiring
