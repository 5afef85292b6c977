import Mathlib.Data.List.Basic
import Wiring.Collection
import Wiring.Proofs.Offer

/-!
# Contributions under their keys

Contributions are put into a table one after the other.  A table is determined by the
contributions so far: its keys are theirs, in order of first occurrence, and under a key
stands the last override after the key's first contribution, or else the first
contribution itself.

**Results.**
* `add_table`, `add_table_error`: one more contribution keeps the table so, or is refused
  because it insists on being the only one of its key.
* `foldlM_add`, `foldlM_add_error`: the same of several contributions.
* `upsertAll_eq_self_iff`: putting values under keys one after the other loses nothing
  exactly if no key comes twice.
* `rekeyed_settled`: what contributions come to makes their table again.
-/

namespace Wiring

/-! ## Values under keys -/

section Upsert

variable {α β : Type} [DecidableEq α]

/-- Put a value under a key, in the place of an earlier one. -/
def upsert (k : α) (v : β) : List (α × β) → List (α × β)
  | [] => [(k, v)]
  | (k', v') :: rest => if k' = k then (k, v) :: rest else (k', v') :: upsert k v rest

theorem upsert_of_notMem
    {k : α}
    {entries : List (α × β)}
    (h : k ∉ entries.map Prod.fst)
    (v : β) :
    upsert k v entries = entries ++ [(k, v)] := by
  induction entries with
  | nil => rfl
  | cons first rest ih =>
      obtain ⟨hne, hrest⟩ := not_or.mp (fun hor => h (List.mem_cons.mpr hor))
      rw [upsert, if_neg (Ne.symm hne), ih hrest]
      rfl

theorem keys_upsert
    (k : α)
    (v : β)
    (entries : List (α × β)) :
    (upsert k v entries).map Prod.fst
      = if k ∈ entries.map Prod.fst then entries.map Prod.fst
        else entries.map Prod.fst ++ [k] := by
  induction entries with
  | nil => rfl
  | cons first rest ih =>
      obtain ⟨k', v'⟩ := first
      by_cases heq : k' = k
      · simp [upsert, heq]
      · have hne : k ≠ k' := Ne.symm heq
        by_cases hk : k ∈ rest.map Prod.fst
        · rw [if_pos hk] at ih
          rw [if_pos (by simp [hk]), upsert, if_neg heq, List.map_cons, ih]
          rfl
        · rw [if_neg hk] at ih
          rw [if_neg (by simp [hk, hne]), upsert, if_neg heq, List.map_cons, ih]
          rfl

theorem mem_upsert
    {k : α}
    {v : β}
    {p : α × β}
    {entries : List (α × β)}
    (h : p ∈ upsert k v entries) :
    p = (k, v) ∨ p ∈ entries := by
  induction entries with
  | nil => exact .inl (List.mem_singleton.mp h)
  | cons first rest ih =>
      unfold upsert at h
      split at h
      · exact (List.mem_cons.mp h).imp_right (List.mem_cons_of_mem _)
      · rcases List.mem_cons.mp h with rfl | h
        · exact .inr List.mem_cons_self
        · exact (ih h).imp_right (List.mem_cons_of_mem _)

/-- Put values under their keys, one after the other. -/
def upsertAll (entries : List (α × β)) : List (α × β) :=
  entries.foldl (fun table e => upsert e.1 e.2 table) []

theorem upsertAll_concat
    (entries : List (α × β))
    (e : α × β) :
    upsertAll (entries ++ [e]) = upsert e.1 e.2 (upsertAll entries) := by
  unfold upsertAll
  rw [List.foldl_append]
  rfl

/-- Each key is there once, in order of its first entry. -/
theorem keys_upsertAll
    (entries : List (α × β)) :
    (upsertAll entries).map Prod.fst = distinct (entries.map Prod.fst) := by
  induction entries using List.reverseRecOn with
  | nil => rfl
  | append_singleton entries e ih =>
      rw [upsertAll_concat, keys_upsert, ih, List.map_append]
      exact (distinct_concat _ _).symm

/-- Nothing is lost exactly if no key comes twice. -/
theorem upsertAll_eq_self_iff
    {entries : List (α × β)} :
    upsertAll entries = entries ↔ (entries.map Prod.fst).Nodup := by
  constructor
  · intro h
    rw [← h, keys_upsertAll]
    exact nodup_distinct _
  · intro h
    induction entries using List.reverseRecOn with
    | nil => rfl
    | append_singleton entries e ih =>
        rw [List.map_append] at h
        obtain ⟨hbefore, -, hfresh⟩ := List.nodup_append.mp h
        have hnew : e.1 ∉ entries.map Prod.fst := fun hmem =>
          hfresh e.1 hmem e.1 (List.mem_singleton_self _) rfl
        rw [upsertAll_concat, ih hbefore, upsert_of_notMem hnew]

end Upsert

namespace Collection

/-! ## The table of a list of contributions -/

/-- The contributions under a key, in order. -/
def under (kind : Kind) (entries : List Entry) (k : EntryKey) : List Entry :=
  entries.filter (fun e => key? kind e = some k)

/-- The keys of contributions, in order of their first ones. -/
def keys (kind : Kind) (entries : List Entry) : List EntryKey :=
  distinct (entries.filterMap (key? kind))

/-- Which of the contributions under one key counts: the last one after the first that
overrides, or else the first. -/
def winner? (entries : List Entry) : Option Entry :=
  (entries.tail.filter (fun e => e.declaration.policy = .override)).getLast?.or
    entries.head?

/-- What contributions come to: one for each key, in order of the keys' first ones. -/
def settled (kind : Kind) (entries : List Entry) : List Entry :=
  (keys kind entries).filterMap (fun k => winner? (under kind entries k))

/-- Whether a contribution that is not the first one of its key insists on being the only
one. -/
def Collides (kind : Kind) (entries : List Entry) : Prop :=
  ∃ k, ∃ e ∈ (under kind entries k).tail, e.declaration.policy = .fail

/-- Whether one more contribution insists on being the only one of a key that is taken. -/
def Rejects (kind : Kind) (entries : List Entry) (e : Entry) : Prop :=
  ∃ k, key? kind e = some k ∧ under kind entries k ≠ [] ∧ e.declaration.policy = .fail

/-- The entries that some keys have, under these keys. -/
def tabulate (f : EntryKey → Option Entry) (ks : List EntryKey) : Keyed :=
  ks.filterMap (fun k => (f k).map (fun e => (k, e)))

/-- What contributions come to, under their keys. -/
def table (kind : Kind) (entries : List Entry) : Keyed :=
  tabulate (fun k => winner? (under kind entries k)) (keys kind entries)

section Tabulate

variable {f g : EntryKey → Option Entry} {ks : List EntryKey} {k : EntryKey} {e : Entry}

theorem tabulate_cons_some (hf : f k = some e) :
    tabulate f (k :: ks) = (k, e) :: tabulate f ks := by
  simp [tabulate, hf]

theorem tabulate_cons_none (hf : f k = none) : tabulate f (k :: ks) = tabulate f ks := by
  simp [tabulate, hf]

/-- Keys keep their order. -/
theorem sublist_tabulate : ((tabulate f ks).map Prod.fst).Sublist ks := by
  induction ks with
  | nil => exact List.Sublist.slnil
  | cons k ks ih =>
      cases hf : f k with
      | none =>
          rw [tabulate_cons_none hf]
          exact ih.cons k
      | some e =>
          rw [tabulate_cons_some hf]
          exact ih.cons_cons k

theorem tabulate_congr (h : ∀ k ∈ ks, f k = g k) : tabulate f ks = tabulate g ks :=
  List.filterMap_congr (fun k hk => by rw [h k hk])

theorem tabulate_concat (hf : f k = some e) :
    tabulate f (ks ++ [k]) = tabulate f ks ++ [(k, e)] := by
  simp [tabulate, List.filterMap_append, hf]

theorem find?_tabulate :
    (tabulate f ks).find? k = if k ∈ ks then f k else none := by
  unfold Keyed.find?
  induction ks with
  | nil => rfl
  | cons k' ks ih =>
      cases hf : f k' with
      | none =>
          rw [tabulate_cons_none hf, ih]
          by_cases heq : k = k'
          · subst heq
            simp [hf]
          · simp [heq]
      | some e' =>
          rw [tabulate_cons_some hf, List.lookup_cons]
          by_cases heq : k = k'
          · subst heq
            simp [hf]
          · have hne : (k == k') = false := by simpa using heq
            simp [hne, heq, ih]

theorem Keyed.put_eq_upsert
    (k : EntryKey)
    (e : Entry)
    (entries : Keyed) :
    entries.put k e = upsert k e entries := by
  induction entries with
  | nil => rfl
  | cons first rest ih =>
      obtain ⟨k', e'⟩ := first
      rw [Keyed.put, upsert, ih]

/-- A new key is put at the end. -/
theorem put_of_find?_eq_none
    {entries : Keyed}
    (h : entries.find? k = none)
    (e : Entry) :
    entries.put k e = entries ++ [(k, e)] := by
  rw [Keyed.put_eq_upsert]
  refine upsert_of_notMem ?_ e
  intro hmem
  obtain ⟨p, hp, rfl⟩ := List.mem_map.mp hmem
  simpa using List.lookup_eq_none_iff.mp h p hp

/-- A key that is taken gets another entry in its place. -/
theorem put_tabulate
    (hks : ks.Nodup)
    (hk : k ∈ ks)
    (hf : (f k).isSome = true)
    (hg : g k = some e)
    (hsame : ∀ k', k' ≠ k → g k' = f k') :
    (tabulate f ks).put k e = tabulate g ks := by
  induction ks with
  | nil => cases hk
  | cons k' ks ih =>
      obtain ⟨hnew, hks⟩ := List.nodup_cons.mp hks
      by_cases heq : k' = k
      · subst heq
        obtain ⟨e', he'⟩ := Option.isSome_iff_exists.mp hf
        have hrest : tabulate f ks = tabulate g ks := by
          refine tabulate_congr fun k'' hk'' => (hsame k'' ?_).symm
          rintro rfl
          exact hnew hk''
        rw [tabulate_cons_some he', tabulate_cons_some hg, hrest]
        simp [Keyed.put]
      · have hk := (List.mem_cons.mp hk).resolve_left (fun h => heq h.symm)
        have hrest := ih hks hk
        cases hf' : f k' with
        | none =>
            have hg' : g k' = none := (hsame k' heq).trans hf'
            rw [tabulate_cons_none hf', tabulate_cons_none hg', hrest]
        | some e' =>
            have hg' : g k' = some e' := (hsame k' heq).trans hf'
            rw [tabulate_cons_some hf', tabulate_cons_some hg', ← hrest]
            simp [Keyed.put, heq]

end Tabulate

/-! ## One more contribution -/

section Step

variable {kind : Kind} {entries : List Entry} {e : Entry} {k : EntryKey}

theorem under_concat :
    under kind (entries ++ [e]) k
      = under kind entries k ++ if key? kind e = some k then [e] else [] := by
  unfold under
  rw [List.filter_append]
  by_cases h : key? kind e = some k <;> simp [h]

theorem winner?_concat (e : Entry) :
    winner? (entries ++ [e])
      = if entries = [] ∨ e.declaration.policy = .override then some e
        else winner? entries := by
  cases entries with
  | nil => simp [winner?]
  | cons first rest =>
      by_cases h : e.declaration.policy = .override
      · simp [winner?, List.filter_append, h]
      · simp [winner?, List.filter_append, h]

theorem winner?_eq_none_iff : winner? entries = none ↔ entries = [] := by
  cases entries with
  | nil => simp [winner?]
  | cons first rest => simp [winner?]

theorem winner?_mem
    (h : winner? entries = some e) :
    e ∈ entries := by
  rcases Option.or_eq_some_iff.mp h with hlast | ⟨-, hhead⟩
  · exact List.mem_of_mem_tail (List.mem_filter.mp (List.mem_of_getLast? hlast)).1
  · exact List.mem_of_head? hhead

theorem mem_keys : k ∈ keys kind entries ↔ under kind entries k ≠ [] := by
  simp [keys, under, List.filter_eq_nil_iff]

theorem keys_concat_of_none
    (h : key? kind e = none) :
    keys kind (entries ++ [e]) = keys kind entries := by
  simp [keys, List.filterMap_append, h]

theorem keys_concat
    (h : key? kind e = some k) :
    keys kind (entries ++ [e])
      = if k ∈ keys kind entries then keys kind entries else keys kind entries ++ [k] := by
  unfold keys
  rw [List.filterMap_append]
  simp only [List.filterMap_cons, h, List.filterMap_nil]
  exact distinct_concat _ _

/-- Under a key stands the contribution that counts. -/
theorem find?_table : (table kind entries).find? k = winner? (under kind entries k) := by
  unfold table
  rw [find?_tabulate]
  split
  · rfl
  · rename_i hk
    have hnone : under kind entries k = [] := by
      simpa using fun h => hk (mem_keys.mpr h)
    rw [hnone]
    rfl

theorem collides_concat :
    Collides kind (entries ++ [e]) ↔ Collides kind entries ∨ Rejects kind entries e := by
  constructor
  · rintro ⟨k, e', he', hpolicy⟩
    rw [under_concat] at he'
    by_cases hempty : under kind entries k = []
    · rw [hempty, List.nil_append] at he'
      split at he' <;> cases he'
    · rw [List.tail_append_of_ne_nil hempty] at he'
      rcases List.mem_append.mp he' with he' | he'
      · exact .inl ⟨k, e', he', hpolicy⟩
      · split at he'
        · rename_i hk
          rw [List.mem_singleton.mp he'] at hpolicy
          exact .inr ⟨k, hk, hempty, hpolicy⟩
        · cases he'
  · rintro (⟨k, e', he', hpolicy⟩ | ⟨k, hk, htaken, hpolicy⟩)
    · have htaken : under kind entries k ≠ [] := fun hempty => by
        rw [hempty] at he'
        cases he'
      refine ⟨k, e', ?_, hpolicy⟩
      rw [under_concat, List.tail_append_of_ne_nil htaken]
      exact List.mem_append_left _ he'
    · refine ⟨k, e, ?_, hpolicy⟩
      rw [under_concat, List.tail_append_of_ne_nil htaken, if_pos hk]
      exact List.mem_append_right _ (List.mem_singleton_self e)

/-- A contribution that insists on being the only one of a key that is taken is
refused. -/
theorem add_table_error
    (h : Rejects kind entries e)
    (collection : Ty)
    (scope : String) :
    ∃ k existing, add kind collection scope (table kind entries) e
      = .error (.duplicate collection k scope existing e.origin) := by
  obtain ⟨k, hk, htaken, hpolicy⟩ := h
  cases hwinner : winner? (under kind entries k) with
  | none => exact absurd (winner?_eq_none_iff.mp hwinner) htaken
  | some existing =>
      refine ⟨k, existing.origin, ?_⟩
      simp [add, hk, find?_table, hwinner, hpolicy]

/-- A contribution without a key changes nothing. -/
theorem table_concat_of_none
    (h : key? kind e = none) :
    table kind (entries ++ [e]) = table kind entries := by
  unfold table
  rw [keys_concat_of_none h]
  refine tabulate_congr fun k _ => ?_
  rw [under_concat, h]
  simp

/-- Under another key there is the same after a contribution. -/
theorem winner?_under_of_ne
    {k' : EntryKey}
    (h : key? kind e = some k)
    (hne : k' ≠ k) :
    winner? (under kind (entries ++ [e]) k') = winner? (under kind entries k') := by
  have hother : key? kind e ≠ some k' := by
    rw [h]
    exact fun heq => hne (Option.some.inj heq).symm
  rw [under_concat, if_neg hother, List.append_nil]

/-- Any other contribution turns the table into that of one contribution more. -/
theorem add_table
    (h : ¬ Rejects kind entries e)
    (collection : Ty)
    (scope : String) :
    add kind collection scope (table kind entries) e = .ok (table kind (entries ++ [e])) := by
  cases hk : key? kind e with
  | none => simp [add, hk, table_concat_of_none hk]
  | some k =>
      have hwinner : winner? (under kind (entries ++ [e]) k)
          = if under kind entries k = [] ∨ e.declaration.policy = .override then some e
            else winner? (under kind entries k) := by
        rw [under_concat, if_pos hk, winner?_concat]
      by_cases htaken : k ∈ keys kind entries
      · have hunder := mem_keys.mp htaken
        obtain ⟨existing, hexisting⟩ : ∃ existing, winner? (under kind entries k)
            = some existing :=
          Option.ne_none_iff_exists'.mp (fun hnone => hunder (winner?_eq_none_iff.mp hnone))
        cases hpolicy : e.declaration.policy with
        | fail => exact absurd ⟨k, hk, hunder, hpolicy⟩ h
        | override =>
            simp only [add, hk, find?_table, hexisting, hpolicy]
            refine congrArg Except.ok ?_
            unfold table
            rw [keys_concat hk, if_pos htaken]
            exact put_tabulate (nodup_distinct _) htaken (by simp [hexisting])
              (by simp [hwinner, hpolicy]) (fun k' hne => winner?_under_of_ne hk hne)
        | drop =>
            simp only [add, hk, find?_table, hexisting, hpolicy]
            refine congrArg Except.ok ?_
            unfold table
            rw [keys_concat hk, if_pos htaken]
            refine tabulate_congr fun k' _ => ?_
            by_cases heq : k' = k
            · subst heq
              simp [hwinner, hunder, hpolicy]
            · exact (winner?_under_of_ne hk heq).symm
      · have hunder : under kind entries k = [] := by
          simpa using fun h => htaken (mem_keys.mpr h)
        have hfree : (table kind entries).find? k = none := by
          rw [find?_table, hunder]
          rfl
        simp only [add, hk, hfree]
        refine congrArg Except.ok ?_
        rw [put_of_find?_eq_none hfree]
        unfold table
        rw [keys_concat hk, if_neg htaken, tabulate_concat (e := e) (by simp [hwinner, hunder])]
        congr 1
        refine tabulate_congr fun k' hk' => ?_
        refine (winner?_under_of_ne hk ?_).symm
        rintro rfl
        exact htaken hk'

end Step

/-! ## Several contributions -/

section Runs

variable {kind : Kind} {entries found : List Entry}

/-- A collision stays one with more contributions. -/
theorem Collides.append
    (h : Collides kind entries)
    (found : List Entry) :
    Collides kind (entries ++ found) := by
  induction found generalizing entries with
  | nil => rwa [List.append_nil]
  | cons e found ih =>
      rw [List.append_cons]
      exact ih (collides_concat.mpr (.inl h))

/-- Contributions that do not collide are added one after the other. -/
theorem foldlM_add
    (h : ¬ Collides kind (entries ++ found))
    (collection : Ty)
    (scope : String) :
    found.foldlM (add kind collection scope) (table kind entries)
      = .ok (table kind (entries ++ found)) := by
  induction found generalizing entries with
  | nil => simp [pure, Except.pure]
  | cons e found ih =>
      rw [List.append_cons] at h ⊢
      have hfirst : ¬ Rejects kind entries e := fun hrejects =>
        h ((collides_concat.mpr (.inr hrejects)).append found)
      rw [List.foldlM_cons, add_table hfirst]
      exact ih h

/-- Contributions that collide with those before them are refused. -/
theorem foldlM_add_error
    (h : Collides kind (entries ++ found))
    (hbefore : ¬ Collides kind entries)
    (collection : Ty)
    (scope : String) :
    ∃ k existing repeated, found.foldlM (add kind collection scope) (table kind entries)
      = .error (.duplicate collection k scope existing repeated) := by
  induction found generalizing entries with
  | nil =>
      rw [List.append_nil] at h
      exact absurd h hbefore
  | cons e found ih =>
      rw [List.append_cons] at h
      by_cases hfirst : Rejects kind entries e
      · obtain ⟨k, existing, hadd⟩ := add_table_error hfirst collection scope
        refine ⟨k, existing, e.origin, ?_⟩
        rw [List.foldlM_cons, hadd]
        rfl
      · have hstill : ¬ Collides kind (entries ++ [e]) := fun hcollides =>
          (collides_concat.mp hcollides).elim hbefore hfirst
        obtain ⟨k, existing, repeated, hrest⟩ := ih h hstill
        refine ⟨k, existing, repeated, ?_⟩
        rw [List.foldlM_cons, add_table hfirst]
        exact hrest

end Runs

/-! ## Tables and lists of entries -/

section Entries

variable {kind : Kind} {entries : List Entry}

theorem map_snd_table : (table kind entries).map Prod.snd = settled kind entries := by
  unfold table tabulate settled
  rw [List.map_filterMap]
  simp [Function.comp_def]

/-- Contributions with keys leave something under them. -/
theorem isEmpty_table
    (h : ∀ e ∈ entries, (key? kind e).isSome = true) :
    (table kind entries).isEmpty = entries.isEmpty := by
  cases entries with
  | nil => rfl
  | cons e rest =>
      obtain ⟨k, hk⟩ := Option.isSome_iff_exists.mp (h e List.mem_cons_self)
      have hunder : under kind (e :: rest) k ≠ [] := by
        refine List.ne_nil_of_mem (a := e) ?_
        simp [under, hk]
      have hfound : (table kind (e :: rest)).find? k ≠ none := by
        rw [find?_table]
        exact fun hnone => hunder (winner?_eq_none_iff.mp hnone)
      cases htable : table kind (e :: rest) with
      | nil =>
          rw [htable] at hfound
          exact absurd rfl hfound
      | cons first others => rfl

/-- The entries of a table stand under their own keys. -/
theorem key?_of_mem_table
    {p : EntryKey × Entry}
    (hp : p ∈ table kind entries) :
    key? kind p.2 = some p.1 := by
  obtain ⟨k, -, hk⟩ := List.mem_filterMap.mp hp
  obtain ⟨e, he, rfl⟩ := Option.map_eq_some_iff.mp hk
  have hunder : e ∈ under kind entries k := winner?_mem he
  simpa [under] using (List.mem_filter.mp hunder).2

/-- Every key has one entry of a table at most. -/
theorem nodup_table : ((table kind entries).map Prod.fst).Nodup :=
  sublist_tabulate.nodup (nodup_distinct _)

/-- A list of entries put under their keys one after the other. -/
def rekeyed (kind : Kind) (entries : List Entry) (start : Keyed) : Keyed :=
  entries.foldl (fun entries e =>
    match key? kind e with
    | some k => Keyed.put k e entries
    | none => entries) start

/-- Entries whose keys are not taken are put at the end. -/
theorem rekeyed_eq_append
    {start rest : Keyed}
    (hkeys : ∀ p ∈ rest, key? kind p.2 = some p.1)
    (hnodup : ((start ++ rest).map Prod.fst).Nodup) :
    rekeyed kind (rest.map Prod.snd) start = start ++ rest := by
  induction rest generalizing start with
  | nil => exact (List.append_nil start).symm
  | cons p rest ih =>
      obtain ⟨k, e⟩ := p
      have hkey : key? kind e = some k := hkeys (k, e) List.mem_cons_self
      have hfree : start.find? k = none := by
        rw [List.map_append, List.map_cons] at hnodup
        have hdisjoint := (List.nodup_append.mp hnodup).2.2
        refine List.lookup_eq_none_iff.mpr fun q hq => ?_
        rw [bne_iff_ne]
        exact (hdisjoint q.1 (List.mem_map_of_mem hq) k List.mem_cons_self).symm
      have hstep : rekeyed kind (((k, e) :: rest).map Prod.snd) start
          = rekeyed kind (rest.map Prod.snd) (start ++ [(k, e)]) := by
        simp only [rekeyed, List.map_cons, List.foldl_cons, hkey,
          put_of_find?_eq_none hfree]
      rw [List.append_cons] at hnodup
      rw [hstep, ih (fun q hq => hkeys q (List.mem_cons_of_mem _ hq)) hnodup,
        ← List.append_cons]

/-- The table of contributions is made again from what they come to. -/
theorem rekeyed_settled : rekeyed kind (settled kind entries) [] = table kind entries := by
  rw [← map_snd_table]
  exact rekeyed_eq_append (fun p hp => key?_of_mem_table hp) nodup_table

end Entries

end Collection
end Wiring
