import Mathlib.Data.List.Nodup
import Wiring.Proofs.Batched
import Wiring.Proofs.Collecting.Table

/-!
# Entries that have keys of their own

A scope puts the entries of a collection under their keys, whatever it inherits, and an entry
takes the place of an earlier one of its key.  So the entries of a collection never share a
key, also those that a scope has kept.

**Results.**
* `Collection.keyedApart_of_extended`: whatever a scope makes of a collection has keys of its
  own.
* `Memo.persists_keyedApart`: so has whatever scopes keep.
-/

namespace Wiring

namespace Collection

variable {kind : Kind}

/-! ## Tables -/

/-- Whether entries stand under their own keys, and no key stands twice. -/
structure Keyed.Sound (kind : Kind) (entries : Keyed) : Prop where
  own : ∀ p ∈ entries, key? kind p.2 = some p.1
  nodup : (entries.map Prod.fst).Nodup

theorem Keyed.sound_nil : Keyed.Sound kind [] where
  own _ hp := nomatch hp
  nodup := List.nodup_nil

theorem Keyed.Sound.put
    {entries : Keyed}
    (h : entries.Sound kind)
    {k : EntryKey}
    {e : Entry}
    (hk : key? kind e = some k) :
    (entries.put k e).Sound kind := by
  rw [Keyed.put_eq_upsert]
  constructor
  · intro p hp
    rcases mem_upsert hp with rfl | hp
    · exact hk
    · exact h.own p hp
  · rw [keys_upsert]
    split
    · exact h.nodup
    · rename_i hfree
      refine List.nodup_append.mpr ⟨h.nodup, by simp, ?_⟩
      rintro a ha b hb rfl
      exact hfree (List.mem_singleton.mp hb ▸ ha)

theorem Keyed.Sound.add
    {entries entries' : Keyed}
    (h : entries.Sound kind)
    {collection : Ty}
    {scope : String}
    {e : Entry}
    (hadd : add kind collection scope entries e = .ok entries') :
    entries'.Sound kind := by
  unfold Collection.add at hadd
  split at hadd
  · cases hadd
    exact h
  · rename_i k hk
    split at hadd
    · cases hadd
      exact h.put hk
    · split at hadd
      · cases hadd
      · cases hadd
        exact h.put hk
      · cases hadd
        exact h

theorem Keyed.Sound.foldlM_add
    {found : List Entry}
    {entries entries' : Keyed}
    (h : entries.Sound kind)
    {collection : Ty}
    {scope : String}
    (hadd : found.foldlM (Collection.add kind collection scope) entries = .ok entries') :
    entries'.Sound kind := by
  induction found generalizing entries with
  | nil =>
      cases hadd
      exact h
  | cons e found ih =>
      rw [List.foldlM_cons] at hadd
      cases hfirst : Collection.add kind collection scope entries e with
      | error err =>
          rw [hfirst] at hadd
          cases hadd
      | ok entries₁ =>
          rw [hfirst] at hadd
          exact ih (h.add hfirst) hadd

theorem Keyed.Sound.rekeyed
    {start : Keyed}
    (h : start.Sound kind)
    (entries : List Entry) :
    (rekeyed kind entries start).Sound kind := by
  induction entries generalizing start with
  | nil => exact h
  | cons e entries ih =>
      unfold Collection.rekeyed
      rw [List.foldl_cons]
      refine ih ?_
      split
      · rename_i k hk
        exact h.put hk
      · exact h

/-! ## Collections -/

/-- Whether all entries of a collection have keys, and no two of them the same. -/
def KeyedApart (kind : Kind) (entries : List Entry) : Prop :=
  ∃ keys : List EntryKey, entries.map (key? kind) = keys.map some ∧ keys.Nodup

theorem keyedApart_nil : KeyedApart kind [] := ⟨[], rfl, List.nodup_nil⟩

theorem Keyed.Sound.keyedApart
    {entries : Keyed}
    (h : entries.Sound kind) :
    KeyedApart kind (entries.map Prod.snd) := by
  refine ⟨entries.map Prod.fst, ?_, h.nodup⟩
  rw [List.map_map, List.map_map]
  exact List.map_congr_left h.own

/-- Whatever a scope makes of a collection has keys of its own. -/
theorem keyedApart_of_extended
    {R : Registry}
    {K : Catalog}
    {options : Options}
    {collection : Ty}
    {s : Scope}
    {inherited found : Option (List Entry)}
    (h : extended R K options kind collection s inherited = .ok found) :
    KeyedApart kind (found.getD []) := by
  have hstart : (rekeyed kind (inherited.getD []) []).Sound kind := Keyed.sound_nil.rekeyed _
  unfold extended at h
  dsimp only at h
  split at h
  · cases h
  · rename_i entries hadd
    split at h
    · cases h
      exact (hstart.foldlM_add hadd).keyedApart
    · cases h
      exact keyedApart_nil

/-- The keys of a map's entries are as many as the entries, and no two are the same. -/
theorem KeyedApart.mapKeys
    {entries : List Entry}
    (h : KeyedApart .map entries) :
    (entries.filterMap (fun e => e.declaration.mapKey)).length = entries.length
      ∧ (entries.filterMap (fun e => e.declaration.mapKey)).Nodup := by
  obtain ⟨keys, hkeys, hnodup⟩ := h
  have hsame : (entries.filterMap (fun e => e.declaration.mapKey)).map EntryKey.key = keys := by
    calc (entries.filterMap (fun e => e.declaration.mapKey)).map EntryKey.key
        = entries.filterMap (key? .map) := List.map_filterMap
      _ = (entries.map (key? .map)).filterMap id := by rw [List.filterMap_map]; rfl
      _ = keys := by rw [hkeys, List.filterMap_map]; exact List.filterMap_some
  constructor
  · have hlength := congrArg List.length hkeys
    rw [← List.length_map (f := EntryKey.key), hsame]
    simpa using hlength.symm
  · exact .of_map EntryKey.key (hsame ▸ hnodup)

end Collection

/-! ## What scopes keep -/

namespace Memo

/-- Whether all collections that scopes have kept have keys of their own. -/
def KeyedApart (m : Memo) : Prop :=
  ∀ c ∈ m.collections, Collection.KeyedApart c.1.2.1 (c.2.getD [])

theorem KeyedApart.merged
    {B : Build}
    {m : Memo}
    (h : m.KeyedApart)
    (kind : Collection.Kind)
    (t : Ty)
    (path : List Scope) :
    (m.merged B.registry B.catalog B.options kind t path).2.KeyedApart
      ∧ ∀ found, (m.merged B.registry B.catalog B.options kind t path).1 = .ok found →
        Collection.KeyedApart kind (found.getD []) := by
  induction path with
  | nil =>
      refine ⟨h, ?_⟩
      rintro found ⟨⟩
      exact Collection.keyedApart_nil
  | cons s ancestors ih =>
      rw [Memo.merged]
      split
      · rename_i found hkept
        refine ⟨h, ?_⟩
        rintro found ⟨⟩
        obtain ⟨before, after, hsplit, -⟩ := List.lookup_eq_some_iff.mp hkept
        exact h ((s.id, kind, t), found)
          (hsplit ▸ List.mem_append_right before List.mem_cons_self)
      · obtain ⟨habove, -⟩ := ih
        split
        · rename_i hrun
          rw [hrun] at habove
          refine ⟨habove, ?_⟩
          rintro found ⟨⟩
        · rename_i inherited m' hrun
          rw [hrun] at habove
          split
          · refine ⟨habove, ?_⟩
            rintro found ⟨⟩
          · rename_i found hextended
            have hfound := Collection.keyedApart_of_extended hextended
            refine ⟨?_, ?_⟩
            · intro c hc
              rcases List.mem_cons.mp hc with rfl | hc
              · exact hfound
              · exact habove c hc
            · rintro found ⟨⟩
              exact hfound

theorem KeyedApart.visible
    {B : Build}
    {m : Memo}
    (h : m.KeyedApart)
    (t : Ty)
    (path : List Scope) :
    (m.visible B.registry B.catalog t path).2.KeyedApart := by
  induction path with
  | nil => exact h
  | cons s ancestors ih =>
      rw [Memo.visible]
      split
      · exact h
      · exact ih

/-- What scopes keep has keys of its own. -/
theorem persists_keyedApart (B : Build) : Persists B Memo.KeyedApart where
  empty := fun _ hc => nomatch hc
  merged kind t path h := (h.merged kind t path).1
  visible t path h := h.visible t path
  restrict _ h := fun c hc => h c (List.mem_filter.mp hc).1

end Memo
end Wiring
