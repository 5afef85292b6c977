import Mathlib.Data.List.Perm.Subperm
import Mathlib.Data.List.TakeWhile
import Mathlib.Logic.Relation
import Wiring.Settings.Inheritance

/-!
# Settings along a chain of files

The file that settings are read from may name another file that they are based on, and
so on.  Reading follows these links and keeps the files on the way, which is how a cycle
is noticed.  Since every file on the way is a different one, there are at most as many as
there are files, and the bound on the steps is never what stops the reading.

So reading fails exactly if the chain comes back to a file or has a file with a flaw:
one that is not there, does not hold settings or sets a limit to zero.  Otherwise every
option is what the nearest file sets it to.  None of this depends on how texts are written
that hold settings, so it is said for any reader of them.

**Results.**
* `Settings.loads_loadWith` and `Settings.Loads.unique`: reading ends, and its outcome is the only
  one that an unbounded reading has.
* `Settings.Loads.not_broken`: what can be read has a sound chain.
* `Settings.Loads.broken`: what cannot be read comes back to a file or has a flaw.
* `Settings.Loads.nearest`: options come from the nearest file that sets them.
* `Settings.load_inherits`: all of it together.
-/

namespace Wiring

/-! ## Links between files -/

namespace FileTree

variable {reader : String → Option Settings} {T : FileTree} {path next text : String}
  {s : Settings}

/-- The file at a path holds settings. -/
def Holds
    (T : FileTree)
    (reader : String → Option Settings)
    (path : String)
    (s : Settings) : Prop :=
  ∃ text, T.read? path = some text ∧ Settings.parseWith reader text = .ok s

/-- The file at the first path is based on the second path.  The name in the file may
leave out the extension, and it is meant from the directory of that file. -/
def Extends
    (T : FileTree)
    (reader : String → Option Settings)
    (path next : String) : Prop :=
  ∃ s base directory,
    T.Holds reader path s ∧
    s.base = some base ∧
    Path.parent? path = some directory ∧
    next = Path.relativeTo directory (Path.withExtension base)

/-- No settings can be had from the file at a path. -/
inductive Flawed (T : FileTree) (reader : String → Option Settings) (path : String) : Prop
  | missing
      (hread : T.read? path = none)
  | malformed
      (text : String)
      (hread : T.read? path = some text)
      (htree : reader text = none)
  | zeroDepth
      (text : String)
      (s : Settings)
      (hread : T.read? path = some text)
      (htree : reader text = some s)
      (hzero : s.resolver.bind ResolverSettings.maxDepth = some 0)
  | zeroSteps
      (text : String)
      (s : Settings)
      (hread : T.read? path = some text)
      (htree : reader text = some s)
      (hzero : s.resolver.bind ResolverSettings.maxSteps = some 0)

/-- The chain that starts at a path comes back to a file. -/
def Revisits
    (T : FileTree)
    (reader : String → Option Settings)
    (path : String) : Prop :=
  ∃ first again,
    Relation.ReflTransGen (T.Extends reader) path first ∧
    Relation.TransGen (T.Extends reader) first again ∧
    T.canonical first = T.canonical again

/-- The chain that starts at a path comes back to a file or has one with a flaw. -/
def Broken
    (T : FileTree)
    (reader : String → Option Settings)
    (path : String) : Prop :=
  T.Revisits reader path ∨
    ∃ last, Relation.ReflTransGen (T.Extends reader) path last ∧ T.Flawed reader last

/-- The settings along the chain that starts at a path, the nearest first. -/
inductive Chain (T : FileTree) (reader : String → Option Settings) :
    String → List Settings → Prop
  | last {path : String} {s : Settings} :
      T.Holds reader path s →
      s.base = none →
      T.Chain reader path [s]
  | link {path next : String} {s : Settings} {files : List Settings} :
      T.Holds reader path s →
      T.Extends reader path next →
      T.Chain reader next files →
      T.Chain reader path (s :: files)

theorem Holds.unique
    {s' : Settings}
    (hs : T.Holds reader path s)
    (hs' : T.Holds reader path s') :
    s = s' := by
  obtain ⟨text, hread, hparse⟩ := hs
  obtain ⟨text', hread', hparse'⟩ := hs'
  obtain rfl : text = text' := Option.some.inj (hread.symm.trans hread')
  exact Except.ok.inj (hparse.symm.trans hparse')

/-- A file is based on at most one other. -/
theorem Extends.unique
    {next' : String}
    (hnext : T.Extends reader path next)
    (hnext' : T.Extends reader path next') :
    next = next' := by
  obtain ⟨s, base, directory, hs, hbase, hparent, rfl⟩ := hnext
  obtain ⟨s', base', directory', hs', hbase', hparent', rfl⟩ := hnext'
  obtain rfl := hs.unique hs'
  obtain rfl : base = base' := Option.some.inj (hbase.symm.trans hbase')
  obtain rfl : directory = directory' := Option.some.inj (hparent.symm.trans hparent')
  rfl

theorem Extends.parent?_ne_none
    (hnext : T.Extends reader path next) :
    Path.parent? path ≠ none := by
  obtain ⟨s, base, directory, -, -, hparent, -⟩ := hnext
  simp [hparent]

theorem Holds.not_extends
    (hs : T.Holds reader path s)
    (hbase : s.base = none) :
    ¬ T.Extends reader path next := by
  rintro ⟨s', base, directory, hs', hbase', -, -⟩
  obtain rfl := hs.unique hs'
  exact Option.some_ne_none base (hbase'.symm.trans hbase)

theorem Holds.not_flawed
    (hs : T.Holds reader path s) :
    ¬ T.Flawed reader path := by
  obtain ⟨text, hread, hparse⟩ := hs
  intro hflaw
  cases hflaw with
  | missing hread' => simp [hread] at hread'
  | malformed text' hread' htree =>
      obtain rfl : text = text' := Option.some.inj (hread.symm.trans hread')
      simp [Settings.parseWith, htree] at hparse
  | zeroDepth text' s' hread' htree hzero =>
      obtain rfl : text = text' := Option.some.inj (hread.symm.trans hread')
      simp [Settings.parseWith, htree, hzero] at hparse
  | zeroSteps text' s' hread' htree hzero =>
      obtain rfl : text = text' := Option.some.inj (hread.symm.trans hread')
      simp only [Settings.parseWith, htree, hzero, if_true] at hparse
      split at hparse <;> cases hparse

/-- A text that does not hold settings is a flaw. -/
theorem flawed_of_parse
    {e : SettingsError}
    (hread : T.read? path = some text)
    (hparse : Settings.parseWith reader text = .error e) :
    T.Flawed reader path := by
  unfold Settings.parseWith at hparse
  split at hparse
  · exact .malformed text hread ‹_›
  · split at hparse
    · exact .zeroDepth text _ hread ‹_› ‹_›
    · split at hparse
      · exact .zeroSteps text _ hread ‹_› ‹_›
      · cases hparse

theorem Flawed.broken
    (hflaw : T.Flawed reader path) :
    T.Broken reader path :=
  Or.inr ⟨path, .refl, hflaw⟩

/-- A chain is broken if the rest of it is. -/
theorem Broken.of_extends
    (hnext : T.Extends reader path next)
    (hbroken : T.Broken reader next) :
    T.Broken reader path := by
  obtain ⟨first, again, hfirst, hagain, hsame⟩ | ⟨last, hlast, hflaw⟩ := hbroken
  · exact Or.inl ⟨first, again, .head hnext hfirst, hagain, hsame⟩
  · exact Or.inr ⟨last, .head hnext hlast, hflaw⟩

/-! ## Files and their paths -/

/-- The canonical paths of all files. -/
def canonicalPaths (T : FileTree) : List String :=
  T.files.map (fun f => String.ofList (Path.join ([] :: f.1)))

/-- A text that is read is the text of a file, which has the canonical path of what was
read. -/
theorem exists_of_read?
    (hread : T.read? path = some text) :
    ∃ here,
      T.find? path = some here ∧
      (here, text) ∈ T.files := by
  unfold read? at hread
  split at hread
  · cases hread
  · obtain ⟨here, hfind, hlookup⟩ := Option.bind_eq_some_iff.mp hread
    obtain ⟨before, after, hfiles, -⟩ := List.lookup_eq_some_iff.mp hlookup
    exact ⟨here, hfind, by simp [hfiles]⟩

theorem canonical_mem_of_read?
    (hread : T.read? path = some text) :
    T.canonical path ∈ T.canonicalPaths := by
  obtain ⟨here, hfind, hmem⟩ := exists_of_read? hread
  simp only [canonical, hfind]
  exact List.mem_map.mpr ⟨_, hmem, rfl⟩

/-- Idle segments lead nowhere. -/
theorem follow_of_isIdle
    {here there : List (List Char)}
    {steps : List (List Char)}
    (hidle : ∀ step ∈ steps, Path.isIdle step = true)
    (hfollow : T.follow here steps = some there) :
    there = here := by
  induction steps with
  | nil => exact (Option.some.inj hfollow).symm
  | cons step steps ih =>
      simp only [follow, hidle step List.mem_cons_self, if_true] at hfollow
      split at hfollow
      · cases hfollow
      · exact ih (fun step' hstep' => hidle step' (List.mem_cons_of_mem _ hstep')) hfollow

end FileTree

namespace Path

theorem eq_nil_of_trimEnd_cons
    {first : List Char}
    {rest : List (List Char)}
    (htrim : trimEnd (first :: rest) = []) :
    first = [] := by
  by_contra hfirst
  cases hdrop : dropIdle rest <;> simp [trimEnd, hdrop, hfirst] at htrim

theorem isIdle_of_trimEnd
    {segments : List (List Char)}
    (htrim : trimEnd segments = []) :
    ∀ segment ∈ segments, isIdle segment = true := by
  cases segments with
  | nil => exact fun _ hmem => nomatch hmem
  | cons first rest =>
      cases hdrop : dropIdle rest with
      | nil =>
          have hrest : ∀ segment ∈ rest, isIdle segment = true := by
            rw [dropIdle, List.reverse_eq_nil_iff, List.dropWhile_eq_nil_iff] at hdrop
            exact fun segment hmem => hdrop segment (List.mem_reverse.mpr hmem)
          exact List.forall_mem_cons.mpr ⟨by simp [eq_nil_of_trimEnd_cons htrim, isIdle], hrest⟩
      | cons s ss => simp [trimEnd, hdrop] at htrim

/-- Only the root and the empty path have no directory above them. -/
theorem trimEnd_of_parent?
    {path : String}
    (hparent : parent? path = none) :
    trimEnd (split path.toList) = [] := by
  unfold parent? at hparent
  split at hparent
  · assumption
  · split at hparent <;> cases hparent

/-- The first segment of a path that does not start with a slash starts as the path does. -/
theorem exists_split_cons
    {c : Char}
    (hc : c ≠ '/')
    (cs : List Char) :
    ∃ first rest, split (c :: cs) = (c :: first) :: rest := by
  rw [split, if_neg hc]
  cases split cs with
  | nil => exact ⟨[], [], rfl⟩
  | cons s ss => exact ⟨s, ss, rfl⟩

/-- A path that is idle all through starts with a slash, if with anything. -/
theorem isAbsolute_of_trimEnd
    {path : String}
    (hempty : path.isEmpty = false)
    (htrim : trimEnd (split path.toList) = []) :
    isAbsolute path = true := by
  cases hpath : path.toList with
  | nil =>
      rw [String.toList_eq_nil_iff.mp hpath] at hempty
      cases hempty
  | cons c cs =>
      by_cases hc : c = '/'
      · simp [isAbsolute, hpath, hc]
      · obtain ⟨first, rest, hsplit⟩ := exists_split_cons hc cs
        rw [hpath, hsplit] at htrim
        exact nomatch eq_nil_of_trimEnd_cons htrim

end Path

/-- A file that is not at the root has a directory. -/
theorem FileTree.parent?_of_read?
    {T : FileTree}
    {path text : String}
    (hroot : ∀ f ∈ T.files, f.1 ≠ [])
    (hread : T.read? path = some text) :
    Path.parent? path ≠ none := by
  intro hparent
  obtain ⟨here, hfind, hmem⟩ := exists_of_read? hread
  have htrim := Path.trimEnd_of_parent? hparent
  unfold find? at hfind
  split at hfind
  · cases hfind
  · rename_i hempty
    rw [start, if_pos (Path.isAbsolute_of_trimEnd (by simpa using hempty) htrim)] at hfind
    split at hfind
    · rename_i there hfollow
      have hthere := follow_of_isIdle (Path.isIdle_of_trimEnd htrim) hfollow
      split at hfind
      · cases hfind
        exact hroot _ hmem hthere
      · cases hfind
    · cases hfind

namespace Settings

/-! ## Options along a chain -/

/-- An option counts from the settings below where those on top do not set it. -/
def Inherited
    {α : Type}
    (option : ResolverSettings → Option α) : Prop :=
  ∀ r r' : ResolverSettings, option (r.basedOn r') = (option r).or (option r')

/-- The value of an option in the first settings that set it. -/
def firstSet
    {α : Type}
    (files : List Settings)
    (option : ResolverSettings → Option α) : Option α :=
  files.findSome? (fun s => s.resolver.bind option)

/-- Every option as the first settings that set it have it, or else its default. -/
def optionsAlong (files : List Settings) : Options :=
  let defaults : Options := {}
  { maxDepth := (firstSet files ResolverSettings.maxDepth).getD defaults.maxDepth
    maxSteps := (firstSet files ResolverSettings.maxSteps).getD defaults.maxSteps
    mergeStars := (firstSet files ResolverSettings.mergeStars).getD defaults.mergeStars
    emptyCollections :=
      (firstSet files ResolverSettings.emptyCollections).getD defaults.emptyCollections
    allowOverrides :=
      (firstSet files ResolverSettings.allowOverrides).getD defaults.allowOverrides }

/-- Settings have every option from the nearest of several. -/
def Nearest
    (files : List Settings)
    (s : Settings) : Prop :=
  ∀ {α : Type} (option : ResolverSettings → Option α),
    Inherited option → s.resolver.bind option = firstSet files option

theorem firstSet_cons
    {α : Type}
    (s : Settings)
    (files : List Settings)
    (option : ResolverSettings → Option α) :
    firstSet (s :: files) option =
      (s.resolver.bind option).or (firstSet files option) := by
  unfold firstSet
  rw [List.findSome?_cons]
  cases s.resolver.bind option <;> rfl

theorem nearest_singleton
    (s : Settings) :
    Nearest [s] s := by
  intro α option hinherited
  simp [firstSet]

/-- Either section may be absent on either side. -/
theorem Inherited.basedOn
    {α : Type}
    {option : ResolverSettings → Option α}
    (hinherited : Inherited option)
    (s base : Settings) :
    (s.basedOn base).resolver.bind option =
      (s.resolver.bind option).or (base.resolver.bind option) := by
  unfold Settings.basedOn
  cases hs : s.resolver with
  | none => simp
  | some r =>
      cases hbase : base.resolver with
      | none => simp
      | some r' => simpa using hinherited r r'

theorem Nearest.basedOn
    {files : List Settings}
    {base : Settings}
    (hbase : Nearest files base)
    (s : Settings) :
    Nearest (s :: files) (s.basedOn base) := by
  intro α option hinherited
  rw [hinherited.basedOn, hbase option hinherited, firstSet_cons]

theorem Nearest.options_eq
    {files : List Settings}
    {s : Settings}
    (hs : Nearest files s) :
    s.options = optionsAlong files := by
  have hdepth := hs ResolverSettings.maxDepth (fun _ _ => rfl)
  have hsteps := hs ResolverSettings.maxSteps (fun _ _ => rfl)
  have hmerge := hs ResolverSettings.mergeStars (fun _ _ => rfl)
  have hempty := hs ResolverSettings.emptyCollections (fun _ _ => rfl)
  have hoverrides := hs ResolverSettings.allowOverrides (fun _ _ => rfl)
  simp only [optionsAlong, ← hdepth, ← hsteps, ← hmerge, ← hempty, ← hoverrides]
  unfold options
  cases s.resolver <;> rfl

/-! ## Reading without a bound -/

/-- What comes of reading settings and what they are based on, past the files in
`visited`.  There is no bound on the files: that there is an outcome says that reading
ends. -/
inductive Loads (reader : String → Option Settings) (T : FileTree) :
    (visited : List String) → (path : String) → Except SettingsError Settings → Prop
  | cyclic {visited : List String} {path : String} :
      T.canonical path ∈ visited →
      Loads reader T visited path (.error (.cyclic (T.canonical path)))
  | unreadable {visited : List String} {path : String} :
      T.canonical path ∉ visited →
      T.read? path = none →
      Loads reader T visited path (.error (.unreadable path))
  | malformed {visited : List String} {path text : String} {e : SettingsError} :
      T.canonical path ∉ visited →
      T.read? path = some text →
      parseWith reader text = .error e →
      Loads reader T visited path (.error (.malformedFile path))
  | single {visited : List String} {path : String} {s : Settings} :
      T.canonical path ∉ visited →
      T.Holds reader path s →
      s.base = none →
      Loads reader T visited path (.ok s)
  | noParent {visited : List String} {path base : String} {s : Settings} :
      T.canonical path ∉ visited →
      T.Holds reader path s →
      s.base = some base →
      Path.parent? path = none →
      Loads reader T visited path (.error .noParent)
  | based {visited : List String} {path next : String} {s : Settings}
      {outcome : Except SettingsError Settings} :
      T.canonical path ∉ visited →
      T.Holds reader path s →
      T.Extends reader path next →
      Loads reader T (T.canonical path :: visited) next outcome →
      Loads reader T visited path (outcome.map (fun b => s.basedOn b))

section Reading

variable {reader : String → Option Settings} {T : FileTree} {visited : List String}
  {path : String}

/-- Different files on the way leave room for one more as long as there is one that is
not on the way. -/
theorem length_lt_of_notMem
    (hnodup : visited.Nodup)
    (hsub : visited ⊆ T.canonicalPaths)
    (hnew : T.canonical path ∉ visited)
    (hpath : T.canonical path ∈ T.canonicalPaths) :
    visited.length < T.files.length := by
  have hnodup' : (T.canonical path :: visited).Nodup := List.nodup_cons.mpr ⟨hnew, hnodup⟩
  have hsub' : T.canonical path :: visited ⊆ T.canonicalPaths :=
    List.cons_subset.mpr ⟨hpath, hsub⟩
  have hle := (hnodup'.subperm hsub').length_le
  rwa [FileTree.canonicalPaths, List.length_map] at hle

/-- As long as the steps and the files on the way add up to all files, the bound is not
what stops the reading. -/
theorem loads_loadWithin
    (steps : Nat)
    (hnodup : visited.Nodup)
    (hsub : visited ⊆ T.canonicalPaths)
    (hsteps : steps + visited.length = T.files.length) :
    Loads reader T visited path (loadWithin reader T steps visited path) := by
  fun_induction loadWithin reader T steps visited path with
  | case1 steps visited path canonical hmem => exact .cyclic hmem
  | case2 steps visited path canonical hnew hread => exact .unreadable hnew hread
  | case3 steps visited path canonical hnew text hread e hparse =>
      exact .malformed hnew hread hparse
  | case4 steps visited path canonical hnew text hread s hparse hbase =>
      exact .single hnew ⟨text, hread, hparse⟩ hbase
  | case5 steps visited path canonical hnew text hread s hparse base hbase hparent =>
      exact .noParent hnew ⟨text, hread, hparse⟩ hbase hparent
  | case6 visited path canonical hnew text hread s hparse base hbase directory hparent =>
      -- No steps are left, so all files are on the way, and this one is not.
      have hlt := length_lt_of_notMem hnodup hsub hnew (FileTree.canonical_mem_of_read? hread)
      omega
  | case7 visited path canonical hnew text hread s hparse base hbase directory steps hparent
      ih =>
      have hcanonical := FileTree.canonical_mem_of_read? hread
      have hnext : T.Extends reader path (Path.relativeTo directory (Path.withExtension base)) :=
        ⟨s, base, directory, ⟨text, hread, hparse⟩, hbase, hparent, rfl⟩
      refine .based hnew ⟨text, hread, hparse⟩ hnext (ih ?_ ?_ ?_)
      · exact List.nodup_cons.mpr ⟨hnew, hnodup⟩
      · exact List.cons_subset.mpr ⟨hcanonical, hsub⟩
      · rw [List.length_cons]
        omega

/-- Reading ends, and the bound on the steps does not show. -/
theorem loads_loadWith
    (reader : String → Option Settings)
    (T : FileTree)
    (path : String) :
    Loads reader T [] path (loadWith reader T path) :=
  loads_loadWithin T.files.length List.nodup_nil (List.nil_subset _) rfl

/-- What comes of a new file that holds settings depends on what they are based on. -/
theorem Loads.of_holds
    {s : Settings}
    {outcome : Except SettingsError Settings}
    (hnew : T.canonical path ∉ visited)
    (hs : T.Holds reader path s)
    (hload : Loads reader T visited path outcome) :
    (s.base = none ∧ outcome = .ok s)
      ∨ (s.base ≠ none ∧ Path.parent? path = none ∧ outcome = .error .noParent)
      ∨ ∃ next below,
        T.Extends reader path next
          ∧ Loads reader T (T.canonical path :: visited) next below
          ∧ outcome = below.map (fun b => s.basedOn b) := by
  cases hload with
  | cyclic hmem => exact absurd hmem hnew
  | unreadable _ hread => exact absurd (.missing hread) hs.not_flawed
  | malformed _ hread hparse =>
      exact absurd (FileTree.flawed_of_parse hread hparse) hs.not_flawed
  | single _ hs' hbase =>
      obtain rfl := hs.unique hs'
      exact .inl ⟨hbase, rfl⟩
  | noParent _ hs' hbase hparent =>
      obtain rfl := hs.unique hs'
      exact .inr (.inl ⟨by simp [hbase], hparent, rfl⟩)
  | based _ hs' hnext hload' =>
      obtain rfl := hs.unique hs'
      exact .inr (.inr ⟨_, _, hnext, hload', rfl⟩)

/-- An unbounded reading has one outcome only. -/
theorem Loads.unique
    {outcome outcome' : Except SettingsError Settings}
    (hload : Loads reader T visited path outcome)
    (hload' : Loads reader T visited path outcome') :
    outcome = outcome' := by
  induction hload generalizing outcome' with
  | cyclic hmem =>
      cases hload' with
      | cyclic => rfl
      | _ => contradiction
  | unreadable hnew hread =>
      cases hload' with
      | cyclic => contradiction
      | unreadable => rfl
      | malformed _ hread' => exact nomatch hread.symm.trans hread'
      | single _ hs | noParent _ hs | based _ hs => exact absurd (.missing hread) hs.not_flawed
  | malformed hnew hread hparse =>
      cases hload' with
      | cyclic => contradiction
      | unreadable _ hread' => exact nomatch hread.symm.trans hread'
      | malformed => rfl
      | single _ hs | noParent _ hs | based _ hs =>
          exact absurd (FileTree.flawed_of_parse hread hparse) hs.not_flawed
  | single hnew hs hbase =>
      obtain ⟨-, rfl⟩ | ⟨hbase', -⟩ | ⟨next, below, hnext, -⟩ := hload'.of_holds hnew hs
      · rfl
      · exact absurd hbase hbase'
      · exact absurd hnext (hs.not_extends hbase)
  | noParent hnew hs hbase hparent =>
      obtain ⟨hbase', -⟩ | ⟨-, -, rfl⟩ | ⟨next, below, hnext, -⟩ := hload'.of_holds hnew hs
      · exact nomatch hbase.symm.trans hbase'
      · rfl
      · exact absurd hparent hnext.parent?_ne_none
  | based hnew hs hnext hload ih =>
      obtain ⟨hbase, -⟩ | ⟨-, hparent, -⟩ | ⟨next', below, hnext', hload'', rfl⟩ :=
        hload'.of_holds hnew hs
      · exact absurd hnext (hs.not_extends hbase)
      · exact absurd hparent hnext.parent?_ne_none
      · obtain rfl := hnext.unique hnext'
        rw [ih hload'']

/-! ## Success -/

/-- What can be read is new and holds settings. -/
theorem Loads.holds
    {s : Settings}
    (hload : Loads reader T visited path (.ok s)) :
    T.canonical path ∉ visited ∧ ∃ s', T.Holds reader path s' := by
  generalize houtcome : (.ok s : Except SettingsError Settings) = outcome at hload
  cases hload with
  | cyclic | unreadable | malformed | noParent => cases houtcome
  | single hnew hs => exact ⟨hnew, _, hs⟩
  | based hnew hs => exact ⟨hnew, _, hs⟩

/-- What settings can be read on top of can be read. -/
theorem Loads.next
    {s : Settings}
    {next : String}
    (hload : Loads reader T visited path (.ok s))
    (hnext : T.Extends reader path next) :
    ∃ s', Loads reader T (T.canonical path :: visited) next (.ok s') := by
  obtain ⟨hnew, s', hs⟩ := hload.holds
  obtain ⟨hbase, -⟩ | ⟨-, -, houtcome⟩ | ⟨next', below, hnext', hload', houtcome⟩ :=
    hload.of_holds hnew hs
  · exact absurd hnext (hs.not_extends hbase)
  · cases houtcome
  · obtain rfl := hnext.unique hnext'
    cases below with
    | error e => cases houtcome
    | ok b => exact ⟨b, hload'⟩

/-- All along its chain, what can be read can be read past more and more files. -/
theorem Loads.reach
    {s : Settings}
    {last : String}
    (hload : Loads reader T visited path (.ok s))
    (hlast : Relation.ReflTransGen (T.Extends reader) path last) :
    ∃ visited' s', visited ⊆ visited' ∧ Loads reader T visited' last (.ok s') := by
  induction hlast with
  | refl => exact ⟨visited, s, List.Subset.refl _, hload⟩
  | tail _ hnext ih =>
      obtain ⟨visited', s', hsub, hload'⟩ := ih
      obtain ⟨s'', hload''⟩ := hload'.next hnext
      exact ⟨_, s'', List.subset_cons_of_subset _ hsub, hload''⟩

/-- The chain of what can be read is sound. -/
theorem Loads.not_broken
    {s : Settings}
    (hload : Loads reader T visited path (.ok s)) :
    ¬ T.Broken reader path := by
  rintro (⟨first, again, hfirst, hagain, hsame⟩ | ⟨last, hlast, hflaw⟩)
  · obtain ⟨visited', s', -, hload'⟩ := hload.reach hfirst
    obtain ⟨next, hnext, hrest⟩ := Relation.TransGen.head'_iff.mp hagain
    obtain ⟨s'', hload''⟩ := hload'.next hnext
    obtain ⟨visited'', s''', hsub, hload'''⟩ := hload''.reach hrest
    exact hload'''.holds.1 (hsub (hsame ▸ List.mem_cons_self))
  · obtain ⟨visited', s', -, hload'⟩ := hload.reach hlast
    obtain ⟨-, s'', hs''⟩ := hload'.holds
    exact hs''.not_flawed hflaw

/-- What is read has every option from the nearest file of the chain that sets it. -/
theorem Loads.nearest
    {s : Settings}
    (hload : Loads reader T visited path (.ok s)) :
    ∃ files, T.Chain reader path files ∧ Nearest files s := by
  generalize houtcome : (.ok s : Except SettingsError Settings) = outcome at hload
  induction hload generalizing s with
  | cyclic | unreadable | malformed | noParent => cases houtcome
  | @single _ _ s' hnew hs hbase =>
      obtain rfl : s = s' := Except.ok.inj houtcome
      exact ⟨[s], .last hs hbase, nearest_singleton s⟩
  | @based _ _ _ s' outcome hnew hs hnext hload ih =>
      cases outcome with
      | error e => cases houtcome
      | ok b =>
          obtain rfl : s = s'.basedOn b := Except.ok.inj houtcome
          obtain ⟨files, hchain, hnearest⟩ := ih rfl
          exact ⟨s' :: files, .link hs hnext hchain, hnearest.basedOn s'⟩

/-! ## Failure -/

/-- What cannot be read has a broken chain, or one that comes to a file on the way. -/
theorem Loads.broken
    {e : SettingsError}
    (hroot : ∀ f ∈ T.files, f.1 ≠ [])
    (hload : Loads reader T visited path (.error e)) :
    T.Broken reader path ∨
      ∃ last,
        Relation.ReflTransGen (T.Extends reader) path last ∧
        T.canonical last ∈ visited := by
  generalize houtcome : (.error e : Except SettingsError Settings) = outcome at hload
  induction hload generalizing e with
  | @cyclic _ path hmem => exact Or.inr ⟨path, .refl, hmem⟩
  | unreadable hnew hread => exact Or.inl (FileTree.Flawed.missing hread).broken
  | malformed hnew hread hparse =>
      exact Or.inl (FileTree.flawed_of_parse hread hparse).broken
  | single => cases houtcome
  | noParent hnew hs hbase hparent =>
      obtain ⟨text, hread, -⟩ := hs
      exact absurd hparent (FileTree.parent?_of_read? hroot hread)
  | @based visited path next s outcome hnew hs hnext hload ih =>
      cases outcome with
      | ok b => cases houtcome
      | error e' =>
          obtain hbroken | ⟨last, hlast, hmem⟩ := ih rfl
          · exact Or.inl (hbroken.of_extends hnext)
          · cases List.mem_cons.mp hmem with
            | inl hsame =>
                -- The chain is back at the file that it was followed from.
                exact Or.inl (Or.inl ⟨path, last, .refl, .head' hnext hlast, hsame.symm⟩)
            | inr hmem => exact Or.inr ⟨last, .head hnext hlast, hmem⟩

end Reading

/-! ## Inheritance -/

/-- Reading the settings at a path ends, also without a bound, and with the same outcome.  It
fails if the chain of files is broken, and otherwise every option comes from the nearest file
that sets it, or is the default if none does. -/
structure Inherits
    (reader : String → Option Settings)
    (T : FileTree)
    (path : String) : Prop where
  ends : ∀ outcome, Loads reader T [] path outcome ↔ outcome = loadWith reader T path
  fails : T.Broken reader path → ∃ e, loadWith reader T path = .error e
  nearest : ¬ T.Broken reader path → ∃ files s,
    T.Chain reader path files ∧
    loadWith reader T path = .ok s ∧
    s.options = optionsAlong files

/-- **Nearest settings win.**  This holds for every reader, that of JSON among them, and for
all files, none of which is at the root: that is a directory. -/
theorem load_inherits
    (reader : String → Option Settings)
    (T : FileTree)
    (hroot : ∀ f ∈ T.files, f.1 ≠ [])
    (path : String) :
    Inherits reader T path := by
  have hload := loads_loadWith reader T path
  refine ⟨fun outcome => ⟨fun h => h.unique hload, fun h => h ▸ hload⟩, ?_, ?_⟩
  · intro hbroken
    cases houtcome : loadWith reader T path with
    | error e => exact ⟨e, rfl⟩
    | ok s => exact absurd hbroken (houtcome ▸ hload).not_broken
  · intro hsound
    cases houtcome : loadWith reader T path with
    | error e =>
        rw [houtcome] at hload
        obtain hbroken | ⟨last, -, hmem⟩ := hload.broken hroot
        · exact absurd hbroken hsound
        · exact absurd hmem List.not_mem_nil
    | ok s =>
        rw [houtcome] at hload
        obtain ⟨files, hchain, hnearest⟩ := hload.nearest
        exact ⟨files, s, hchain, rfl, hnearest.options_eq⟩

/-- Settings that are based on others in the same directory. -/
def sharedBase : FileTree :=
  FileTree.ofFiles "project"
    [("givens.json",
        "\x7b\"extends\": \"./base\", \"resolver\": \x7b\"maxResolutionDepth\": 80\x7d\x7d"),
      ("base.json",
        "\x7b\"resolver\": \x7b\"maxResolutionDepth\": 40, \"allowOverrides\": false\x7d\x7d")]

theorem sharedBase_load_inherits :
    (∀ f ∈ sharedBase.files, f.1 ≠ []) ∧
      Inherits ofText? sharedBase "/project/givens.json" ∧
      (load sharedBase "/project/givens.json").toOption.map options =
        some { maxDepth := 80, allowOverrides := false } :=
  have hroot : ∀ f ∈ sharedBase.files, f.1 ≠ [] := by decide +kernel
  ⟨hroot, load_inherits ofText? sharedBase hroot "/project/givens.json", by decide +kernel⟩

end Settings
end Wiring
