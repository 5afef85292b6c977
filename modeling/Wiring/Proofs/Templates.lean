import Mathlib.Tactic.Linarith
import Mathlib.Tactic.Ring
import Wiring.Proofs.Numerals
import Wiring.ResolutionError

/-!
# Filled templates

Each argument replaces the placeholders of its number in the text obtained so far, so also
those that were not in the template: an argument that was inserted before may contain one, or
complete one together with what it stands next to.

A placeholder starts with the only opening brace that it has, so occurrences of one never
overlap.  Where a text has more of them than the template, the step of their number replaces
too much, and the outcome is another one, unless the argument is the placeholder itself.

**Results.**
* `Message.Replaces.replaceFrom_eq_iff`: all occurrences are replaced by a step that is known
  to replace some of them exactly if there are no others, or nothing changes.
* `Message.replaces_insert`: with one argument more, what is inserted verbatim differs by the
  placeholders of the template only.
* `Message.Untouched.fill_eq`: arguments are inserted verbatim if none makes a placeholder of a
  later number.
* `Message.fill_verbatim_iff`: for every number of first arguments together, that is exact.
-/

namespace Wiring
namespace Message

/-! ## Replacements -/

/-- The number of places where a pattern occurs in a text. -/
def occurrences (pattern : List Char) : List Char → Nat
  | [] => 0
  | c :: cs => occurrences pattern cs + if pattern.isPrefixOf (c :: cs) then 1 else 0

/-- Whether a text is another one with a number of occurrences of a pattern replaced. -/
inductive Replaces (pattern replacement : List Char) : Nat → List Char → List Char → Prop
  | nil : Replaces pattern replacement 0 [] []
  | keep (c : Char) {count : Nat} {text text' : List Char} :
      Replaces pattern replacement count text text' →
      Replaces pattern replacement count (c :: text) (c :: text')
  | replace {count : Nat} {text text' : List Char} :
      Replaces pattern replacement count text text' →
      Replaces pattern replacement (count + 1) (pattern ++ text) (replacement ++ text')

section Replacements

variable {first : Char} {others pattern replacement word text text' : List Char}
  {count count' : Nat}

theorem occurrences_cons_of_unmatched
    {c : Char}
    (h : ¬ pattern <+: c :: text) :
    occurrences pattern (c :: text) = occurrences pattern text := by
  rw [← List.isPrefixOf_iff_prefix] at h
  simp [occurrences, h]

/-- A pattern does not occur where its first character does not. -/
theorem occurrences_append
    (hword : first ∉ word)
    (text : List Char) :
    occurrences (first :: others) (word ++ text) = occurrences (first :: others) text := by
  induction word with
  | nil => rfl
  | cons c cs ih =>
      obtain ⟨hc, hcs⟩ := List.ne_and_not_mem_of_not_mem_cons hword
      have hnot : ¬ first :: others <+: c :: (cs ++ text) :=
        fun hprefix => hc (List.cons_prefix_cons.mp hprefix).1
      rw [List.cons_append, occurrences_cons_of_unmatched hnot, ih hcs]

theorem occurrences_pattern_append
    (hfirst : first ∉ others)
    (text : List Char) :
    occurrences (first :: others) (first :: others ++ text)
      = occurrences (first :: others) text + 1 := by
  rw [List.cons_append, occurrences, occurrences_append hfirst]
  simp

/-- Characters that are passed over are given up. -/
theorem replaceFrom_skip
    (pattern replacement : List Char)
    (skip : Nat)
    (text : List Char) :
    replaceFrom pattern replacement skip text
      = replaceFrom pattern replacement 0 (text.drop skip) := by
  induction text generalizing skip with
  | nil => cases skip <;> rfl
  | cons c cs ih =>
      cases skip with
      | zero => rfl
      | succ skip => exact ih skip

theorem replaceFrom_pattern_append
    (first : Char)
    (others replacement text : List Char) :
    replaceFrom (first :: others) replacement 0 (first :: others ++ text)
      = replacement ++ replaceFrom (first :: others) replacement 0 text := by
  rw [List.cons_append, replaceFrom, if_pos (by simp), replaceFrom_skip]
  simp

theorem replaceFrom_cons_of_unmatched
    {c : Char}
    (h : ¬ pattern <+: c :: text) :
    replaceFrom pattern replacement 0 (c :: text)
      = c :: replaceFrom pattern replacement 0 text := by
  rw [← List.isPrefixOf_iff_prefix] at h
  rw [replaceFrom, if_neg h]

namespace Replaces

theorem append_left
    (word : List Char)
    (h : Replaces pattern replacement count text text') :
    Replaces pattern replacement count (word ++ text) (word ++ text') := by
  induction word with
  | nil => exact h
  | cons c cs ih => exact ih.keep c

theorem length_eq
    (h : Replaces pattern replacement count text text') :
    text'.length + count * pattern.length = text.length + count * replacement.length := by
  induction h with
  | nil => simp
  | keep c _ ih =>
      simp only [List.length_cons]
      omega
  | replace _ ih =>
      simp only [List.length_append, Nat.add_mul, Nat.one_mul]
      omega

/-- The first character is kept, or the pattern stands there and is replaced. -/
theorem cons_cases
    {c : Char}
    (h : Replaces (first :: others) replacement count (c :: text) text') :
    (∃ rest, text' = c :: rest ∧ Replaces (first :: others) replacement count text rest)
      ∨ ∃ fewer tail rest, c :: text = first :: others ++ tail ∧ text' = replacement ++ rest
        ∧ count = fewer + 1 ∧ Replaces (first :: others) replacement fewer tail rest := by
  generalize hwhole : c :: text = whole at h
  cases h with
  | nil => cases hwhole
  | keep d h =>
      cases hwhole
      exact .inl ⟨_, rfl, h⟩
  | replace h => exact .inr ⟨_, _, _, rfl, rfl, rfl, h⟩

/-- Nothing is replaced that starts within a word without the pattern's first character. -/
theorem of_append
    (hword : first ∉ word)
    (h : Replaces (first :: others) replacement count (word ++ text) text') :
    ∃ rest, text' = word ++ rest ∧ Replaces (first :: others) replacement count text rest := by
  induction word generalizing text' with
  | nil => exact ⟨text', rfl, h⟩
  | cons c cs ih =>
      obtain ⟨hc, hcs⟩ := List.ne_and_not_mem_of_not_mem_cons hword
      rcases h.cons_cases with ⟨rest, rfl, hkept⟩ | ⟨_, tail, _, hwhole, -⟩
      · obtain ⟨rest, rfl, hrest⟩ := ih hcs hkept
        exact ⟨rest, rfl, hrest⟩
      · exact absurd (List.cons.inj hwhole).1.symm hc

/-- What replaces a pattern by itself changes nothing. -/
theorem eq_self
    (h : Replaces pattern pattern count text text') :
    text' = text := by
  induction h with
  | nil => rfl
  | keep c _ ih => rw [ih]
  | replace _ ih => rw [ih]

theorem le_occurrences
    (hfirst : first ∉ others)
    (h : Replaces (first :: others) replacement count text text') :
    count ≤ occurrences (first :: others) text := by
  induction h with
  | nil => exact Nat.zero_le _
  | keep c _ ih =>
      rw [occurrences]
      omega
  | replace _ ih =>
      rw [occurrences_pattern_append hfirst]
      omega

/-- If the pattern and its replacement have one length but differ, it shows where something was
replaced. -/
theorem count_unique_of_length_eq
    (hfirst : first ∉ others)
    (hne : first :: others ≠ replacement)
    (hlength : (first :: others).length = replacement.length)
    (h : Replaces (first :: others) replacement count text text')
    (h' : Replaces (first :: others) replacement count' text text') :
    count = count' := by
  -- where one keeps the pattern and the other one replaces it, the texts differ
  have hdiffer : ∀ {n : Nat} {s t t' : List Char},
      Replaces (first :: others) replacement n (others ++ s) t →
      first :: t ≠ replacement ++ t' := by
    intro n s t t' hkeep heq
    obtain ⟨rest, rfl, -⟩ := hkeep.of_append hfirst
    have hsplit : first :: others ++ rest = replacement ++ t' := heq
    exact hne (List.append_inj hsplit hlength).1
  induction h generalizing count' with
  | nil => exact (Nat.le_zero.mp (h'.le_occurrences hfirst)).symm
  | @keep c n s t h ih =>
      rcases h'.cons_cases with ⟨rest, hrest, h'⟩ | ⟨_, tail, rest, hwhole, houtcome, rfl, h'⟩
      · obtain rfl := (List.cons.inj hrest).2
        exact ih h'
      · obtain ⟨rfl, rfl⟩ := List.cons.inj hwhole
        exact absurd houtcome (hdiffer h)
  | @replace n s t h ih =>
      rcases h'.cons_cases with ⟨rest, hrest, h'⟩ | ⟨_, tail, rest, hwhole, houtcome, rfl, h'⟩
      · exact absurd hrest.symm (hdiffer h')
      · have hsplit : first :: others ++ s = first :: others ++ tail := hwhole
        obtain rfl := List.append_cancel_left hsplit
        obtain rfl := List.append_cancel_left houtcome
        rw [ih h']

/-- If the pattern and its replacement differ, the outcome shows how much was replaced. -/
theorem count_unique
    (hfirst : first ∉ others)
    (hne : first :: others ≠ replacement)
    (h : Replaces (first :: others) replacement count text text')
    (h' : Replaces (first :: others) replacement count' text text') :
    count = count' := by
  by_cases hlength : (first :: others).length = replacement.length
  · exact h.count_unique_of_length_eq hfirst hne hlength h'
  · -- each replacement changes the length by the same amount
    have heq := h.length_eq
    have heq' := h'.length_eq
    generalize (first :: others).length = a at *
    generalize replacement.length = b at *
    rcases Nat.lt_or_gt_of_ne hlength with hlt | hlt
    · obtain ⟨d, rfl⟩ := Nat.exists_eq_add_of_lt hlt
      have hmul : count * (d + 1) = count' * (d + 1) := by
        linarith
      exact Nat.eq_of_mul_eq_mul_right (Nat.succ_pos d) hmul
    · obtain ⟨d, rfl⟩ := Nat.exists_eq_add_of_lt hlt
      have hmul : count * (d + 1) = count' * (d + 1) := by
        linarith
      exact Nat.eq_of_mul_eq_mul_right (Nat.succ_pos d) hmul

end Replaces

/-- A step replaces all occurrences. -/
theorem replaces_replaceFrom
    (hfirst : first ∉ others)
    (replacement text : List Char) :
    Replaces (first :: others) replacement (occurrences (first :: others) text) text
      (replaceFrom (first :: others) replacement 0 text) := by
  induction hlength : text.length using Nat.strong_induction_on generalizing text with
  | _ n ih =>
      cases text with
      | nil => exact .nil
      | cons c cs =>
          by_cases hprefix : first :: others <+: c :: cs
          · obtain ⟨rest, hrest⟩ := hprefix
            rw [← hrest] at hlength ⊢
            rw [replaceFrom_pattern_append, occurrences_pattern_append hfirst]
            refine .replace (ih rest.length ?_ rest rfl)
            simp only [List.length_append, List.length_cons] at hlength
            omega
          · rw [replaceFrom_cons_of_unmatched hprefix, occurrences_cons_of_unmatched hprefix]
            refine .keep c (ih cs.length ?_ cs rfl)
            simp only [List.length_cons] at hlength
            omega

/-- Where as many are replaced as there are, a step has the same outcome. -/
theorem Replaces.replaceFrom_eq
    (hfirst : first ∉ others)
    (h : Replaces (first :: others) replacement count text text')
    (hall : occurrences (first :: others) text = count) :
    replaceFrom (first :: others) replacement 0 text = text' := by
  induction h with
  | nil => rfl
  | @keep c n s t h ih =>
      have hnot : ¬ first :: others <+: c :: s := by
        intro hprefix
        have hle := h.le_occurrences hfirst
        rw [occurrences, if_pos (List.isPrefixOf_iff_prefix.mpr hprefix)] at hall
        omega
      rw [occurrences_cons_of_unmatched hnot] at hall
      rw [replaceFrom_cons_of_unmatched hnot, ih hall]
  | replace _ ih =>
      rw [occurrences_pattern_append hfirst] at hall
      rw [replaceFrom_pattern_append, ih (Nat.succ.inj hall)]

/-- All occurrences are replaced by a step that is known to replace some of them exactly if
there are no others, or nothing changes. -/
theorem Replaces.replaceFrom_eq_iff
    (hfirst : first ∉ others)
    (h : Replaces (first :: others) replacement count text text') :
    replaceFrom (first :: others) replacement 0 text = text'
      ↔ replacement = first :: others ∨ occurrences (first :: others) text = count := by
  have hall := replaces_replaceFrom hfirst replacement text
  constructor
  · intro heq
    by_cases hne : first :: others = replacement
    · exact .inl hne.symm
    · rw [heq] at hall
      exact .inr (hall.count_unique hfirst hne h)
  · rintro (rfl | hcount)
    · rw [hall.eq_self, h.eq_self]
    · exact h.replaceFrom_eq hfirst hcount

end Replacements

/-! ## Placeholders -/

section Placeholders

variable {i k : Nat} {text text' : List Char}

theorem placeholder_eq (i : Nat) :
    placeholder i = '\x7b' :: ((toString i).toList ++ ['\x7d']) := rfl

/-- A placeholder has no opening brace but the first. -/
theorem notMem_placeholder (i : Nat) : '\x7b' ∉ (toString i).toList ++ ['\x7d'] := by
  intro hmem
  rcases List.mem_append.mp hmem with hdigit | hbrace
  · exact Numeral.notMem (by decide) i hdigit
  · exact absurd (List.mem_singleton.mp hbrace) (by decide)

/-- A text starts with one placeholder at most. -/
theorem placeholder_append_inj
    (h : placeholder i ++ text = placeholder k ++ text') :
    i = k ∧ text = text' := by
  simp only [placeholder_eq, List.cons_append, List.append_assoc, List.nil_append,
    List.cons.injEq, true_and] at h
  have hbrace : ∀ {rest : List Char}, ∀ c ∈ ('\x7d' :: rest).head?, c.isDigit = false := by
    intro rest c hc
    cases hc
    rfl
  obtain ⟨hnumber, hrest⟩ := Numeral.append_inj hbrace hbrace h
  exact ⟨hnumber, (List.cons.inj hrest).2⟩

/-- The placeholder of another number holds none of this number. -/
theorem occurrences_placeholder_append
    (hne : i ≠ k)
    (text : List Char) :
    occurrences (placeholder k) (placeholder i ++ text) = occurrences (placeholder k) text := by
  have hnot : ¬ placeholder k <+: placeholder i ++ text := by
    rintro ⟨rest, hrest⟩
    exact hne (placeholder_append_inj hrest).1.symm
  rw [placeholder_eq i, List.cons_append] at hnot ⊢
  rw [occurrences_cons_of_unmatched hnot]
  exact occurrences_append (notMem_placeholder i) text

end Placeholders

/-! ## Verbatim insertion -/

/-- Insert arguments into a template in one go, after `skip` more characters are passed over:
every placeholder of the template is replaced by the argument of its number, if there is one,
and what is inserted is not looked at. -/
def insertFrom (arguments : List String) : Nat → List Char → List Char
  | _, [] => []
  | skip + 1, _ :: cs => insertFrom arguments skip cs
  | 0, c :: cs =>
      match arguments.zipIdx.find? (fun a => (placeholder a.2).isPrefixOf (c :: cs)) with
      | some (argument, index) =>
          argument.toList ++ insertFrom arguments ((placeholder index).length - 1) cs
      | none => c :: insertFrom arguments 0 cs

/-- A template with arguments inserted as they are. -/
def verbatim (template : String) (arguments : List String) : String :=
  String.ofList (insertFrom arguments 0 template.toList)

section Insertion

variable {arguments : List String} {i : Nat} {word text : List Char}

theorem insertFrom_skip
    (arguments : List String)
    (skip : Nat)
    (text : List Char) :
    insertFrom arguments skip text = insertFrom arguments 0 (text.drop skip) := by
  induction text generalizing skip with
  | nil => cases skip <;> rfl
  | cons c cs ih =>
      cases skip with
      | zero => rfl
      | succ skip => exact ih skip

theorem insertFrom_nil (text : List Char) : insertFrom [] 0 text = text := by
  induction text with
  | nil => rfl
  | cons c cs ih => simp [insertFrom, ih]

theorem insertFrom_placeholder
    (hi : i < arguments.length)
    (text : List Char) :
    insertFrom arguments 0 (placeholder i ++ text)
      = arguments[i].toList ++ insertFrom arguments 0 text := by
  have hfind : arguments.zipIdx.find?
      (fun a => (placeholder a.2).isPrefixOf (placeholder i ++ text))
        = some (arguments[i], i) := by
    cases hfound : arguments.zipIdx.find?
        (fun a => (placeholder a.2).isPrefixOf (placeholder i ++ text)) with
    | none =>
        have hmem : (arguments[i], i) ∈ arguments.zipIdx := by
          simp [List.mk_mem_zipIdx_iff_getElem?]
        have hnot := List.find?_eq_none.mp hfound _ hmem
        simp at hnot
    | some found =>
        obtain ⟨argument, index⟩ := found
        have hprefix := List.find?_some hfound
        obtain ⟨rest, hrest⟩ := List.isPrefixOf_iff_prefix.mp hprefix
        obtain rfl := (placeholder_append_inj hrest).1
        have hmem := List.mk_mem_zipIdx_iff_getElem?.mp (List.mem_of_find?_eq_some hfound)
        obtain ⟨-, rfl⟩ := List.getElem?_eq_some_iff.mp hmem
        rfl
  rw [placeholder_eq, List.cons_append] at hfind ⊢
  rw [insertFrom, hfind]
  dsimp only
  rw [insertFrom_skip, placeholder_eq]
  simp

theorem insertFrom_cons
    {c : Char}
    (hnot : ∀ i < arguments.length, ¬ placeholder i <+: c :: text) :
    insertFrom arguments 0 (c :: text) = c :: insertFrom arguments 0 text := by
  have hnone : arguments.zipIdx.find?
      (fun a => (placeholder a.2).isPrefixOf (c :: text)) = none := by
    refine List.find?_eq_none.mpr fun ⟨argument, index⟩ hmem hprefix => ?_
    have hargument := List.mk_mem_zipIdx_iff_getElem?.mp hmem
    obtain ⟨hindex, -⟩ := List.getElem?_eq_some_iff.mp hargument
    exact hnot index hindex (List.isPrefixOf_iff_prefix.mp hprefix)
  rw [insertFrom, hnone]

/-- Nothing is inserted where there is no opening brace. -/
theorem insertFrom_append
    (hword : '\x7b' ∉ word)
    (text : List Char) :
    insertFrom arguments 0 (word ++ text) = word ++ insertFrom arguments 0 text := by
  induction word with
  | nil => rfl
  | cons c cs ih =>
      obtain ⟨hc, hcs⟩ := List.ne_and_not_mem_of_not_mem_cons hword
      rw [List.cons_append, insertFrom_cons, ih hcs, List.cons_append]
      intro i _ hprefix
      exact hc (List.cons_prefix_cons.mp hprefix).1

/-- With one argument more, the placeholders of its number in the template are replaced, and
nothing else. -/
theorem replaces_insert
    (arguments : List String)
    (argument : String)
    (text : List Char) :
    Replaces (placeholder arguments.length) argument.toList
      (occurrences (placeholder arguments.length) text)
      (insertFrom arguments 0 text)
      (insertFrom (arguments ++ [argument]) 0 text) := by
  induction hlength : text.length using Nat.strong_induction_on generalizing text with
  | _ n ih =>
      by_cases hplaceholder : ∃ i ≤ arguments.length, placeholder i <+: text
      · obtain ⟨i, hi, rest, rfl⟩ := hplaceholder
        have hrest := ih rest.length (by
          rw [← hlength, placeholder_eq]
          simp
          omega) rest rfl
        have hmore : i < (arguments ++ [argument]).length := by
          rw [List.length_append, List.length_singleton]
          omega
        rw [insertFrom_placeholder hmore]
        rcases Nat.lt_or_eq_of_le hi with hlt | rfl
        · -- a placeholder that was filled before
          rw [insertFrom_placeholder hlt, List.getElem_append_left hlt,
            occurrences_placeholder_append (Nat.ne_of_lt hlt)]
          exact hrest.append_left _
        · -- the placeholder of the new argument, which was kept before
          have hkept : insertFrom arguments 0 (placeholder arguments.length ++ rest)
              = placeholder arguments.length ++ insertFrom arguments 0 rest := by
            rw [placeholder_eq, List.cons_append, insertFrom_cons,
              insertFrom_append (notMem_placeholder _)]
            · rfl
            · rintro i hi ⟨rest', hrest'⟩
              exact absurd (placeholder_append_inj hrest').1 (Nat.ne_of_lt hi)
          have hone : occurrences (placeholder arguments.length)
              (placeholder arguments.length ++ rest)
                = occurrences (placeholder arguments.length) rest + 1 :=
            occurrences_pattern_append (notMem_placeholder _) rest
          rw [hkept, hone, List.getElem_concat_length rfl]
          exact hrest.replace
      · have hnot : ∀ i ≤ arguments.length, ¬ placeholder i <+: text :=
          fun i hi hprefix => hplaceholder ⟨i, hi, hprefix⟩
        cases text with
        | nil => exact .nil
        | cons c cs =>
            rw [insertFrom_cons (fun i hi => hnot i (Nat.le_of_lt hi)), insertFrom_cons,
              occurrences_cons_of_unmatched (hnot _ (Nat.le_refl _))]
            · refine .keep c (ih cs.length ?_ cs rfl)
              rw [← hlength, List.length_cons]
              omega
            · intro i hi
              rw [List.length_append, List.length_singleton] at hi
              exact hnot i (by omega)

theorem fillFrom_append
    (arguments : List String)
    (argument : String)
    (index : Nat)
    (text : List Char) :
    fillFrom text index (arguments ++ [argument])
      = replaceFrom (placeholder (index + arguments.length)) argument.toList 0
          (fillFrom text index arguments) := by
  induction arguments generalizing text index with
  | nil => rfl
  | cons a arguments ih =>
      rw [List.cons_append, fillFrom, ih, fillFrom, List.length_cons, Nat.add_right_comm,
        Nat.add_assoc]

/-- One more argument is inserted verbatim exactly if it is its own placeholder, or there is
no more of its placeholders than in the template. -/
theorem fillFrom_append_eq_iff
    (argument : String)
    (hbefore : fillFrom text 0 arguments = insertFrom arguments 0 text) :
    fillFrom text 0 (arguments ++ [argument]) = insertFrom (arguments ++ [argument]) 0 text
      ↔ argument.toList = placeholder arguments.length
        ∨ occurrences (placeholder arguments.length) (insertFrom arguments 0 text)
          = occurrences (placeholder arguments.length) text := by
  rw [fillFrom_append, hbefore, Nat.zero_add]
  exact (replaces_insert arguments argument text).replaceFrom_eq_iff (notMem_placeholder _)

end Insertion

/-- Whether inserting arguments verbatim, one after the other, never makes a placeholder of the
next number that is not in the template, unless the next argument is that placeholder. -/
def Untouched (template : String) (arguments : List String) : Prop :=
  ∀ k (hk : k < arguments.length),
    arguments[k].toList = placeholder k
      ∨ occurrences (placeholder k) (verbatim template (arguments.take k)).toList
        = occurrences (placeholder k) template.toList

instance (template : String) (arguments : List String) :
    Decidable (Untouched template arguments) :=
  inferInstanceAs (Decidable (∀ k (hk : k < arguments.length),
    arguments[k].toList = placeholder k
      ∨ occurrences (placeholder k) (verbatim template (arguments.take k)).toList
        = occurrences (placeholder k) template.toList))

section Filling

variable {template : String} {arguments : List String}

/-- The step of the next argument inserts it verbatim exactly if it leaves all other text
untouched. -/
theorem fill_take_succ_iff
    {k : Nat}
    (hk : k < arguments.length)
    (hbefore : fill template (arguments.take k) = verbatim template (arguments.take k)) :
    fill template (arguments.take (k + 1)) = verbatim template (arguments.take (k + 1))
      ↔ arguments[k].toList = placeholder k
        ∨ occurrences (placeholder k) (verbatim template (arguments.take k)).toList
          = occurrences (placeholder k) template.toList := by
  have hlength : (arguments.take k).length = k :=
    List.length_take_of_le (Nat.le_of_lt hk)
  have hiff := fillFrom_append_eq_iff arguments[k] (String.ofList_inj.mp hbefore)
  rw [List.take_append_getElem hk, hlength] at hiff
  simpa only [fill, verbatim, String.toList_ofList, String.ofList_inj] using hiff

theorem Untouched.fill_take
    (h : Untouched template arguments)
    {k : Nat}
    (hk : k ≤ arguments.length) :
    fill template (arguments.take k) = verbatim template (arguments.take k) := by
  induction k with
  | zero => simp [verbatim, insertFrom_nil]
  | succ k ih => exact (fill_take_succ_iff hk (ih (Nat.le_of_lt hk))).mpr (h k hk)

/-- Where no step touches other text, a filled template has all its arguments verbatim. -/
theorem Untouched.fill_eq
    (h : Untouched template arguments) :
    fill template arguments = verbatim template arguments := by
  have hall := h.fill_take (Nat.le_refl _)
  rwa [List.take_length] at hall

end Filling

/-- Arguments are inserted verbatim, one after the other, exactly if none of them makes a
placeholder of a later number.  This is exact for the first arguments of every number
together: of all arguments alone it is not, since a later step can undo what another one did
to the text. -/
theorem fill_verbatim_iff
    (template : String)
    (arguments : List String) :
    (∀ k ≤ arguments.length,
        fill template (arguments.take k) = verbatim template (arguments.take k))
      ↔ Untouched template arguments := by
  refine ⟨fun hall k hk => ?_, fun h k hk => h.fill_take hk⟩
  exact (fill_take_succ_iff hk (hall k (Nat.le_of_lt hk))).mp (hall (k + 1) hk)

/-- The second argument is inserted into the first, and the third one restores it. -/
example :
    fill "\x7b0\x7d" ["\x7b1\x7d", "\x7b2\x7d", "\x7b1\x7d"]
        = verbatim "\x7b0\x7d" ["\x7b1\x7d", "\x7b2\x7d", "\x7b1\x7d"]
      ∧ ¬ Untouched "\x7b0\x7d" ["\x7b1\x7d", "\x7b2\x7d", "\x7b1\x7d"] := by
  decide +kernel

/-! ## A key with a placeholder -/

/-- Two entries of a map under a key whose text is a placeholder. -/
def bracedKey : ResolutionError :=
  .duplicate (.mapOf (.of ⟨17⟩) (.of ⟨16⟩)) (.key ⟨.of ⟨17⟩, "\x7b1\x7d"⟩) "App"
    ⟨"app.first"⟩ ⟨"app.second"⟩

/-- The name of the scope is inserted into the key. -/
theorem bracedKey_not_verbatim :
    find? bracedKey.code
        = some ⟨1004, .error, "Already declared \x7b0\x7d in '\x7b1\x7d'."⟩
      ∧ bracedKey.messageArguments .plain
        = ["key '\x7b1\x7d' of #5<#17, #16>", "App"]
      ∧ bracedKey.message .plain = "Already declared key 'App' of #5<#17, #16> in 'App'."
      ∧ verbatim "Already declared \x7b0\x7d in '\x7b1\x7d'."
          (bracedKey.messageArguments .plain)
        = "Already declared key '\x7b1\x7d' of #5<#17, #16> in 'App'."
      ∧ ¬ ∀ template arguments, fill template arguments = verbatim template arguments := by
  refine ⟨?_, ?_, ?_, ?_, fun hall => ?_⟩
  · decide +kernel
  · decide +kernel
  · decide +kernel
  · decide +kernel
  · have hfill := hall "Already declared \x7b0\x7d in '\x7b1\x7d'."
      (bracedKey.messageArguments .plain)
    exact absurd hfill (by decide +kernel)

end Message
end Wiring
