import Wiring.Proofs.Numerals
import Wiring.Ty.Format

/-!
# Reading types back from their plain texts

In plain texts all classifiers and qualifiers are numbers, so a text has a character for every
decision that was made when it was written, except that an opening bracket may start a nullable
arrow or the parameters of one that is not.  The text behind the bracket starts with a type in
both cases, an arrow or the first parameter, and what follows that type tells the cases apart.

The induction is on the length of a text that starts with two types, each followed by something
that cannot belong to a type.

**Results.**
* `Ty.letters_application` and `Ty.letters_arrow`: the characters of a type by its shape.
* `Ty.listed_inj` and `Ty.arrowLetters_ne`: lists and arrows are read back if the shorter texts
  are, and a nullable arrow is told from another one.
* `Ty.format_plain_eq_iff`: types without unusual star projections have one text only if they
  are equal.
-/

namespace Wiring
namespace Ty

mutual

/-- Whether every star-marked part of a type is the plain star projection. -/
def starsPlain : Ty → Bool
  | ⟨c, arguments, q, n, s⟩ =>
      if s then decide ((⟨c, arguments, q, n, s⟩ : Ty) = starProjection)
      else starsPlainAll arguments

/-- Whether `starsPlain` holds of all types of a list. -/
def starsPlainAll : List Ty → Bool
  | [] => true
  | t :: ts => starsPlain t && starsPlainAll ts

end

theorem starsPlainAll_iff {ts : List Ty} :
    starsPlainAll ts = true ↔ ∀ t ∈ ts, t.starsPlain = true := by
  induction ts with
  | nil => simp [starsPlainAll]
  | cons t ts ih => simp [starsPlainAll, ih]

/-! ## Texts by their characters -/

/-- The characters of the plain text of a type. -/
def letters (t : Ty) : List Char := (t.format .plain).toList

/-- The characters of qualifiers in front of a type. -/
def qualifierLetters (ids : List QualifierId) : List Char :=
  ids.flatMap (fun q => '@' :: '#' :: ((toString q.index).toList ++ [' ']))

/-- The characters of types that follow another one in a list. -/
def following (ts : List Ty) : List Char :=
  ts.flatMap (fun t => ',' :: ' ' :: t.letters)

/-- The characters of a list of types. -/
def listed : List Ty → List Char
  | [] => []
  | t :: ts => t.letters ++ following ts

/-- The characters of arguments in brackets, and of a question mark. -/
def appliedLetters (arguments : List Ty) (nullable : Bool) : List Char :=
  (if arguments.isEmpty then [] else '<' :: (listed arguments ++ ['>']))
    ++ (if nullable then ['?'] else [])

/-- The characters of an arrow that is not nullable. -/
def arrowLetters (parameters : List Ty) (returns : Ty) : List Char :=
  '(' :: (listed parameters ++ (')' :: ' ' :: '-' :: '>' :: ' ' :: returns.letters))

/-- The characters of an arrow, in brackets if it is nullable. -/
def wrappedLetters (parameters : List Ty) (returns : Ty) (nullable : Bool) : List Char :=
  if nullable then '(' :: (arrowLetters parameters returns ++ [')', '?'])
  else arrowLetters parameters returns

section Letters

variable {c : ClassifierId} {arguments parameters : List Ty} {returns t : Ty}

theorem following_cons
    (t : Ty)
    (ts : List Ty) :
    following (t :: ts) = ',' :: ' ' :: (t.letters ++ following ts) := rfl

theorem toList_classifier (c : ClassifierId) :
    (Naming.plain.classifier c).toList = '#' :: (toString c.index).toList := by
  simp only [Naming.plain, Naming.numbered, String.toList_append]
  rfl

theorem toList_qualifiers (ids : List QualifierId) :
    (String.join (ids.map (fun q => "@" ++ Naming.plain.qualifier q ++ " "))).toList
      = qualifierLetters ids := by
  rw [String.toList_join, List.flatMap_map]
  unfold qualifierLetters
  congr 1
  funext q
  simp only [Naming.plain, Naming.numbered, String.toList_append, List.append_assoc]
  rfl

theorem toList_intercalate (ts : List Ty) :
    (", ".intercalate (ts.map (format .plain))).toList = listed ts := by
  rw [String.toList_intercalate, List.map_map]
  change [',', ' '].intercalate (ts.map letters) = listed ts
  induction ts with
  | nil => rfl
  | cons t ts ih =>
      cases ts with
      | nil => simp [listed, following]
      | cons t' ts =>
          rw [List.map_cons, List.map_cons, List.intercalate_cons_cons, ← List.map_cons, ih]
          simp [listed, following]

theorem letters_star : letters starProjection = ['*'] := rfl

theorem letters_application
    (h : c.isFunction = false ∨ arguments = [])
    (q : QualifierSet)
    (n : Bool) :
    letters ⟨c, arguments, q, n, false⟩
      = qualifierLetters q.ids
        ++ '#' :: ((toString c.index).toList ++ appliedLetters arguments n) := by
  have hbody : letters ⟨c, arguments, q, n, false⟩
      = qualifierLetters q.ids ++ (writeApplication (Naming.plain.classifier c)
          (arguments.map (format .plain)) n).toList := by
    rw [← toList_qualifiers, ← String.toList_append, letters, format, formatAll_eq_map]
    rcases h with h | rfl
    · rw [h]
      rfl
    · cases c.isFunction <;> rfl
  rw [hbody, writeApplication]
  simp only [String.toList_append, toList_classifier, List.isEmpty_map]
  unfold appliedLetters
  cases arguments with
  | nil => cases n <;> simp
  | cons t ts =>
      rw [← toList_intercalate]
      cases n <;> simp [String.toList_append]

theorem letters_arrow
    (h : c.isFunction = true)
    (parameters : List Ty)
    (returns : Ty)
    (q : QualifierSet)
    (n : Bool) :
    letters ⟨c, parameters ++ [returns], q, n, false⟩
      = qualifierLetters q.ids
        ++ ((arrowWord c).toList ++ wrappedLetters parameters returns n) := by
  have hbody : letters ⟨c, parameters ++ [returns], q, n, false⟩
      = qualifierLetters q.ids ++ (writeArrow c (parameters.map (format .plain))
          (returns.format .plain) n).toList := by
    rw [← toList_qualifiers, ← String.toList_append, letters, format, formatAll_eq_map, h]
    simp
  rw [hbody, writeArrow]
  unfold wrappedLetters arrowLetters
  rw [← toList_intercalate]
  cases n <;> simp [String.toList_append, letters]

/-- A plain arrow has no other characters. -/
theorem letters_function
    (parameters : List Ty)
    (returns : Ty) :
    letters (function parameters returns) = arrowLetters parameters returns :=
  letters_arrow rfl parameters returns ∅ false

theorem arrowLetters_append
    (parameters : List Ty)
    (returns : Ty)
    (s : List Char) :
    arrowLetters parameters returns ++ s
      = '(' :: (listed parameters
          ++ (')' :: ' ' :: '-' :: '>' :: ' ' :: (returns.letters ++ s))) := by
  simp [arrowLetters]

end Letters

/-! ## Shapes -/

/-- How a type is written: as a star, with its classifier, or as an arrow. -/
inductive Shape : Ty → Prop
  | star : Shape starProjection
  | application {c : ClassifierId} {arguments : List Ty} (q : QualifierSet) (n : Bool) :
      c.isFunction = false ∨ arguments = [] →
      starsPlainAll arguments = true →
      Shape ⟨c, arguments, q, n, false⟩
  | arrow {c : ClassifierId} {parameters : List Ty} {returns : Ty} (q : QualifierSet)
      (n : Bool) :
      c.isFunction = true →
      starsPlainAll parameters = true →
      returns.starsPlain = true →
      Shape ⟨c, parameters ++ [returns], q, n, false⟩

theorem shape
    {t : Ty}
    (h : t.starsPlain = true) :
    t.Shape := by
  obtain ⟨c, arguments, q, n, s⟩ := t
  cases s with
  | true =>
      simp only [starsPlain, if_true, decide_eq_true_eq] at h
      rw [h]
      exact .star
  | false =>
      have hall : starsPlainAll arguments = true := by simpa [starsPlain] using h
      cases hc : c.isFunction with
      | false => exact .application q n (.inl hc) hall
      | true =>
          rcases List.eq_nil_or_concat arguments with rfl | ⟨parameters, returns, hconcat⟩
          · exact .application q n (.inr rfl) hall
          · rw [List.concat_eq_append] at hconcat
            subst hconcat
            rw [starsPlainAll_iff] at hall
            refine .arrow q n hc (starsPlainAll_iff.mpr fun t ht => hall t ?_) (hall _ ?_)
            · exact List.mem_append_left _ ht
            · exact List.mem_append_right _ (List.mem_singleton_self _)

theorem isFunction_cases
    {c : ClassifierId}
    (h : c.isFunction = true) :
    c = .function ∨ c = .suspendFunction ∨ c = .composableFunction := by
  simpa [ClassifierId.isFunction, or_assoc] using h

/-- The word in front of an arrow is told by the first character, and by the second one from a
qualifier. -/
theorem arrowWord_append
    {c : ClassifierId}
    (h : c.isFunction = true)
    (x : List Char) :
    (c = .function ∧ (arrowWord c).toList ++ '(' :: x = '(' :: x)
      ∨ (c = .suspendFunction
        ∧ (arrowWord c).toList ++ '(' :: x = 's' :: ("uspend ".toList ++ '(' :: x))
      ∨ (c = .composableFunction
        ∧ (arrowWord c).toList ++ '(' :: x = '@' :: 'C' :: ("omposable ".toList ++ '(' :: x)) := by
  rcases isFunction_cases h with rfl | rfl | rfl
  · exact .inl ⟨rfl, rfl⟩
  · exact .inr (.inl ⟨rfl, rfl⟩)
  · exact .inr (.inr ⟨rfl, rfl⟩)

theorem wrappedLetters_append
    (parameters : List Ty)
    (returns : Ty)
    (n : Bool)
    (s : List Char) :
    ∃ x, wrappedLetters parameters returns n ++ s = '(' :: x := by
  cases n with
  | false => exact ⟨_, rfl⟩
  | true => exact ⟨_, rfl⟩

/-- A type is a star, or starts with a qualifier, a number, a word or a bracket. -/
theorem opens
    {t : Ty}
    {c : Char}
    {s rest : List Char}
    (ht : t.Shape)
    (h : t.letters ++ s = c :: rest) :
    c ∈ ['*', '@', '#', 's', '('] ∧ (c = '*' → t = starProjection) := by
  have hqualified : ∀ {ids : List QualifierId} {body : List Char},
      (∀ d x, body = d :: x → d ∈ ['@', '#', 's', '(']) →
      qualifierLetters ids ++ body = c :: rest →
      c ∈ ['@', '#', 's', '('] := by
    intro ids body hbody hwhole
    cases ids with
    | nil => exact hbody _ _ hwhole
    | cons q ids =>
        rw [← (List.cons.inj hwhole).1]
        decide
  have hother : c ∈ ['@', '#', 's', '('] →
      c ∈ ['*', '@', '#', 's', '('] ∧ (c = '*' → t = starProjection) := by
    intro hc
    refine ⟨List.mem_cons_of_mem _ hc, ?_⟩
    rintro rfl
    exact absurd hc (by decide)
  cases ht with
  | star =>
      rw [← (List.cons.inj h).1]
      exact ⟨by decide, fun _ => rfl⟩
  | application q n hd _ =>
      rw [letters_application hd, List.append_assoc] at h
      refine hother (hqualified (fun d x hbody => ?_) h)
      rw [← (List.cons.inj hbody).1]
      decide
  | @arrow d ps r q n hd _ _ =>
      rw [letters_arrow hd, List.append_assoc, List.append_assoc] at h
      refine hother (hqualified (fun e x hbody => ?_) h)
      obtain ⟨y, hy⟩ := wrappedLetters_append ps r n s
      rw [hy] at hbody
      rcases arrowWord_append hd y with ⟨-, heq⟩ | ⟨-, heq⟩ | ⟨-, heq⟩
      all_goals
        rw [heq] at hbody
        rw [← (List.cons.inj hbody).1]
        decide

/-! ## Where a type ends -/

/-- Whether a text can only stand behind a finished type. -/
def Ends (s : List Char) : Prop := ∀ c ∈ s.head?, c = ',' ∨ c = '>' ∨ c = ')'

/-- Whether a text closes a bracket. -/
def Closes (s : List Char) : Prop := ∃ rest, s = '>' :: rest ∨ s = ')' :: rest

theorem Closes.ends
    {s : List Char}
    (h : Closes s) :
    Ends s := by
  obtain ⟨rest, rfl | rfl⟩ := h
  · intro c hc
    cases hc
    exact .inr (.inl rfl)
  · intro c hc
    cases hc
    exact .inr (.inr rfl)

theorem Ends.not_isDigit
    {s : List Char}
    (h : Ends s) :
    ∀ c ∈ s.head?, c.isDigit = false := by
  intro c hc
  rcases h c hc with rfl | rfl | rfl <;> rfl

theorem Ends.ne_cons
    {c : Char}
    {rest s : List Char}
    (h : Ends s)
    (hc : c ≠ ',' ∧ c ≠ '>' ∧ c ≠ ')') :
    s ≠ c :: rest := by
  rintro rfl
  rcases h c rfl with heq | heq | heq
  · exact hc.1 heq
  · exact hc.2.1 heq
  · exact hc.2.2 heq

/-- A list is over, or goes on behind a comma. -/
theorem ends_following
    {s : List Char}
    (hs : Ends s)
    (ts : List Ty) :
    Ends (following ts ++ s) := by
  cases ts with
  | nil => exact hs
  | cons t ts =>
      intro c hc
      cases hc
      exact .inl rfl

/-! ## Qualifiers -/

/-- Whether a text does not go on with a qualifier. -/
def Unqualified (s : List Char) : Prop := ∀ rest, s ≠ '@' :: '#' :: rest

/-- Qualifiers are told from each other and from what they stand in front of. -/
theorem qualifierLetters_inj
    {ids ids' : List QualifierId}
    {s t : List Char}
    (hs : Unqualified s)
    (ht : Unqualified t)
    (h : qualifierLetters ids ++ s = qualifierLetters ids' ++ t) :
    ids = ids' ∧ s = t := by
  have hspace : ∀ {rest : List Char}, ∀ c ∈ (' ' :: rest).head?, c.isDigit = false := by
    intro rest c hc
    cases hc
    rfl
  induction ids generalizing ids' with
  | nil =>
      cases ids' with
      | nil => exact ⟨rfl, h⟩
      | cons q' ids' => exact absurd h (hs _)
  | cons q ids ih =>
      cases ids' with
      | nil => exact absurd h.symm (ht _)
      | cons q' ids' =>
          simp only [qualifierLetters, List.flatMap_cons, List.cons_append, List.append_assoc,
            List.nil_append, List.cons.injEq, true_and] at h
          obtain ⟨hindex, hrest⟩ := Numeral.append_inj hspace hspace h
          obtain ⟨hids, hst⟩ := ih (List.cons.inj hrest).2
          exact ⟨by rw [QualifierId.ext hindex, hids], hst⟩

/-! ## Reading a text -/

/-- Whether texts of less than a length are read in one way only. -/
def ReadsBelow (length : Nat) : Prop :=
  ∀ ⦃a b : Ty⦄ ⦃s t : List Char⦄, a.starsPlain = true → b.starsPlain = true → Ends s → Ends t →
    (a.letters ++ s).length < length → a.letters ++ s = b.letters ++ t → a = b ∧ s = t

section Reading

variable {length : Nat} {as bs ps qs : List Ty} {r r' : Ty} {s t : List Char} {n n' : Bool}

theorem following_inj
    (hreads : ReadsBelow length)
    (has : starsPlainAll as = true)
    (hbs : starsPlainAll bs = true)
    (hs : Closes s)
    (ht : Closes t)
    (hlength : (following as ++ s).length ≤ length)
    (h : following as ++ s = following bs ++ t) :
    as = bs ∧ s = t := by
  induction as generalizing bs with
  | nil =>
      cases bs with
      | nil => exact ⟨rfl, h⟩
      | cons b bs =>
          obtain ⟨rest, rfl | rfl⟩ := hs <;> exact nomatch h
  | cons a as ih =>
      cases bs with
      | nil => obtain ⟨rest, rfl | rfl⟩ := ht <;> exact nomatch h
      | cons b bs =>
          simp only [starsPlainAll, Bool.and_eq_true] at has hbs
          simp only [following_cons, List.cons_append, List.append_assoc, List.cons.injEq,
            true_and, List.length_cons] at h hlength
          obtain ⟨rfl, hrest⟩ := hreads has.1 hbs.1 (ends_following hs.ends as)
            (ends_following ht.ends bs) (by omega) h
          rw [List.length_append] at hlength
          obtain ⟨rfl, hst⟩ := ih has.2 hbs.2 (by omega) hrest
          exact ⟨rfl, hst⟩

/-- No type starts with a closing bracket. -/
theorem letters_ne_of_closes
    {a : Ty}
    (ha : a.starsPlain = true)
    (ht : Closes t)
    (s : List Char) :
    a.letters ++ s ≠ t := by
  obtain ⟨rest, rfl | rfl⟩ := ht
  · exact fun h => absurd (opens (shape ha) h).1 (by decide)
  · exact fun h => absurd (opens (shape ha) h).1 (by decide)

theorem listed_inj
    (hreads : ReadsBelow length)
    (has : starsPlainAll as = true)
    (hbs : starsPlainAll bs = true)
    (hs : Closes s)
    (ht : Closes t)
    (hlength : (listed as ++ s).length < length)
    (h : listed as ++ s = listed bs ++ t) :
    as = bs ∧ s = t := by
  cases as with
  | nil =>
      cases bs with
      | nil => exact ⟨rfl, h⟩
      | cons b bs =>
          simp only [starsPlainAll, Bool.and_eq_true] at hbs
          rw [listed, listed, List.append_assoc] at h
          exact absurd h.symm (letters_ne_of_closes hbs.1 hs _)
  | cons a as =>
      simp only [starsPlainAll, Bool.and_eq_true] at has
      cases bs with
      | nil =>
          rw [listed, listed, List.append_assoc] at h
          exact absurd h (letters_ne_of_closes has.1 ht _)
      | cons b bs =>
          simp only [starsPlainAll, Bool.and_eq_true] at hbs
          simp only [listed, List.append_assoc] at h hlength
          obtain ⟨rfl, hrest⟩ := hreads has.1 hbs.1 (ends_following hs.ends as)
            (ends_following ht.ends bs) hlength h
          rw [List.length_append] at hlength
          obtain ⟨rfl, hst⟩ := following_inj hreads has.2 hbs.2 hs ht (by omega) hrest
          exact ⟨rfl, hst⟩

/-- Arrows that are not nullable are read back. -/
theorem arrowLetters_inj
    (hreads : ReadsBelow length)
    (hps : starsPlainAll ps = true)
    (hqs : starsPlainAll qs = true)
    (hr : r.starsPlain = true)
    (hr' : r'.starsPlain = true)
    (hs : Ends s)
    (ht : Ends t)
    (hlength : (arrowLetters ps r ++ s).length ≤ length)
    (h : arrowLetters ps r ++ s = arrowLetters qs r' ++ t) :
    ps = qs ∧ r = r' ∧ s = t := by
  simp only [arrowLetters_append, List.cons.injEq, true_and, List.length_cons] at h hlength
  obtain ⟨rfl, hrest⟩ := listed_inj hreads hps hqs ⟨_, .inr rfl⟩ ⟨_, .inr rfl⟩ (by omega) h
  simp only [List.cons.injEq, true_and] at hrest
  simp only [List.length_append, List.length_cons] at hlength
  obtain ⟨rfl, hst⟩ := hreads hr hr' hs ht (by
    rw [List.length_append]
    omega) hrest
  exact ⟨rfl, rfl, hst⟩

/-- A nullable arrow is told from another one by what follows the arrow inside it, which the
other one would have to have as its first parameter. -/
theorem arrowLetters_ne
    (hreads : ReadsBelow length)
    (hps : starsPlainAll ps = true)
    (hqs : starsPlainAll qs = true)
    (hr : r.starsPlain = true)
    (hlength : (arrowLetters ps r ++ ')' :: '?' :: s).length < length) :
    '(' :: (arrowLetters ps r ++ ')' :: '?' :: s) ≠ arrowLetters qs r' ++ t := by
  intro h
  rw [arrowLetters_append qs] at h
  have hbehind := (List.cons.inj h).2
  cases qs with
  | nil => cases hbehind
  | cons q qs =>
      simp only [starsPlainAll, Bool.and_eq_true] at hqs
      have hfunction : (function ps r).starsPlain = true := by
        have hall : ∀ t ∈ ps ++ [r], t.starsPlain = true := by
          intro t ht
          rcases List.mem_append.mp ht with ht | ht
          · exact starsPlainAll_iff.mp hps t ht
          · rwa [List.mem_singleton.mp ht]
        simpa [function, functionOf, generic, starsPlain] using starsPlainAll_iff.mpr hall
      rw [← letters_function] at hbehind hlength
      rw [listed, List.append_assoc] at hbehind
      have hclose : ∀ rest : List Char, Closes (')' :: rest) := fun rest => ⟨rest, .inr rfl⟩
      obtain ⟨-, hrest⟩ := hreads hfunction hqs.1 (hclose _).ends
        (ends_following (hclose _).ends qs) hlength hbehind
      cases qs with
      | nil => cases hrest
      | cons => cases hrest

theorem wrappedLetters_inj
    (hreads : ReadsBelow length)
    (hps : starsPlainAll ps = true)
    (hqs : starsPlainAll qs = true)
    (hr : r.starsPlain = true)
    (hr' : r'.starsPlain = true)
    (hs : Ends s)
    (ht : Ends t)
    (hlength : (wrappedLetters ps r n ++ s).length ≤ length)
    (h : wrappedLetters ps r n ++ s = wrappedLetters qs r' n' ++ t) :
    ps = qs ∧ r = r' ∧ n = n' ∧ s = t := by
  have hnullable : ∀ (ps : List Ty) (r : Ty) (s : List Char),
      wrappedLetters ps r true ++ s = '(' :: (arrowLetters ps r ++ ')' :: '?' :: s) := by
    intro ps r s
    simp [wrappedLetters]
  have hplain : ∀ (ps : List Ty) (r : Ty), wrappedLetters ps r false = arrowLetters ps r :=
    fun _ _ => rfl
  have hclose : ∀ rest : List Char, Ends (')' :: rest) :=
    fun rest => Closes.ends ⟨rest, .inr rfl⟩
  have hlength' := hlength
  rw [h] at hlength'
  cases n with
  | false =>
      rw [hplain] at h hlength
      cases n' with
      | false =>
          rw [hplain] at h
          obtain ⟨rfl, rfl, hst⟩ := arrowLetters_inj hreads hps hqs hr hr' hs ht hlength h
          exact ⟨rfl, rfl, rfl, hst⟩
      | true =>
          rw [hnullable] at h hlength'
          rw [List.length_cons] at hlength'
          exact absurd h.symm (arrowLetters_ne hreads hqs hps hr' (by omega))
  | true =>
      rw [hnullable] at h hlength
      rw [List.length_cons] at hlength
      cases n' with
      | false =>
          rw [hplain] at h
          exact absurd h (arrowLetters_ne hreads hps hqs hr (by omega))
      | true =>
          rw [hnullable] at h
          obtain ⟨rfl, rfl, hrest⟩ := arrowLetters_inj hreads hps hqs hr hr' (hclose _) (hclose _)
            (by omega) (List.cons.inj h).2
          simp only [List.cons.injEq, true_and] at hrest
          exact ⟨rfl, rfl, rfl, hrest⟩

/-- A question mark is told from what follows a type. -/
theorem mark_inj
    (hs : Ends s)
    (ht : Ends t)
    (h : (if n then ['?'] else []) ++ s = (if n' then ['?'] else []) ++ t) :
    n = n' ∧ s = t := by
  have hmark : '?' ≠ ',' ∧ '?' ≠ '>' ∧ '?' ≠ ')' := by decide
  cases n with
  | false =>
      cases n' with
      | false => exact ⟨rfl, h⟩
      | true => exact absurd h (hs.ne_cons hmark)
  | true =>
      cases n' with
      | false => exact absurd h.symm (ht.ne_cons hmark)
      | true => exact ⟨rfl, (List.cons.inj h).2⟩

theorem appliedLetters_inj
    (hreads : ReadsBelow length)
    (has : starsPlainAll as = true)
    (hbs : starsPlainAll bs = true)
    (hs : Ends s)
    (ht : Ends t)
    (hlength : (appliedLetters as n ++ s).length < length)
    (h : appliedLetters as n ++ s = appliedLetters bs n' ++ t) :
    as = bs ∧ n = n' ∧ s = t := by
  have hnone : ∀ {n : Bool} {s : List Char}, Ends s → ∀ rest,
      (if n then ['?'] else []) ++ s ≠ '<' :: rest := by
    intro n s hs rest
    cases n with
    | false => exact hs.ne_cons (by decide)
    | true => exact fun h => nomatch h
  have happlied : ∀ (a : Ty) (as : List Ty) (n : Bool) (s : List Char),
      appliedLetters (a :: as) n ++ s
        = '<' :: (listed (a :: as) ++ '>' :: ((if n then ['?'] else []) ++ s)) := by
    intro a as n s
    simp [appliedLetters]
  cases as with
  | nil =>
      cases bs with
      | nil =>
          obtain ⟨hn, hst⟩ := mark_inj hs ht h
          exact ⟨rfl, hn, hst⟩
      | cons b bs =>
          rw [happlied] at h
          exact absurd h (hnone hs _)
  | cons a as =>
      rw [happlied] at h hlength
      cases bs with
      | nil => exact absurd h.symm (hnone ht _)
      | cons b bs =>
          rw [happlied] at h
          rw [List.length_cons] at hlength
          obtain ⟨has, hrest⟩ := listed_inj hreads has hbs ⟨_, .inl rfl⟩ ⟨_, .inl rfl⟩ (by omega)
            (List.cons.inj h).2
          obtain ⟨hn, hst⟩ := mark_inj hs ht (List.cons.inj hrest).2
          exact ⟨has, hn, hst⟩

theorem unqualified_number (x : List Char) : Unqualified ('#' :: x) := by
  intro rest h
  exact nomatch h

theorem unqualified_arrow
    {c : ClassifierId}
    (hc : c.isFunction = true)
    (x : List Char) :
    Unqualified ((arrowWord c).toList ++ '(' :: x) := by
  intro rest h
  rcases arrowWord_append hc x with ⟨-, heq⟩ | ⟨-, heq⟩ | ⟨-, heq⟩
  all_goals
    rw [heq] at h
    exact nomatch h

/-- An arrow is told from an application. -/
theorem number_ne_arrow
    {c : ClassifierId}
    (hc : c.isFunction = true)
    (x y : List Char) :
    '#' :: y ≠ (arrowWord c).toList ++ '(' :: x := by
  intro h
  rcases arrowWord_append hc x with ⟨-, heq⟩ | ⟨-, heq⟩ | ⟨-, heq⟩
  all_goals
    rw [heq] at h
    exact nomatch h

/-- The word in front of an arrow tells its classifier. -/
theorem arrowWord_inj
    {c d : ClassifierId}
    {x y : List Char}
    (hc : c.isFunction = true)
    (hd : d.isFunction = true)
    (h : (arrowWord c).toList ++ '(' :: x = (arrowWord d).toList ++ '(' :: y) :
    c = d ∧ x = y := by
  have hsame : ∀ {first : Char} {word : List Char},
      first :: (word ++ '(' :: x) = first :: (word ++ '(' :: y) → x = y := by
    intro first word heq
    exact (List.cons.inj (List.append_cancel_left (List.cons.inj heq).2)).2
  rcases arrowWord_append hc x with ⟨rfl, heq⟩ | ⟨rfl, heq⟩ | ⟨rfl, heq⟩
  · rcases arrowWord_append hd y with ⟨rfl, heq'⟩ | ⟨rfl, heq'⟩ | ⟨rfl, heq'⟩
    · exact ⟨rfl, (List.cons.inj (heq.symm.trans (h.trans heq'))).2⟩
    · exact nomatch heq.symm.trans (h.trans heq')
    · exact nomatch heq.symm.trans (h.trans heq')
  · rcases arrowWord_append hd y with ⟨rfl, heq'⟩ | ⟨rfl, heq'⟩ | ⟨rfl, heq'⟩
    · exact nomatch heq.symm.trans (h.trans heq')
    · exact ⟨rfl, hsame (heq.symm.trans (h.trans heq'))⟩
    · exact nomatch heq.symm.trans (h.trans heq')
  · rcases arrowWord_append hd y with ⟨rfl, heq'⟩ | ⟨rfl, heq'⟩ | ⟨rfl, heq'⟩
    · exact nomatch heq.symm.trans (h.trans heq')
    · exact nomatch heq.symm.trans (h.trans heq')
    · have hrest := (List.cons.inj (heq.symm.trans (h.trans heq'))).2
      exact ⟨rfl, hsame hrest⟩

/-- A number in front of arguments ends where these start. -/
theorem appliedLetters_not_isDigit
    (hs : Ends s) :
    ∀ c ∈ (appliedLetters as n ++ s).head?, c.isDigit = false := by
  intro c hc
  cases as with
  | nil =>
      cases n with
      | false => exact hs.not_isDigit c hc
      | true =>
          cases hc
          rfl
  | cons =>
      cases hc
      rfl

theorem eq_of_ids_eq
    {q q' : QualifierSet}
    (h : q.ids = q'.ids) :
    q = q' := by
  cases q
  cases q'
  cases h
  rfl

/-- An application and an arrow are never written alike. -/
theorem application_ne_arrow
    {c d : ClassifierId}
    {q q' : QualifierSet}
    (hc : c.isFunction = false ∨ as = [])
    (hd : d.isFunction = true) :
    letters ⟨c, as, q, n, false⟩ ++ s ≠ letters ⟨d, ps ++ [r], q', n', false⟩ ++ t := by
  intro h
  obtain ⟨x, hx⟩ := wrappedLetters_append ps r n' t
  rw [letters_application hc, letters_arrow hd, List.append_assoc, List.append_assoc,
    List.append_assoc, hx] at h
  obtain ⟨-, hbody⟩ := qualifierLetters_inj (unqualified_number _) (unqualified_arrow hd x) h
  exact number_ne_arrow hd x _ hbody

theorem application_inj
    {c d : ClassifierId}
    {q q' : QualifierSet}
    (hreads : ReadsBelow length)
    (hc : c.isFunction = false ∨ as = [])
    (hd : d.isFunction = false ∨ bs = [])
    (has : starsPlainAll as = true)
    (hbs : starsPlainAll bs = true)
    (hs : Ends s)
    (ht : Ends t)
    (hlength : (letters ⟨c, as, q, n, false⟩ ++ s).length ≤ length)
    (h : letters ⟨c, as, q, n, false⟩ ++ s = letters ⟨d, bs, q', n', false⟩ ++ t) :
    (⟨c, as, q, n, false⟩ : Ty) = ⟨d, bs, q', n', false⟩ ∧ s = t := by
  simp only [letters_application hc, letters_application hd, List.append_assoc,
    List.cons_append] at h hlength
  obtain ⟨hids, hbody⟩ := qualifierLetters_inj (unqualified_number _) (unqualified_number _) h
  obtain ⟨hindex, hrest⟩ := Numeral.append_inj (appliedLetters_not_isDigit hs)
    (appliedLetters_not_isDigit ht) (List.cons.inj hbody).2
  simp only [List.length_append, List.length_cons] at hlength
  obtain ⟨rfl, rfl, hst⟩ := appliedLetters_inj hreads has hbs hs ht (by
    rw [List.length_append]
    omega) hrest
  have hclassifier : c = d := by
    cases c
    cases d
    exact congrArg ClassifierId.mk hindex
  rw [hclassifier, eq_of_ids_eq hids]
  exact ⟨rfl, hst⟩

theorem arrow_inj
    {c d : ClassifierId}
    {q q' : QualifierSet}
    (hreads : ReadsBelow length)
    (hc : c.isFunction = true)
    (hd : d.isFunction = true)
    (hps : starsPlainAll ps = true)
    (hqs : starsPlainAll qs = true)
    (hr : r.starsPlain = true)
    (hr' : r'.starsPlain = true)
    (hs : Ends s)
    (ht : Ends t)
    (hlength : (letters ⟨c, ps ++ [r], q, n, false⟩ ++ s).length ≤ length)
    (h : letters ⟨c, ps ++ [r], q, n, false⟩ ++ s
      = letters ⟨d, qs ++ [r'], q', n', false⟩ ++ t) :
    (⟨c, ps ++ [r], q, n, false⟩ : Ty) = ⟨d, qs ++ [r'], q', n', false⟩ ∧ s = t := by
  obtain ⟨x, hx⟩ := wrappedLetters_append ps r n s
  obtain ⟨y, hy⟩ := wrappedLetters_append qs r' n' t
  simp only [letters_arrow hc, letters_arrow hd, List.append_assoc] at h hlength
  simp only [List.length_append] at hlength
  rw [hx, hy] at h
  obtain ⟨hids, hbody⟩ := qualifierLetters_inj (unqualified_arrow hc x) (unqualified_arrow hd y) h
  obtain ⟨rfl, rfl⟩ := arrowWord_inj hc hd hbody
  obtain ⟨rfl, rfl, rfl, hst⟩ := wrappedLetters_inj hreads hps hqs hr hr' hs ht (by
    rw [List.length_append]
    omega) (hx.trans hy.symm)
  rw [eq_of_ids_eq hids]
  exact ⟨rfl, hst⟩

/-- Texts that are longer by one character are read in one way only, too. -/
theorem ReadsBelow.step
    (hreads : ReadsBelow length) :
    ReadsBelow (length + 1) := by
  intro a b s t ha hb hs ht hlength h
  have hstarred : ∀ {c : ClassifierId} {as : List Ty} {q : QualifierSet} {n : Bool},
      (⟨c, as, q, n, false⟩ : Ty) ≠ starProjection :=
    fun heq => Bool.false_ne_true (congrArg Ty.star heq)
  have hlength' : (a.letters ++ s).length ≤ length := Nat.le_of_lt_succ hlength
  have hshape := shape ha
  have hshape' := shape hb
  cases hshape with
  | star =>
      rw [letters_star] at h
      obtain rfl := (opens hshape' h.symm).2 rfl
      exact ⟨rfl, (List.cons.inj h).2⟩
  | application q n hc has =>
      cases hshape' with
      | star => exact absurd ((opens (shape ha) h).2 rfl) hstarred
      | application q' n' hd hbs =>
          exact application_inj hreads hc hd has hbs hs ht hlength' h
      | arrow q' n' hd hqs hr' => exact absurd h (application_ne_arrow hc hd)
  | arrow q n hc hps hr =>
      cases hshape' with
      | star => exact absurd ((opens (shape ha) h).2 rfl) hstarred
      | application q' n' hd hbs => exact absurd h.symm (application_ne_arrow hd hc)
      | arrow q' n' hd hqs hr' =>
          exact arrow_inj hreads hc hd hps hqs hr hr' hs ht hlength' h

end Reading

theorem readsBelow (length : Nat) : ReadsBelow length := by
  induction length with
  | zero => exact fun _ _ _ _ _ _ _ _ hlength _ => absurd hlength (Nat.not_lt_zero _)
  | succ length ih => exact ih.step

/-- Types whose star-marked parts are plain star projections have one plain text only if they
are equal. -/
theorem format_plain_eq_iff
    {a b : Ty}
    (ha : a.starsPlain = true)
    (hb : b.starsPlain = true) :
    a.format .plain = b.format .plain ↔ a = b := by
  constructor
  · intro h
    have hends : Ends [] := fun c hc => nomatch hc
    have hletters : a.letters ++ [] = b.letters ++ [] := by
      rw [letters, h, letters]
    exact (readsBelow _ ha hb hends hends (Nat.lt_succ_self _) hletters).1
  · exact congrArg (format .plain)

/-- All other star-marked types are written like the plain star projection. -/
example : (starProjection.markedNullable).format .plain = starProjection.format .plain := rfl

/-! ## Two openings -/

/-- A function from one class to another one, or nothing. -/
def optionalMapping : Ty := (function [.of ⟨16⟩] (.of ⟨17⟩)).markedNullable

/-- A function that takes such a function. -/
def mappingUser : Ty := function [function [.of ⟨16⟩] (.of ⟨17⟩)] (.of ⟨18⟩)

/-- What follows the inner arrow tells the two apart. -/
theorem optionalMapping_format_plain_eq_iff :
    optionalMapping.starsPlain = true ∧ mappingUser.starsPlain = true
      ∧ optionalMapping.format .plain = "((#16) -> #17)?"
      ∧ mappingUser.format .plain = "((#16) -> #17) -> #18"
      ∧ (optionalMapping.format .plain = mappingUser.format .plain
        ↔ optionalMapping = mappingUser) := by
  refine ⟨rfl, rfl, ?_, ?_, format_plain_eq_iff rfl rfl⟩
  · decide +kernel
  · decide +kernel

end Ty
end Wiring
