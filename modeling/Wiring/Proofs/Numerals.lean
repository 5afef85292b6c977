/-!
# Numbers as text

A number is written with decimal digits only, and two numbers are never written alike.  So
where a number stands in front of something else, it ends at the first character that is not a
digit.

**Results.**
* `Numeral.append_inj`: a number in front of something that does not start with a digit can be
  told from it.
-/

namespace Wiring
namespace Numeral

variable {m n : Nat} {c : Char} {s t : List Char}

theorem toList_eq (n : Nat) : (toString n).toList = Nat.toDigits 10 n := by
  rw [Nat.toString_eq_ofList_toDigits, String.toList_ofList]

theorem isDigit_of_mem
    (hc : c ∈ (toString n).toList) :
    c.isDigit = true := by
  rw [toList_eq] at hc
  exact Nat.isDigit_of_mem_toDigits (show 0 < 10 by decide) (show 10 ≤ 10 by decide) hc

theorem notMem
    (hc : c.isDigit = false)
    (n : Nat) :
    c ∉ (toString n).toList := by
  intro hmem
  rw [isDigit_of_mem hmem] at hc
  cases hc

theorem toList_inj
    (h : (toString m).toList = (toString n).toList) :
    m = n := by
  rw [toList_eq, toList_eq] at h
  rw [← @Nat.ofDigitChars_ten_toDigits m, h, Nat.ofDigitChars_ten_toDigits]

/-- What is left when digits are taken from the front. -/
theorem dropWhile_append
    (hs : ∀ c ∈ s.head?, c.isDigit = false)
    (n : Nat) :
    ((toString n).toList ++ s).dropWhile Char.isDigit = s := by
  rw [List.dropWhile_append_of_pos (fun _ hc => isDigit_of_mem hc)]
  cases s with
  | nil => rfl
  | cons c cs => simp [hs c rfl]

/-- Two numbers that are followed by something else than a digit are written alike only if they
are equal, and what follows is. -/
theorem append_inj
    (hs : ∀ c ∈ s.head?, c.isDigit = false)
    (ht : ∀ c ∈ t.head?, c.isDigit = false)
    (h : (toString m).toList ++ s = (toString n).toList ++ t) :
    m = n ∧ s = t := by
  have hst : s = t := by
    rw [← dropWhile_append hs m, h, dropWhile_append ht n]
  subst hst
  exact ⟨toList_inj (List.append_cancel_right h), rfl⟩

end Numeral
end Wiring
