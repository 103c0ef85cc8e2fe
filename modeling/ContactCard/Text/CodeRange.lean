/-!
# Ranges of code points

Classes of characters are given as sorted lists of closed ranges of code points.

Main statement: `exists_of_inRanges`, a code point of a class lies in one of its ranges.
-/

namespace ContactCard.Text

/-- Whether `n` lies in one of the ranges. The ranges are sorted, so the search stops at the first
one that begins after `n`. -/
def inRanges (n : Nat) : List (Nat × Nat) → Bool
  | [] => false
  | (first, last) :: rest =>
    if n < first then false else if n ≤ last then true else inRanges n rest

theorem exists_of_inRanges {n : Nat} {ranges : List (Nat × Nat)} (h : inRanges n ranges = true) :
    ∃ r ∈ ranges, r.1 ≤ n ∧ n ≤ r.2 := by
  induction ranges with
  | nil => exact absurd h (by simp [inRanges])
  | cons r rest ih =>
    rw [inRanges] at h
    by_cases hfirst : n < r.1
    · rw [if_pos hfirst] at h
      exact absurd h (by decide)
    · by_cases hlast : n ≤ r.2
      · exact ⟨r, by simp, by omega, hlast⟩
      · rw [if_neg hfirst, if_neg hlast] at h
        obtain ⟨r', hmem, hr'⟩ := ih h
        exact ⟨r', by simp [hmem], hr'⟩

/-- What is said of all characters of a list is decided one character after the other, and not by
going through all characters that there are. -/
instance decidableForallMem (p : Char → Prop) [DecidablePred p] (cs : List Char) :
    Decidable (∀ c ∈ cs, p c) := List.decidableBAll p cs

end ContactCard.Text
