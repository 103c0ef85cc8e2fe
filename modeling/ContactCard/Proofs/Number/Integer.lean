import ContactCard.Number.Integer
import Mathlib.Tactic.Common

/-!
# Integers written and read

A natural number is written with decimal digits, the last of which stands for what is left after
division by ten. Reading goes through the digits from the first to the last, so one more digit makes
ten times the number and that digit (`digitsFrom_concat`). Hence a number is read back from its text
(`ofText?_toString`), as long as it has no more digits than are read or written at all.
-/

namespace ContactCard.Integer

open Text

variable {c : Char} {cs : List Char} {acc n d : Nat}

/-! ### Digits -/

theorem toNat_of_isDigit (h : c.isDigit = true) : 48 ≤ c.toNat ∧ c.toNat ≤ 57 := by
  simpa [Char.isDigit, UInt32.le_iff_toNat_le] using h

theorem digitValue?_of_isDigit (h : c.isDigit = true) :
    digitValue? c = some (c.toNat - 48) := by
  rw [digitValue?, zeroDigits, List.find?_cons_of_pos (by simpa using toNat_of_isDigit h)]
  rfl

theorem digitValue?_digitChar (hd : d < 10) : digitValue? (Nat.digitChar d) = some d := by
  have hvalue : (Nat.digitChar d).toNat = 48 + d := Nat.toNat_digitChar_of_lt_ten hd
  have hdigit : (Nat.digitChar d).isDigit = true := by
    simp only [Char.isDigit, Bool.and_eq_true, decide_eq_true_eq, ge_iff_le,
      UInt32.le_iff_toNat_le]
    show 48 ≤ (Nat.digitChar d).toNat ∧ (Nat.digitChar d).toNat ≤ 57
    omega
  rw [digitValue?_of_isDigit hdigit, hvalue, Nat.add_sub_cancel_left]

theorem isPadding_of_isDigit (h : c.isDigit = true) : isPadding c = false := by
  have hbounds := toNat_of_isDigit h
  have hblank : isBlank c = false := by
    simp only [isBlank, Bool.or_eq_false_iff, Bool.and_eq_false_iff, decide_eq_false_iff_not,
      beq_eq_false_iff_ne]
    omega
  rw [isPadding, hblank, Bool.false_and]

theorem isDigit_toDigits (n : Nat) : ∀ c ∈ Nat.toDigits 10 n, c.isDigit = true :=
  fun _ hc ↦ Nat.isDigit_of_mem_toDigits (by decide) (by decide) hc

/-! ### Reading digits -/

theorem digitsFrom_cons (h : digitValue? c = some d) (cs : List Char) :
    digitsFrom acc (c :: cs) = digitsFrom (10 * acc + d) cs := by
  rw [digitsFrom.eq_def]
  simp only [h]

/-- One more digit makes ten times the number and the digit. -/
theorem digitsFrom_concat (hcs : ∀ c ∈ cs, c.isDigit = true) (h : digitsFrom acc cs = some n)
    (hd : d < 10) : digitsFrom acc (cs ++ [Nat.digitChar d]) = some (10 * n + d) := by
  induction cs generalizing acc with
  | nil =>
    obtain rfl : acc = n := Option.some.inj h
    exact digitsFrom_cons (digitValue?_digitChar hd) []
  | cons c rest ih =>
    obtain ⟨hc, hrest⟩ := List.forall_mem_cons.mp hcs
    rw [digitsFrom_cons (digitValue?_of_isDigit hc)] at h
    rw [List.cons_append, digitsFrom_cons (digitValue?_of_isDigit hc)]
    exact ih hrest h

theorem digitsFrom_toDigits (n : Nat) : digitsFrom 0 (Nat.toDigits 10 n) = some n := by
  induction n using Nat.strongRecOn with
  | ind n ih =>
    rw [Nat.toDigits_eq_if (by decide)]
    split
    · next hn =>
      rw [digitsFrom_cons (digitValue?_digitChar hn), Nat.mul_zero, Nat.zero_add]
      rfl
    · rw [digitsFrom_concat (isDigit_toDigits _) (ih (n / 10) (by omega)) (by omega),
        Nat.div_add_mod]

/-! ### Reading numbers -/

theorem natural?_of_digitsFrom (hcs : ∀ c ∈ cs, c.isDigit = true) (hne : cs ≠ [])
    (hlength : cs.length ≤ maxDigits) : natural? cs = digitsFrom 0 cs := by
  cases cs with
  | nil => exact absurd rfl hne
  | cons c rest =>
    have hc := digitValue?_of_isDigit (hcs c List.mem_cons_self)
    rw [natural?, if_pos (Nat.le_trans (List.length_filter_le _ _) hlength), hc, digitsFrom_cons hc,
      Nat.mul_zero, Nat.zero_add]
    rfl

/-- There is neither a sign nor padding around digits. -/
theorem ofChars?_of_isDigit (hcs : ∀ c ∈ cs, c.isDigit = true) :
    ofChars? cs = (natural? cs).map Int.ofNat := by
  have hdrop : ∀ ds : List Char, (∀ c ∈ ds, c.isDigit = true) → ds.dropWhile isPadding = ds := by
    intro ds hds
    cases ds with
    | nil => rfl
    | cons d ds =>
      rw [List.dropWhile_cons, isPadding_of_isDigit (hds d List.mem_cons_self)]
      rfl
  rw [ofChars?, hdrop cs hcs, hdrop _ fun c hc ↦ hcs c (List.mem_reverse.mp hc),
    List.reverse_reverse, signed?.eq_def]
  split
  · exact absurd (hcs '+' List.mem_cons_self) (by decide)
  · exact absurd (hcs '-' List.mem_cons_self) (by decide)
  · rfl

/-! ### Writing numbers -/

/-- The first number that has too many digits. -/
def firstTooLong : Nat := Nat.pow 10 maxDigits

/-- What is written is less than this number. -/
theorem isWritable_iff {i : Int} : isWritable i = true ↔ i.natAbs < firstTooLong := by
  have hlength (k : Nat) (hk : 0 < k) :
      (Nat.toDigits 10 i.natAbs).length ≤ k ↔ i.natAbs < Nat.pow 10 k :=
    Nat.length_toDigits_le_iff (by decide) hk
  unfold isWritable firstTooLong
  exact decide_eq_true_iff.trans (hlength maxDigits (by decide))

theorem isWritable_firstTooLong : isWritable firstTooLong = false := by
  rw [Bool.eq_false_iff, ne_eq, isWritable_iff, Int.natAbs_natCast]
  exact Nat.lt_irrefl _

/-- A number that is written is read back from its text. -/
theorem ofText?_toString (h : isWritable n = true) : ofText? (toString n) = some (n : Int) := by
  have hlength : (Nat.toDigits 10 n).length ≤ maxDigits := of_decide_eq_true h
  rw [Nat.toString_eq_ofList_toDigits, ofText?, String.toList_ofList,
    ofChars?_of_isDigit (isDigit_toDigits n),
    natural?_of_digitsFrom (isDigit_toDigits n) Nat.toDigits_ne_nil hlength, digitsFrom_toDigits]
  rfl

end ContactCard.Integer
