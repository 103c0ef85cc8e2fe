import ContactCard.Proofs.Base64.Spelling
import Mathlib.Algebra.Group.Nat.Defs

/-!
# The bits of base64

Lenient reading has no text that it cannot decode (`decode_bits`). The strict form of a text is made
of whole groups of digits, the last one filled up with at most two `=` (`exists_normalize_eq`), and the
strict reader takes every such text (`decodeStrict?_filledUp`). The bytes that it gives are the bits
of the digits in order, six for each, as far as they make up whole bytes (`bitsOfBytes_bytesOf`).

Between the two stand the numbers that the significant characters stand for: the strict form is
written with their digits, and the bytes are made of them group by group (`bytesOf`).
-/

namespace ContactCard.Base64

/-! ### The numbers in a text -/

/-- The characters for 0 to 63 where `+` and `/` have another meaning. -/
def urlSafeAlphabet : List Char := alphabet.take 62 ++ ['-', '_']

/-- The number that a character stands for in one of the alphabets. -/
def number? (c : Char) : Option Nat := (alphabet.idxOf? c).or (urlSafeAlphabet.idxOf? c)

/-- The numbers that a text holds before all padding. -/
def numbers (cs : List Char) : List Nat := (cs.takeWhile (· != '=')).filterMap number?

/-- How many characters of either alphabet a text holds before all padding. -/
def digitCount (cs : List Char) : Nat :=
  (cs.takeWhile (· != '=')).countP fun c ↦ c ∈ alphabet ∨ c ∈ urlSafeAlphabet

theorem exists_digit_eq {c : Char} (hc : c ∈ alphabet) : ∃ n < 64, digit n = c := by
  obtain ⟨n, hn, rfl⟩ := List.mem_iff_getElem.mp hc
  have hlength : alphabet.length = 64 := by decide +kernel
  refine ⟨n, hlength ▸ hn, ?_⟩
  rw [digit, List.getD_eq_getElem?_getD, List.getElem?_eq_getElem hn, Option.getD_some]

theorem number?_digit {n : Nat} (h : n < 64) : number? (digit n) = some n :=
  (show ∀ n < 64, number? (digit n) = some n by decide +kernel) n h

theorem number?_eq_none_iff {c : Char} :
    number? c = none ↔ ¬(c ∈ alphabet ∨ c ∈ urlSafeAlphabet) := by
  rw [number?, Option.or_eq_none_iff, List.idxOf?_eq_none_iff, List.idxOf?_eq_none_iff, not_or]

/-- Only the digits and the two characters that the URL-safe alphabet has of its own stand for
numbers. -/
theorem number?_eq (c : Char) : number? c = digitValue? (standardChar c) := by
  by_cases hhyphen : c = '-'
  · subst hhyphen
    decide +kernel
  by_cases hunderscore : c = '_'
  · subst hunderscore
    decide +kernel
  rw [standardChar, if_neg hhyphen, if_neg hunderscore]
  cases hvalue : digitValue? c with
  | some n =>
    obtain ⟨hn, rfl⟩ := digit_of_digitValue? hvalue
    exact number?_digit hn
  | none =>
    have halphabet : c ∉ alphabet := fun hc ↦ by
      obtain ⟨n, hn, rfl⟩ := exists_digit_eq hc
      exact Option.some_ne_none n ((digitValue?_digit hn).symm.trans hvalue)
    rw [number?_eq_none_iff, not_or, urlSafeAlphabet, List.mem_append, not_or]
    refine ⟨halphabet, fun hc ↦ halphabet (List.mem_of_mem_take hc), ?_⟩
    simp [hhyphen, hunderscore]

theorem lt_of_mem_numbers {cs : List Char} {n : Nat} (hn : n ∈ numbers cs) : n < 64 := by
  obtain ⟨c, -, hc⟩ := List.mem_filterMap.mp hn
  rw [number?_eq] at hc
  exact (digit_of_digitValue? hc).1

/-- The significant characters are the digits of the numbers. -/
theorem significant_eq (cs : List Char) : significant cs = (numbers cs).map digit := by
  induction cs with
  | nil => rfl
  | cons c rest ih =>
    by_cases hpad : c = '='
    · subst hpad
      rfl
    have hnumbers : numbers (c :: rest) = (number? c).elim (numbers rest) (· :: numbers rest) := by
      rw [numbers, List.takeWhile_cons, if_pos (by simpa using hpad), List.filterMap_cons]
      cases number? c <;> rfl
    rw [significant_cons hpad, hnumbers, number?_eq, ih]
    cases hvalue : digitValue? (standardChar c) with
    | none => rfl
    | some n => simp [(digit_of_digitValue? hvalue).2]

theorem length_numbers (cs : List Char) : (numbers cs).length = digitCount cs := by
  rw [numbers, List.length_filterMap_eq_countP, digitCount]
  refine List.countP_congr fun c _ ↦ ?_
  rw [decide_eq_true_iff, ← not_iff_not, ← number?_eq_none_iff]
  simp

/-! ### The bytes made of numbers -/

/-- The bytes made of numbers below 64, three of each four. What is left over at the end and makes
up no byte is dropped. -/
def bytesOf : List Nat → List UInt8
  | [] => []
  | [_] => []
  | [x, y] => [UInt8.ofNat (x * 4 + y / 16)]
  | [x, y, z] => [UInt8.ofNat (x * 4 + y / 16), UInt8.ofNat (y % 16 * 16 + z / 4)]
  | x :: y :: z :: w :: rest =>
    UInt8.ofNat (x * 4 + y / 16) :: UInt8.ofNat (y % 16 * 16 + z / 4) ::
      UInt8.ofNat (z % 4 * 64 + w) :: bytesOf rest

/-- Digits, with the last group of four filled up. -/
def filledUp (ds : List Char) : List Char :=
  ds ++ List.replicate ((4 - ds.length % 4) % 4) '='

theorem filledUp_group (a b c d : Char) (ds : List Char) :
    filledUp (a :: b :: c :: d :: ds) = a :: b :: c :: d :: filledUp ds := by
  have hmod : (a :: b :: c :: d :: ds).length % 4 = ds.length % 4 := by
    simp only [List.length_cons]
    omega
  rw [filledUp, filledUp, hmod]
  rfl

theorem length_filledUp (ds : List Char) : (filledUp ds).length % 4 = 0 := by
  rw [filledUp, List.length_append, List.length_replicate]
  omega

/-- The strict reader takes all digits that are filled up, unless a single one is left over. -/
theorem decodeStrict?_filledUp {ns : List Nat} (h : ∀ n ∈ ns, n < 64) (hlength : ns.length % 4 ≠ 1) :
    decodeStrict? (filledUp (ns.map digit)) = some (bytesOf ns) := by
  fun_induction bytesOf ns with
  | case1 => rfl
  | case2 x => exact absurd rfl hlength
  | case3 x y =>
    simp only [List.forall_mem_cons] at h
    exact decodeStrict?_pair h.1 h.2.1
  | case4 x y z =>
    simp only [List.forall_mem_cons] at h
    exact decodeStrict?_triple h.1 h.2.1 h.2.2.1
  | case5 x y z w rest ih =>
    simp only [List.forall_mem_cons] at h
    obtain ⟨hx, hy, hz, hw, hrest⟩ := h
    have hmod : rest.length % 4 ≠ 1 := by
      simp only [List.length_cons] at hlength
      omega
    simp only [List.map_cons]
    rw [filledUp_group, decodeStrict?_group hx hy hz hw, ih hrest hmod]
    rfl

/-- A single number left over makes up no byte. -/
theorem bytesOf_dropLast {ns : List Nat} (hlength : ns.length % 4 = 1) :
    bytesOf ns.dropLast = bytesOf ns := by
  fun_induction bytesOf ns with
  | case1 => rfl
  | case2 x => rfl
  | case3 x y => exact absurd hlength (by simp)
  | case4 x y z => exact absurd hlength (by simp)
  | case5 x y z w rest ih =>
    have hmod : rest.length % 4 = 1 := by
      simp only [List.length_cons] at hlength
      omega
    have hne : rest ≠ [] := by
      rintro rfl
      exact absurd hmod (by decide)
    obtain ⟨a, as, rfl⟩ := List.exists_cons_of_ne_nil hne
    simp only [List.dropLast_cons_cons]
    rw [bytesOf, ih hmod]

theorem length_bytesOf (ns : List Nat) : (bytesOf ns).length = 6 * ns.length / 8 := by
  fun_induction bytesOf ns with
  | case5 x y z w rest ih =>
    simp only [List.length_cons, ih]
    omega
  | _ => simp

/-! ### Their bits -/

/-- The lowest bits of a number, as many as the width says and the highest of them first. -/
def bits : Nat → Nat → List Bool
  | 0, _ => []
  | width + 1, n => n.testBit width :: bits width n

@[simp] theorem length_bits (width n : Nat) : (bits width n).length = width := by
  induction width with
  | zero => rfl
  | succ width ih => rw [bits, List.length_cons, ih]

/-- The lower bits of a number follow the upper ones. -/
theorem bits_add (upper lower n : Nat) :
    bits (upper + lower) n = bits upper (n / 2 ^ lower) ++ bits lower n := by
  induction upper with
  | zero => rw [Nat.zero_add, bits, List.nil_append]
  | succ upper ih =>
    rw [Nat.succ_add, bits, bits, ih, Nat.testBit_div_two_pow, List.cons_append]

/-- Bits above the width have no part in the bits of a number. -/
theorem bits_mod {width k : Nat} (h : width ≤ k) (n : Nat) :
    bits width (n % 2 ^ k) = bits width n := by
  induction width with
  | zero => rfl
  | succ width ih =>
    have hlt : width < k := h
    rw [bits, bits, ih (Nat.le_of_lt hlt), Nat.testBit_mod_two_pow, decide_eq_true hlt, Bool.true_and]

/-- A number put together from an upper and a lower part has the bits of both. -/
theorem bits_mul_add (upper lower : Nat) {m k : Nat} (hk : k < 2 ^ lower) :
    bits (upper + lower) (m * 2 ^ lower + k) = bits upper m ++ bits lower k := by
  have hdiv : (m * 2 ^ lower + k) / 2 ^ lower = m := by
    rw [Nat.mul_comm, Nat.mul_add_div (Nat.two_pow_pos lower), Nat.div_eq_of_lt hk, Nat.add_zero]
  have hmod : (m * 2 ^ lower + k) % 2 ^ lower = k := by
    rw [Nat.mul_comm, Nat.mul_add_mod, Nat.mod_eq_of_lt hk]
  rw [bits_add, hdiv, ← bits_mod (Nat.le_refl lower), hmod]

/-- The bits of bytes in order. -/
def bitsOfBytes (bytes : List UInt8) : List Bool := bytes.flatMap fun b ↦ bits 8 b.toNat

theorem bitsOfBytes_cons {n : Nat} (hn : n < 256) (bytes : List UInt8) :
    bitsOfBytes (UInt8.ofNat n :: bytes) = bits 8 n ++ bitsOfBytes bytes := by
  rw [bitsOfBytes, List.flatMap_cons, UInt8.toNat_ofNat_of_lt' hn]
  rfl

/-- The first byte of a group has the bits of the first number and two of the second. -/
theorem bits_first (x : Nat) {y : Nat} (hy : y < 64) :
    bits 8 (x * 4 + y / 16) = bits 6 x ++ bits 2 (y / 16) :=
  bits_mul_add 6 2 (by omega)

/-- The second byte of a group has the four other bits of the second number and four of the third. -/
theorem bits_second (y : Nat) {z : Nat} (hz : z < 64) :
    bits 8 (y % 16 * 16 + z / 4) = bits 4 y ++ bits 4 (z / 4) := by
  rw [← bits_mod (Nat.le_refl 4) y]
  exact bits_mul_add 4 4 (by omega)

/-- The third byte of a group has the two other bits of the third number and those of the fourth. -/
theorem bits_third (z : Nat) {w : Nat} (hw : w < 64) :
    bits 8 (z % 4 * 64 + w) = bits 2 z ++ bits 6 w := by
  rw [← bits_mod (Nat.le_refl 2) z]
  exact bits_mul_add 2 6 hw

/-- The bytes made of numbers have the bits of the numbers in order, six for each, as far as they make
up whole bytes. -/
theorem bitsOfBytes_bytesOf {ns : List Nat} (h : ∀ n ∈ ns, n < 64) :
    bitsOfBytes (bytesOf ns) = (ns.flatMap (bits 6)).take (8 * (6 * ns.length / 8)) := by
  fun_induction bytesOf ns with
  | case1 => rfl
  | case2 x => simp [bitsOfBytes]
  | case3 x y =>
    simp only [List.forall_mem_cons] at h
    obtain ⟨hx, hy, -⟩ := h
    have hbits : [x, y].flatMap (bits 6) = (bits 6 x ++ bits 2 (y / 16)) ++ bits 4 y := by
      simp [bits_add 2 4 y]
    rw [bitsOfBytes_cons (by omega), bits_first x hy, hbits, List.take_left' (by simp)]
    exact List.append_nil _
  | case4 x y z =>
    simp only [List.forall_mem_cons] at h
    obtain ⟨hx, hy, hz, -⟩ := h
    have hbits : [x, y, z].flatMap (bits 6) =
        (bits 6 x ++ bits 2 (y / 16) ++ (bits 4 y ++ bits 4 (z / 4))) ++ bits 2 z := by
      simp [bits_add 2 4 y, bits_add 4 2 z]
    rw [bitsOfBytes_cons (by omega), bitsOfBytes_cons (by omega), bits_first x hy, bits_second y hz,
      hbits, List.take_left' (by simp)]
    exact congrArg _ (List.append_nil _)
  | case5 x y z w rest ih =>
    simp only [List.forall_mem_cons] at h
    obtain ⟨hx, hy, hz, hw, hrest⟩ := h
    have hbits : (x :: y :: z :: w :: rest).flatMap (bits 6) =
        (bits 6 x ++ bits 2 (y / 16) ++ (bits 4 y ++ bits 4 (z / 4)) ++ (bits 2 z ++ bits 6 w)) ++
          rest.flatMap (bits 6) := by
      simp [bits_add 2 4 y, bits_add 4 2 z]
    have hcount : 8 * (6 * (x :: y :: z :: w :: rest).length / 8) =
        (bits 6 x ++ bits 2 (y / 16) ++ (bits 4 y ++ bits 4 (z / 4)) ++
          (bits 2 z ++ bits 6 w)).length + 8 * (6 * rest.length / 8) := by
      simp only [List.length_cons, List.length_append, length_bits]
      omega
    rw [bitsOfBytes_cons (by omega), bitsOfBytes_cons (by omega), bitsOfBytes_cons (by omega),
      bits_first x hy, bits_second y hz, bits_third z hw, ih hrest, hbits, hcount,
      List.take_length_add_append]
    simp only [List.append_assoc]

/-! ### The strict form of a text -/

/-- The strict form of a text is written with the digits of its numbers, but for a single one left
over, and filled up. -/
theorem exists_normalize_eq (cs : List Char) :
    ∃ ns : List Nat, (∀ n ∈ ns, n < 64) ∧ ns.length % 4 ≠ 1 ∧ bytesOf ns = bytesOf (numbers cs) ∧
      normalize cs = filledUp (ns.map digit) := by
  have hlt : ∀ n ∈ numbers cs, n < 64 := fun n ↦ lt_of_mem_numbers
  rw [normalize, significant_eq, List.length_map]
  by_cases hone : (numbers cs).length % 4 = 1
  · refine ⟨(numbers cs).dropLast, fun n hn ↦ hlt n (List.dropLast_subset _ hn), ?_,
      bytesOf_dropLast hone, ?_⟩
    · rw [List.length_dropLast]
      omega
    · rw [if_pos hone, List.map_dropLast]
      rfl
  · refine ⟨numbers cs, hlt, hone, rfl, ?_⟩
    rw [if_neg hone]
    rfl

/-- No text is refused by the strict reader once it is in the strict form: that has whole groups, of
digits and at most two characters that fill up. What is read has the bits of the characters of
either alphabet before the first `=`, in order, as far as they make up whole bytes. -/
theorem decode_bits (s : String) :
    (normalize s.toList).length % 4 = 0 ∧
    (∃ digits k, (∀ c ∈ digits, c ∈ alphabet) ∧ k ≤ 2 ∧
      normalize s.toList = digits ++ List.replicate k '=') ∧
    decodeStrict? (normalize s.toList) = some (decode s) ∧
    (decode s).length = 6 * digitCount s.toList / 8 ∧
    bitsOfBytes (decode s) =
      ((numbers s.toList).flatMap (bits 6)).take (8 * (6 * digitCount s.toList / 8)) := by
  obtain ⟨ns, hlt, hlength, hbytes, hnormalize⟩ := exists_normalize_eq s.toList
  have hread : decodeStrict? (normalize s.toList) = some (bytesOf (numbers s.toList)) := by
    rw [hnormalize, decodeStrict?_filledUp hlt hlength, hbytes]
  have hdecode : decode s = bytesOf (numbers s.toList) := by
    rw [decode, hread]
    rfl
  rw [← length_numbers]
  refine ⟨?_, ⟨ns.map digit, (4 - ns.length % 4) % 4, ?_, by omega, ?_⟩, ?_, ?_, ?_⟩
  · rw [hnormalize, length_filledUp]
  · intro c hc
    obtain ⟨n, hn, rfl⟩ := List.mem_map.mp hc
    exact digit_mem_alphabet (hlt n hn)
  · rw [hnormalize, filledUp, List.length_map]
  · rw [hread, hdecode]
  · rw [hdecode, length_bytesOf]
  · rw [hdecode, bitsOfBytes_bytesOf fun n ↦ lt_of_mem_numbers]

end ContactCard.Base64
