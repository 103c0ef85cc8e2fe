import ContactCard.Base64
import Mathlib.Tactic.Common

/-!
# Base64 round trip

Lenient reading inverts writing. The lenient reader first brings a text into the strict form, so the
proof has two halves: what writing produces is in the strict form already
(`normalize_encodeBytes`), and the strict reader undoes it (`decodeStrict?_encodeBytes`). Both go
through the text in groups of four digits, as writing goes through the bytes in groups of three.
-/

namespace ContactCard.Base64

/-! ### Digits -/

theorem digitValue?_digit {n : Nat} (h : n < 64) : digitValue? (digit n) = some n :=
  (show ∀ n < 64, digitValue? (digit n) = some n by decide +kernel) n h

theorem standardChar_digit {n : Nat} (h : n < 64) : standardChar (digit n) = digit n :=
  (show ∀ n < 64, standardChar (digit n) = digit n by decide +kernel) n h

theorem digit_ne_pad {n : Nat} (h : n < 64) : digit n ≠ '=' :=
  (show ∀ n < 64, digit n ≠ '=' by decide +kernel) n h

theorem digit_mem_alphabet {n : Nat} (h : n < 64) : digit n ∈ alphabet :=
  (show ∀ n < 64, digit n ∈ alphabet by decide +kernel) n h

/-- Writing uses the alphabet and the character that fills up the last group. -/
theorem mem_encodeBytes {bytes : List UInt8} {c : Char} (hc : c ∈ encodeBytes bytes) :
    c ∈ '=' :: alphabet := by
  induction bytes using encodeBytes.induct with
  | case1 => exact absurd hc (by simp [encodeBytes])
  | case2 a =>
    have ha := a.toNat_lt
    simp only [encodeBytes, List.mem_cons, List.not_mem_nil, or_false] at hc
    rcases hc with rfl | rfl | rfl | rfl
    · exact List.mem_cons_of_mem _ (digit_mem_alphabet (by omega))
    · exact List.mem_cons_of_mem _ (digit_mem_alphabet (by omega))
    · exact List.mem_cons_self
    · exact List.mem_cons_self
  | case3 a b =>
    have ha := a.toNat_lt
    have hb := b.toNat_lt
    simp only [encodeBytes, List.mem_cons, List.not_mem_nil, or_false] at hc
    rcases hc with rfl | rfl | rfl | rfl
    · exact List.mem_cons_of_mem _ (digit_mem_alphabet (by omega))
    · exact List.mem_cons_of_mem _ (digit_mem_alphabet (by omega))
    · exact List.mem_cons_of_mem _ (digit_mem_alphabet (by omega))
    · exact List.mem_cons_self
  | case4 a b d rest ih =>
    have ha := a.toNat_lt
    have hb := b.toNat_lt
    have hd := d.toNat_lt
    simp only [encodeBytes, List.mem_cons] at hc
    rcases hc with rfl | rfl | rfl | rfl | hc
    · exact List.mem_cons_of_mem _ (digit_mem_alphabet (by omega))
    · exact List.mem_cons_of_mem _ (digit_mem_alphabet (by omega))
    · exact List.mem_cons_of_mem _ (digit_mem_alphabet (by omega))
    · exact List.mem_cons_of_mem _ (digit_mem_alphabet (by omega))
    · exact ih hc

/-! ### The strict form -/

/-- A character in front of all padding counts if it stands for a number in either alphabet. -/
theorem significant_cons {c : Char} (hc : c ≠ '=') (cs : List Char) :
    significant (c :: cs) =
      if (digitValue? (standardChar c)).isSome then standardChar c :: significant cs
      else significant cs := by
  have hpad : (c != '=') = true := by simpa using hc
  simp only [significant, List.takeWhile_cons, hpad, if_true, List.map_cons, List.filter_cons]

theorem significant_digit_cons {n : Nat} (h : n < 64) (cs : List Char) :
    significant (digit n :: cs) = digit n :: significant cs := by
  rw [significant_cons (digit_ne_pad h), standardChar_digit h, digitValue?_digit h]
  rfl

theorem significant_pad_cons (cs : List Char) : significant ('=' :: cs) = [] := rfl

/-- A whole group of digits passes into the strict form as it is. -/
theorem normalize_group {i j k l : Nat} (hi : i < 64) (hj : j < 64) (hk : k < 64) (hl : l < 64)
    (cs : List Char) :
    normalize (digit i :: digit j :: digit k :: digit l :: cs) =
      digit i :: digit j :: digit k :: digit l :: normalize cs := by
  have hs : significant (digit i :: digit j :: digit k :: digit l :: cs) =
      digit i :: digit j :: digit k :: digit l :: significant cs := by
    rw [significant_digit_cons hi, significant_digit_cons hj, significant_digit_cons hk,
      significant_digit_cons hl]
  rw [normalize, normalize, hs]
  set kept := significant cs with hkept
  -- four digits more do not change how the last group is filled up
  have hmod : (digit i :: digit j :: digit k :: digit l :: kept).length % 4 = kept.length % 4 := by
    simp only [List.length_cons]
    omega
  simp only [hmod]
  by_cases h1 : kept.length % 4 = 1
  · -- the group is followed by the digit that is dropped, so the drop does not reach it
    have hne : kept ≠ [] := by
      intro h0
      rw [h0] at h1
      exact absurd h1 (by decide)
    obtain ⟨x, xs, hx⟩ := List.exists_cons_of_ne_nil hne
    rw [if_pos h1, if_pos h1, hx]
    simp only [List.dropLast_cons_cons, List.cons_append, List.length_cons]
    rw [show (((x :: xs).dropLast.length + 1 + 1 + 1 + 1) % 4) = (x :: xs).dropLast.length % 4 by
      omega]
  · rw [if_neg h1, if_neg h1]
    simp only [List.cons_append, hmod]

/-- What writing produces is in the strict form. -/
theorem normalize_encodeBytes (bytes : List UInt8) :
    normalize (encodeBytes bytes) = encodeBytes bytes := by
  induction bytes using encodeBytes.induct with
  | case1 => rfl
  | case2 a =>
    have ha := a.toNat_lt
    rw [encodeBytes, normalize, significant_digit_cons (by omega),
      significant_digit_cons (by omega), significant_pad_cons]
    rfl
  | case3 a b =>
    have ha := a.toNat_lt
    have hb := b.toNat_lt
    rw [encodeBytes, normalize, significant_digit_cons (by omega),
      significant_digit_cons (by omega), significant_digit_cons (by omega), significant_pad_cons]
    rfl
  | case4 a b c rest ih =>
    have ha := a.toNat_lt
    have hb := b.toNat_lt
    have hc := c.toNat_lt
    rw [encodeBytes, normalize_group (by omega) (by omega) (by omega) (by omega), ih]

/-! ### Reading what was written -/

/-- A byte, put together from its upper and its lower part. -/
theorem ofNat_eq {n : Nat} {a : UInt8} (h : n = a.toNat) : UInt8.ofNat n = a := by
  rw [h, UInt8.ofNat_toNat]

/-- A whole group of digits stands for three bytes. -/
theorem decodeStrict?_group {i j k l : Nat} (hi : i < 64) (hj : j < 64) (hk : k < 64) (hl : l < 64)
    (cs : List Char) :
    decodeStrict? (digit i :: digit j :: digit k :: digit l :: cs) =
      (decodeStrict? cs).map fun more ↦
        UInt8.ofNat (i * 4 + j / 16) :: UInt8.ofNat (j % 16 * 16 + k / 4) ::
          UInt8.ofNat (k % 4 * 64 + l) :: more := by
  have hl' : digit l ≠ '=' := digit_ne_pad hl
  rw [decodeStrict?, digitValue?_digit hi, digitValue?_digit hj, digitValue?_digit hk,
    digitValue?_digit hl]
  simp only [Option.bind_eq_bind, Option.bind_some, hl', false_and, and_false, if_false]
  cases decodeStrict? cs <;> rfl

theorem decodeStrict?_pair {i j : Nat} (hi : i < 64) (hj : j < 64) :
    decodeStrict? [digit i, digit j, '=', '='] = some [UInt8.ofNat (i * 4 + j / 16)] := by
  rw [decodeStrict?, digitValue?_digit hi, digitValue?_digit hj]
  rfl

theorem decodeStrict?_triple {i j k : Nat} (hi : i < 64) (hj : j < 64) (hk : k < 64) :
    decodeStrict? [digit i, digit j, digit k, '='] =
      some [UInt8.ofNat (i * 4 + j / 16), UInt8.ofNat (j % 16 * 16 + k / 4)] := by
  have hk' : digit k ≠ '=' := digit_ne_pad hk
  rw [decodeStrict?, digitValue?_digit hi, digitValue?_digit hj, digitValue?_digit hk]
  simp only [Option.bind_eq_bind, Option.bind_some, hk', false_and, if_false, and_self, if_true]
  rfl

theorem decodeStrict?_encodeBytes (bytes : List UInt8) :
    decodeStrict? (encodeBytes bytes) = some bytes := by
  induction bytes using encodeBytes.induct with
  | case1 => rfl
  | case2 a =>
    have ha := a.toNat_lt
    rw [encodeBytes, decodeStrict?_pair (by omega) (by omega)]
    rw [ofNat_eq (a := a) (by omega)]
  | case3 a b =>
    have ha := a.toNat_lt
    have hb := b.toNat_lt
    rw [encodeBytes, decodeStrict?_triple (by omega) (by omega) (by omega)]
    rw [ofNat_eq (a := a) (by omega), ofNat_eq (a := b) (by omega)]
  | case4 a b c rest ih =>
    have ha := a.toNat_lt
    have hb := b.toNat_lt
    have hc := c.toNat_lt
    rw [encodeBytes, decodeStrict?_group (by omega) (by omega) (by omega) (by omega), ih]
    rw [Option.map_some, ofNat_eq (a := a) (by omega), ofNat_eq (a := b) (by omega),
      ofNat_eq (a := c) (by omega)]

/-- Reading undoes writing. -/
theorem decode_encode (bytes : List UInt8) : decode (encode bytes) = bytes := by
  rw [decode, encode, String.toList_ofList, normalize_encodeBytes, decodeStrict?_encodeBytes]
  rfl

end ContactCard.Base64
