import ContactCard.Proofs.Base64

/-!
# Spellings of base64

Lenient reading gives back the bytes from every spelling of their encoding (`decode_of_isSpelling`):
the padding may be left out, the two last digits may be those of the URL-safe alphabet, characters
of neither alphabet may stand anywhere, and any text may follow padding that was kept.

Reading depends on the significant characters alone (`decode_congr`), so it is enough that a spelling
has those of the encoding. The padding is the one thing in an encoding that is not significant, and
it stands at the end: what is dropped there, or put after it, lies behind all significant characters.
-/

namespace ContactCard.Base64

/-! ### Significant characters -/

/-- A character that stands for a number is the digit of that number. -/
theorem digit_of_digitValue? {c : Char} {n : Nat} (h : digitValue? c = some n) :
    n < 64 ∧ digit n = c := by
  have hascii : ∀ k < 128, ∀ n ∈ digitValue? (Char.ofNat k), n < 64 ∧ digit n = Char.ofNat k := by
    decide +kernel
  have hlt : c.toNat < 128 := by
    by_contra hge
    have hplus : c ≠ '+' := by rintro rfl; exact hge (by decide)
    have hslash : c ≠ '/' := by rintro rfl; exact hge (by decide)
    rw [digitValue?, if_neg (by omega), if_neg (by omega), if_neg (by omega), if_neg hplus,
      if_neg hslash] at h
    exact absurd h (by simp)
  have hc := hascii c.toNat hlt n
  rw [Char.ofNat_toNat] at hc
  exact hc h

/-- Only the characters of the alphabet stand for numbers. -/
theorem digitValue?_of_not_mem {c : Char} (h : c ∉ alphabet) : digitValue? c = none := by
  rw [Option.eq_none_iff_forall_ne_some]
  intro n hn
  obtain ⟨hlt, rfl⟩ := digit_of_digitValue? hn
  exact h (digit_mem_alphabet hlt)

/-- Nothing but padding is not significant. -/
theorem significant_replicate_pad (n : Nat) : significant (List.replicate n '=') = [] := by
  cases n <;> rfl

/-- What is read depends on the significant characters alone. -/
theorem decode_congr {s t : String} (h : significant s.toList = significant t.toList) :
    decode s = decode t := by
  rw [decode, decode, normalize, normalize, h]

/-! ### Spellings -/

/-- The character belongs to neither alphabet and is no padding. -/
def IsForeign (c : Char) : Prop := c ∉ '=' :: '-' :: '_' :: alphabet

instance (c : Char) : Decidable (IsForeign c) :=
  inferInstanceAs (Decidable (c ∉ '=' :: '-' :: '_' :: alphabet))

/-- The second text is a spelling of the first, which is an encoding or its end. -/
inductive IsSpelling : List Char → List Char → Prop
  | nil : IsSpelling [] []
  /-- A digit stands for itself. -/
  | digit {c : Char} {cs s : List Char} (hc : c ≠ '=') (h : IsSpelling cs s) :
    IsSpelling (c :: cs) (c :: s)
  /-- The URL-safe alphabet has its own digit for 62. -/
  | hyphen {cs s : List Char} (h : IsSpelling cs s) : IsSpelling ('+' :: cs) ('-' :: s)
  /-- The URL-safe alphabet has its own digit for 63. -/
  | underscore {cs s : List Char} (h : IsSpelling cs s) : IsSpelling ('/' :: cs) ('_' :: s)
  /-- A foreign character may stand anywhere. -/
  | foreign {c : Char} {cs s : List Char} (hc : IsForeign c) (h : IsSpelling cs s) :
    IsSpelling cs (c :: s)
  /-- Padding may be dropped. -/
  | dropped {n : Nat} {s : List Char} (h : IsSpelling (List.replicate n '=') s) :
    IsSpelling (List.replicate (n + 1) '=') s
  /-- After padding that is kept there may be any text. -/
  | kept {cs : List Char} (rest : List Char) : IsSpelling ('=' :: cs) ('=' :: rest)

/-- A spelling has the significant characters of what it spells. -/
theorem IsSpelling.significant_eq {cs s : List Char} (h : IsSpelling cs s) :
    significant s = significant cs := by
  induction h with
  | nil => rfl
  | digit hc _ ih => rw [significant_cons hc, significant_cons hc, ih]
  | hyphen _ ih =>
    rw [significant_cons (by decide), significant_cons (by decide), ih]
    rfl
  | underscore _ ih =>
    rw [significant_cons (by decide), significant_cons (by decide), ih]
    rfl
  | @foreign c cs s hc _ ih =>
    simp only [IsForeign, List.mem_cons, not_or] at hc
    obtain ⟨hpad, hhyphen, hunderscore, hmem⟩ := hc
    have hself : standardChar c = c := by rw [standardChar, if_neg hhyphen, if_neg hunderscore]
    rw [significant_cons hpad, hself, digitValue?_of_not_mem hmem, ih]
    rfl
  | dropped _ ih => rw [ih, significant_replicate_pad, significant_replicate_pad]
  | kept rest => rw [significant_pad_cons, significant_pad_cons]

/-- Every spelling of the encoding of bytes is read as these bytes. -/
theorem decode_of_isSpelling {bytes : List UInt8} {s : String}
    (h : IsSpelling (encode bytes).toList s.toList) : decode s = bytes := by
  rw [decode_congr h.significant_eq, decode_encode]

/-- URL-safe digits among blanks, line breaks and letters of other scripts, first with the padding
kept and a text after it, then with the padding dropped. -/
theorem decode_of_isSpelling_urlSafe :
    IsSpelling (encode [251, 255]).toList "- _\n8é=QUJD?".toList ∧
    decode "- _\n8é=QUJD?" = [251, 255] ∧
    IsSpelling (encode [251, 255]).toList "-/8\r\n".toList ∧ decode "-/8\r\n" = [251, 255] := by
  have hencoded : (encode [251, 255]).toList = ['+', '/', '8', '='] := by decide +kernel
  have hkept : IsSpelling (encode [251, 255]).toList "- _\n8é=QUJD?".toList := by
    rw [hencoded]
    exact .hyphen (.foreign (by decide) (.underscore (.foreign (by decide)
      (.digit (by decide) (.foreign (by decide) (.kept _))))))
  have hdropped : IsSpelling (encode [251, 255]).toList "-/8\r\n".toList := by
    rw [hencoded]
    exact .hyphen (.digit (by decide) (.digit (by decide) (.dropped (n := 0)
      (.foreign (by decide) (.foreign (by decide) .nil)))))
  exact ⟨hkept, decode_of_isSpelling hkept, hdropped, decode_of_isSpelling hdropped⟩

end ContactCard.Base64
