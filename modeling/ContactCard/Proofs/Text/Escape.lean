import ContactCard.Text.Escape
import Mathlib.Tactic.Common

/-!
# Reading escaped texts

Reading undoes escaping (`unescape_escape`), and leaves a text without backslashes as it is
(`unescape_of_not_mem`); a last backslash, which has nothing to escape, stands for itself as well
(`unescape_eq_self_iff`). Escaping puts a backslash before special characters only, none of which is
the letter that stands for a line feed, so the lenient rule of reading is never met. It changes
every text that has such a character (`escape_eq_self_iff`).

Reading is lenient, so many texts stand for the same one. Escaping writes just one of them, and
these are the texts in which every special character has its backslash and nothing else has one
(`IsEscaped`): they, and no others, are got back by escaping what was read
(`escape_bijective_onto_isEscaped`).
-/

namespace ContactCard.Text

theorem escapedChar_of_isSpecial {c : Char} (hc : isSpecial c = true) : escapedChar c = c := by
  simp only [isSpecial, Bool.or_eq_true, decide_eq_true_eq] at hc
  rcases hc with (rfl | rfl) | rfl <;> rfl

theorem unescapeChars_cons {c : Char} (hc : c ≠ '\\') (cs : List Char) :
    unescapeChars (c :: cs) = c :: unescapeChars cs := by
  cases cs with
  | nil => rfl
  | cons d rest => rw [unescapeChars, if_neg hc]

theorem unescapeChars_escapeChars (cs : List Char) : unescapeChars (escapeChars cs) = cs := by
  induction cs with
  | nil => rfl
  | cons c rest ih =>
    rw [escapeChars] at ih
    by_cases hc : isSpecial c = true
    · rw [escapeChars, List.flatMap_cons, if_pos hc]
      show unescapeChars ('\\' :: c :: rest.flatMap _) = c :: rest
      rw [unescapeChars, if_pos rfl, escapedChar_of_isSpecial hc, ih]
    · have hne : c ≠ '\\' := by
        rintro rfl
        exact hc rfl
      rw [escapeChars, List.flatMap_cons, if_neg hc]
      show unescapeChars (c :: rest.flatMap _) = c :: rest
      rw [unescapeChars_cons hne, ih]

theorem unescapeChars_of_not_mem {cs : List Char} (h : '\\' ∉ cs) : unescapeChars cs = cs := by
  induction cs with
  | nil => rfl
  | cons c rest ih =>
    rw [List.mem_cons, not_or] at h
    rw [unescapeChars_cons (Ne.symm h.1), ih h.2]

/-- Reading undoes escaping. -/
@[simp] theorem unescape_escape (s : String) : unescape (escape s) = s := by
  rw [unescape, escape, String.toList_ofList, unescapeChars_escapeChars, String.ofList_toList]

/-- A text without backslashes stands for itself. -/
theorem unescape_of_not_mem {s : String} (h : '\\' ∉ s.toList) : unescape s = s := by
  rw [unescape, unescapeChars_of_not_mem h, String.ofList_toList]

theorem length_unescapeChars_le (cs : List Char) : (unescapeChars cs).length ≤ cs.length := by
  fun_induction unescapeChars cs with
  | case1 => exact Nat.le_refl 0
  | case2 c => exact Nat.le_refl 1
  | case3 d rest ih => exact Nat.succ_le_succ (Nat.le_succ_of_le ih)
  | case4 c d rest hc ih => exact Nat.succ_le_succ ih

/-- Reading changes every text with a backslash, unless that is its last character. -/
theorem unescapeChars_eq_self_iff {cs : List Char} :
    unescapeChars cs = cs ↔ '\\' ∉ cs.dropLast := by
  fun_induction unescapeChars cs with
  | case1 => exact iff_of_true rfl List.not_mem_nil
  | case2 c => exact iff_of_true rfl List.not_mem_nil
  | case3 d rest ih =>
    refine iff_of_false (fun h ↦ ?_) (by simp)
    have hlength := congrArg List.length h
    have hle := length_unescapeChars_le rest
    simp only [List.length_cons] at hlength
    omega
  | case4 c d rest hc ih =>
    rw [List.cons_inj_right, ih, List.dropLast_cons_cons, List.mem_cons, not_or,
      and_iff_right (Ne.symm hc)]

/-- Exactly the texts without a backslash before their last character stand for themselves. -/
theorem unescape_eq_self_iff {s : String} : unescape s = s ↔ '\\' ∉ s.toList.dropLast := by
  rw [← String.toList_inj, unescape, String.toList_ofList, unescapeChars_eq_self_iff]

theorem length_escapeChars (cs : List Char) :
    (escapeChars cs).length = cs.length + cs.countP isSpecial := by
  induction cs with
  | nil => rfl
  | cons c rest ih =>
    rw [escapeChars] at ih ⊢
    rw [List.flatMap_cons, List.length_append, ih, List.countP_cons, List.length_cons]
    split <;> simp <;> omega

/-- Exactly the texts without special characters are written as they are. -/
theorem escape_eq_self_iff {s : String} :
    escape s = s ↔ ∀ c ∈ s.toList, isSpecial c = false := by
  rw [← String.toList_inj, escape, String.toList_ofList]
  constructor
  · intro h c hc
    -- escaping makes a text longer by the number of its special characters
    have hlength := length_escapeChars s.toList
    rw [h] at hlength
    have hcount : s.toList.countP isSpecial = 0 := by omega
    simpa using List.countP_eq_zero.mp hcount c hc
  · intro h
    have hself : ∀ c ∈ s.toList, (if isSpecial c then ['\\', c] else [c]) = [c] := fun c hc ↦ by
      rw [h c hc]
      rfl
    rw [escapeChars, List.flatMap_def, List.map_congr_left hself, ← List.flatMap_def,
      List.flatMap_singleton']

/-- Escaping puts nothing into a text but backslashes. -/
theorem mem_escape_iff {c : Char} (hc : c ≠ '\\') {s : String} :
    c ∈ (escape s).toList ↔ c ∈ s.toList := by
  have hone : ∀ d, c ∈ (if isSpecial d then ['\\', d] else [d]) ↔ c = d := by
    intro d
    split <;> simp [hc]
  rw [escape, String.toList_ofList, escapeChars, List.mem_flatMap]
  simp only [hone, exists_eq_right']

/-! ### The texts that escaping writes -/

/-- The text is made of pairs of a backslash and a special character, and of characters that are not
special. -/
inductive IsEscaped : List Char → Prop
  | nil : IsEscaped []
  | plain {c : Char} {cs : List Char} (hc : c ∉ ['\\', ',', ';']) (h : IsEscaped cs) :
    IsEscaped (c :: cs)
  | pair {c : Char} {cs : List Char} (hc : c ∈ ['\\', ',', ';']) (h : IsEscaped cs) :
    IsEscaped ('\\' :: c :: cs)

theorem isSpecial_iff {c : Char} : isSpecial c = true ↔ c ∈ ['\\', ',', ';'] := by
  simp [isSpecial, or_assoc]

theorem escapeChars_cons_of_mem {c : Char} (hc : c ∈ ['\\', ',', ';']) (cs : List Char) :
    escapeChars (c :: cs) = '\\' :: c :: escapeChars cs := by
  rw [escapeChars, List.flatMap_cons, if_pos (isSpecial_iff.mpr hc)]
  rfl

theorem escapeChars_cons_of_not_mem {c : Char} (hc : c ∉ ['\\', ',', ';']) (cs : List Char) :
    escapeChars (c :: cs) = c :: escapeChars cs := by
  rw [escapeChars, List.flatMap_cons, if_neg (fun h ↦ hc (isSpecial_iff.mp h))]
  rfl

theorem isEscaped_escapeChars (cs : List Char) : IsEscaped (escapeChars cs) := by
  induction cs with
  | nil => exact .nil
  | cons c rest ih =>
    by_cases hc : c ∈ ['\\', ',', ';']
    · rw [escapeChars_cons_of_mem hc]
      exact .pair hc ih
    · rw [escapeChars_cons_of_not_mem hc]
      exact .plain hc ih

/-- Escaping writes the same text again that was read, if it was escaped properly. -/
theorem IsEscaped.escapeChars_unescapeChars {cs : List Char} (h : IsEscaped cs) :
    escapeChars (unescapeChars cs) = cs := by
  induction h with
  | nil => rfl
  | plain hc _ ih =>
    rw [unescapeChars_cons (fun heq ↦ hc (heq ▸ List.mem_cons_self)),
      escapeChars_cons_of_not_mem hc, ih]
  | pair hc _ ih =>
    rw [unescapeChars, if_pos rfl, escapedChar_of_isSpecial (isSpecial_iff.mpr hc),
      escapeChars_cons_of_mem hc, ih]

theorem isEscaped_escape (s : String) : IsEscaped (escape s).toList := by
  rw [escape, String.toList_ofList]
  exact isEscaped_escapeChars s.toList

/-- Escaping is a bijection from the texts onto those that are escaped properly, and reading is its
inverse there. On any other text the two together do not give back what was read. -/
theorem escape_bijective_onto_isEscaped :
    (∀ s, unescape (escape s) = s) ∧
    (∀ t, escape (unescape t) = t ↔ IsEscaped t.toList) ∧
    ∀ t, (∃ s, escape s = t) ↔ IsEscaped t.toList := by
  have hback : ∀ t : String, IsEscaped t.toList → escape (unescape t) = t := by
    intro t ht
    rw [escape, unescape, String.toList_ofList, ht.escapeChars_unescapeChars, String.ofList_toList]
  refine ⟨unescape_escape, fun t ↦ ⟨fun h ↦ ?_, hback t⟩, fun t ↦ ⟨?_, fun h ↦ ⟨_, hback t h⟩⟩⟩
  · exact h ▸ isEscaped_escape (unescape t)
  · rintro ⟨s, rfl⟩
    exact isEscaped_escape s

end ContactCard.Text
