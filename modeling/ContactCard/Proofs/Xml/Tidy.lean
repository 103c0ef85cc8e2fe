import ContactCard.Proofs.Xml.Outline
import ContactCard.Proofs.Xml.RoundTrip

/-!
# What readers make of written characters

Two things happen to the characters of a text on their way to a reader: control characters are
written as replacement characters, and line ends are read as line feeds. `tidy` is both in a row. A
document with tidy texts and values reaches a reader as it was written, and that is what a reader
finds of any other document, too, as long as nothing is replaced in a text that stands next to a
child (`reaches_render`). Such a text is stripped before it is written with an indentation, and
whether that is done before or after its line ends are read makes no difference
(`tidy_stripChars`).

There are two characters for which this does not help, since they are written although no document
may hold them (`noncharacters`).
-/

namespace ContactCard.Xml

open Text Markup

/-! ### Characters -/

/-- The characters that are written as they are although no document may hold them. -/
def noncharacters : List Char := ['\ufffe', '\uffff']

/-- All other characters are written as ones that documents may hold. -/
theorem isXmlChar_allowedChar_iff {c : Char} :
    isXmlChar (allowedChar c) = true ↔ c ∉ noncharacters := by
  have hnumber : ∀ d : Char, c = d ↔ c.toNat = d.toNat := fun d ↦
    ⟨congrArg Char.toNat, fun h ↦ Char.ext (UInt32.toNat_inj.mp h)⟩
  have hmem : c ∉ noncharacters ↔ c.toNat ≠ 0xFFFE ∧ c.toNat ≠ 0xFFFF := by
    simp only [noncharacters, List.mem_cons, List.not_mem_nil, or_false, not_or, hnumber]
    exact Iff.rfl
  have hvalid : c.toNat < 0xD800 ∨ 0xDFFF < c.toNat ∧ c.toNat < 0x110000 := c.valid
  rw [hmem, allowedChar]
  split
  · next hforbidden =>
    refine iff_of_true (by decide +kernel) ?_
    simp only [isForbidden, Bool.or_eq_true, Bool.and_eq_true, decide_eq_true_eq, beq_iff_eq]
      at hforbidden
    omega
  · next hforbidden =>
    simp only [isForbidden, Bool.or_eq_true, Bool.and_eq_true, decide_eq_true_eq, beq_iff_eq]
      at hforbidden
    simp only [isXmlChar, inRanges, xmlRanges]
    repeat' split
    all_goals simp only [Bool.false_eq_true, false_iff, true_iff]; omega

theorem allowedChar_of_isForbidden {c : Char} (h : isForbidden c = true) :
    allowedChar c = '\ufffd' := if_pos h

theorem allowedChar_of_not {c : Char} (h : isForbidden c = false) : allowedChar c = c := by
  rw [allowedChar, h]
  rfl

/-- Only a character itself is written as the character, the replacement character apart. -/
theorem allowedChar_eq_iff {c d : Char} (hd : isForbidden d = false) (hne : d ≠ '\ufffd') :
    allowedChar c = d ↔ c = d := by
  cases hc : isForbidden c with
  | true =>
    rw [allowedChar_of_isForbidden hc]
    exact iff_of_false (Ne.symm hne) (by rintro rfl; simp [hc] at hd)
  | false => rw [allowedChar_of_not hc]

theorem map_allowedChar_of_isAllowed {cs : List Char} (h : ∀ c ∈ cs, isForbidden c = false) :
    cs.map allowedChar = cs := by
  rw [List.map_congr_left fun c hc ↦ allowedChar_of_not (h c hc), List.map_id']

theorem isForbidden_of_isPlain {cs : List Char} (h : IsPlain cs) :
    ∀ c ∈ cs, isForbidden c = false := fun c hc ↦ isForbidden_of_isXmlChar (h c hc).1

/-! ### Escaped characters -/

theorem map_allowedChar_escapeChar (c : Char) :
    (escapeChar c).map allowedChar = escapeChar (allowedChar c) := by
  cases hc : isForbidden c with
  | true =>
    have hplain : escapeChar c = [c] := by
      rw [escapeChar, if_neg (by rintro rfl; exact absurd hc (by decide)),
        if_neg (by rintro rfl; exact absurd hc (by decide)),
        if_neg (by rintro rfl; exact absurd hc (by decide))]
    rw [hplain, List.map_singleton, allowedChar_of_isForbidden hc]
    decide
  | false =>
    rw [allowedChar_of_not hc]
    refine map_allowedChar_of_isAllowed ?_
    rw [escapeChar]
    repeat' split
    all_goals first | decide | simpa using hc

theorem map_allowedChar_escapeAttributeChar (c : Char) :
    (escapeAttributeChar c).map allowedChar = escapeAttributeChar (allowedChar c) := by
  have hspecial : ∀ d ∈ ['\n', '\r', '\t'], (allowedChar c = d ↔ c = d) := by
    intro d hd
    have hall : ∀ d ∈ ['\n', '\r', '\t'], isForbidden d = false ∧ d ≠ '\ufffd' := by decide
    exact allowedChar_eq_iff (hall d hd).1 (hall d hd).2
  rw [escapeAttributeChar, escapeAttributeChar]
  simp only [hspecial '\n' (by decide), hspecial '\r' (by decide), hspecial '\t' (by decide)]
  split
  · decide
  split
  · decide
  split
  · decide
  · exact map_allowedChar_escapeChar c

theorem map_allowedChar_flatMap {f : Char → List Char}
    (h : ∀ c, (f c).map allowedChar = f (allowedChar c)) (cs : List Char) :
    (cs.flatMap f).map allowedChar = (cs.map allowedChar).flatMap f := by
  simp only [List.map_flatMap, List.flatMap_map, h]

theorem mem_map_allowedChar {cs : List Char} {d : Char} (hd : isForbidden d = false)
    (hne : d ≠ '\ufffd') : d ∈ cs.map allowedChar ↔ d ∈ cs := by
  simp only [List.mem_map, allowedChar_eq_iff hd hne, exists_eq_right]

/-- A value is quoted as before. -/
theorem map_allowedChar_quoteValue (cs : List Char) :
    (quoteValue cs).map allowedChar = quoteValue (cs.map allowedChar) := by
  have hescaped := map_allowedChar_flatMap map_allowedChar_escapeAttributeChar cs
  have hquotes : ∀ d : Char, (if d = '"' then "&quot;".toList else [d]).map allowedChar =
      if allowedChar d = '"' then "&quot;".toList else [allowedChar d] := by
    intro d
    simp only [allowedChar_eq_iff (c := d) (d := '"') (by decide) (by decide)]
    split
    · decide
    · rfl
  have hmem : ∀ d ∈ ['"', '\''], (cs.map allowedChar).contains d = cs.contains d := by
    intro d hd
    have hall : ∀ d ∈ ['"', '\''], isForbidden d = false ∧ d ≠ '\ufffd' := by decide
    rw [Bool.eq_iff_iff, List.contains_iff_mem, List.contains_iff_mem,
      mem_map_allowedChar (hall d hd).1 (hall d hd).2]
  have hends : allowedChar '"' = '"' ∧ allowedChar '\'' = '\'' := by decide
  rw [quoteValue, quoteValue, hmem '"' (by decide), hmem '\'' (by decide), ← hescaped]
  split
  · split
    · rw [List.map_append, List.map_cons, map_allowedChar_flatMap hquotes, List.map_singleton,
        hends.1]
    · rw [List.map_append, List.map_cons, List.map_singleton, hends.2]
  · rw [List.map_append, List.map_cons, List.map_singleton, hends.1]

/-! ### Tidy texts -/

/-- What a reader finds of characters that were written. -/
def tidy (cs : List Char) : List Char := normalizeLineEnds (cs.map allowedChar)

/-- What a reader finds of a text. -/
def tidyText (s : String) : String := String.ofList (tidy s.toList)

theorem isEmpty_tidyText (s : String) : (tidyText s).isEmpty = s.isEmpty := by
  have hempty : ∀ cs : List Char, normalizeLineEnds cs = [] ↔ cs = [] := by
    intro cs
    fun_cases normalizeLineEnds cs <;> simp
  rw [Bool.eq_iff_iff, String.isEmpty_iff, String.isEmpty_iff, ← String.toList_inj,
    ← String.toList_inj, tidyText, String.toList_ofList, tidy]
  simp [hempty]

theorem mem_normalizeLineEnds {cs : List Char} {c : Char} (hc : c ∈ normalizeLineEnds cs) :
    c = '\n' ∨ c ∈ cs ∧ c ≠ '\r' := by
  fun_induction normalizeLineEnds cs with
  | case1 cs ih =>
    rcases List.mem_cons.mp hc with rfl | hc
    · exact .inl rfl
    · exact (ih hc).imp_right fun h ↦ ⟨by simp [h.1], h.2⟩
  | case2 cs _ ih =>
    rcases List.mem_cons.mp hc with rfl | hc
    · exact .inl rfl
    · exact (ih hc).imp_right fun h ↦ ⟨by simp [h.1], h.2⟩
  | case3 d cs _ hd ih =>
    rcases List.mem_cons.mp hc with rfl | hc
    · exact .inr ⟨List.mem_cons_self, by rintro rfl; exact hd rfl⟩
    · exact (ih hc).imp_right fun h ↦ ⟨List.mem_cons_of_mem _ h.1, h.2⟩
  | case4 => exact absurd hc List.not_mem_nil

/-- Nothing but carriage returns gets lost. -/
theorem mem_normalizeLineEnds_of_ne {cs : List Char} {c : Char} (hc : c ∈ cs) (hne : c ≠ '\r') :
    c ∈ normalizeLineEnds cs := by
  fun_induction normalizeLineEnds cs with
  | case1 cs ih =>
    rcases List.mem_cons.mp ((List.mem_cons.mp hc).resolve_left hne) with rfl | hc
    · exact List.mem_cons_self
    · exact List.mem_cons_of_mem _ (ih hc)
  | case2 cs _ ih => exact List.mem_cons_of_mem _ (ih ((List.mem_cons.mp hc).resolve_left hne))
  | case3 d cs _ _ ih =>
    rcases List.mem_cons.mp hc with rfl | hc
    · exact List.mem_cons_self
    · exact List.mem_cons_of_mem _ (ih hc)
  | case4 => exact absurd hc List.not_mem_nil

/-- A tidy text reaches a reader, unless it holds a noncharacter. -/
theorem isPlain_tidy {cs : List Char} (h : ∀ c ∈ cs, c ∉ noncharacters) : IsPlain (tidy cs) := by
  intro c hc
  rcases mem_normalizeLineEnds hc with rfl | ⟨hc, hne⟩
  · decide +kernel
  · obtain ⟨d, hd, rfl⟩ := List.mem_map.mp hc
    exact ⟨isXmlChar_allowedChar_iff.mpr (h d hd), hne⟩

/-! ### On the way to a reader -/

/-- Whatever follows, a reader finds the second characters where the first are written. -/
def Reaches (cs cs' : List Char) : Prop :=
  ∀ rest, tidy (cs ++ rest) = cs' ++ tidy rest

theorem Reaches.append {cs cs' ds ds' : List Char} (h : Reaches cs cs') (h' : Reaches ds ds') :
    Reaches (cs ++ ds) (cs' ++ ds') := by
  intro rest
  rw [List.append_assoc, h, h', List.append_assoc]

/-- Line ends are read part by part, unless a carriage return meets a line feed. -/
theorem normalizeLineEnds_append {cs ds : List Char}
    (h : cs.getLast? ≠ some '\r' ∨ ds.head? ≠ some '\n') :
    normalizeLineEnds (cs ++ ds) = normalizeLineEnds cs ++ normalizeLineEnds ds := by
  have htail : ∀ (c : Char) (cs : List Char),
      (c :: cs).getLast? ≠ some '\r' ∨ ds.head? ≠ some '\n' →
        cs.getLast? ≠ some '\r' ∨ ds.head? ≠ some '\n' :=
    fun c cs ↦ Or.imp_left fun hne hlast ↦ hne (by rw [List.getLast?_cons, hlast]; rfl)
  fun_induction normalizeLineEnds cs with
  | case1 cs ih => exact congrArg ('\n' :: ·) (ih (htail _ _ (htail _ _ h)))
  | case2 cs hcs ih =>
    have hhead : ∀ rest, cs ++ ds ≠ '\n' :: rest := by
      intro rest heq
      cases cs with
      | nil =>
        obtain rfl : ds = '\n' :: rest := heq
        exact h.elim (fun hlast ↦ hlast rfl) fun hhead ↦ hhead rfl
      | cons d cs => exact hcs cs (by rw [(List.cons.inj heq).1])
    rw [List.cons_append, normalizeLineEnds, ih (htail _ _ h), List.cons_append]
    exact hhead
  | case3 c cs hcrlf hcr ih =>
    rw [List.cons_append, normalizeLineEnds, ih (htail _ _ h), List.cons_append]
    · exact fun _ heq _ ↦ hcr heq
    · exact hcr
  | case4 => rfl

/-- What is written as something plain is found as that. -/
theorem Reaches.of_isPlain {cs cs' : List Char} (hcs : cs.map allowedChar = cs')
    (h : IsPlain cs') : Reaches cs cs' := by
  intro rest
  have hlast : cs'.getLast? ≠ some '\r' := fun hlast ↦ (h _ (List.mem_of_getLast? hlast)).2 rfl
  rw [tidy, List.map_append, hcs, normalizeLineEnds_append (.inl hlast),
    normalizeLineEnds_of_isPlain h, tidy]

theorem Reaches.refl {cs : List Char} (h : IsPlain cs) : Reaches cs cs :=
  .of_isPlain (map_allowedChar_of_isAllowed (isForbidden_of_isPlain h)) h

/-- Escaping leaves line ends where they are. -/
theorem normalizeLineEnds_escapeText (cs : List Char) :
    normalizeLineEnds (escapeText cs) = escapeText (normalizeLineEnds cs) := by
  have hcons : ∀ c cs, escapeText (c :: cs) = escapeChar c ++ escapeText cs := fun _ _ ↦ rfl
  fun_induction normalizeLineEnds cs with
  | case1 cs ih => exact congrArg ('\n' :: ·) ih
  | case2 cs hcs ih =>
    have hhead : (escapeText cs).head? ≠ some '\n' := by
      cases cs with
      | nil => simp [escapeText]
      | cons d cs =>
        have hd : d ≠ '\n' := by
          rintro rfl
          exact hcs cs rfl
        rw [hcons, escapeChar]
        repeat' split
        all_goals simp [hd]
    rw [show escapeText ('\r' :: cs) = ['\r'] ++ escapeText cs from rfl,
      normalizeLineEnds_append (.inr hhead), ih]
    rfl
  | case3 c cs hcrlf hcr ih =>
    have hc : '\r' ∉ escapeChar c := by
      have hne : '\r' ≠ c := Ne.symm hcr
      rw [escapeChar]
      repeat' split
      all_goals first | decide | simpa using hne
    rw [hcons, hcons, normalizeLineEnds_append (.inl fun h ↦ hc (List.mem_of_getLast? h)), ih,
      normalizeLineEnds_eq_self hc]
  | case4 => rfl

theorem tidy_escapeText (cs : List Char) : tidy (escapeText cs) = escapeText (tidy cs) := by
  rw [tidy, escapeText, map_allowedChar_flatMap map_allowedChar_escapeChar, ← escapeText,
    normalizeLineEnds_escapeText, tidy]

/-- Characters are tidied part by part, unless a carriage return meets a line feed. -/
theorem tidy_append {cs ds : List Char} (h : cs.getLast? ≠ some '\r' ∨ ds.head? ≠ some '\n') :
    tidy (cs ++ ds) = tidy cs ++ tidy ds := by
  have hsame : ∀ d ∈ ['\n', '\r'], ∀ {c? : Option Char},
      c?.map allowedChar = some d → c? = some d := by
    intro d hd c? hc
    have hall : ∀ d ∈ ['\n', '\r'], isForbidden d = false ∧ d ≠ '\ufffd' := by decide
    obtain ⟨c, hc?, hc⟩ := Option.map_eq_some_iff.mp hc
    rw [hc?, (allowedChar_eq_iff (hall d hd).1 (hall d hd).2).mp hc]
  rw [tidy, List.map_append, normalizeLineEnds_append, tidy, tidy]
  rw [List.getLast?_map, List.head?_map]
  exact h.imp (mt (hsame '\r' (by decide))) (mt (hsame '\n' (by decide)))

/-- The last character of an escaped text is a carriage return only if that of the text is. -/
theorem getLast?_escapeText {cs : List Char} (h : cs.getLast? ≠ some '\r') :
    (escapeText cs).getLast? ≠ some '\r' := by
  rcases List.eq_nil_or_concat cs with rfl | ⟨front, c, rfl⟩
  · exact h
  · have hc : c ≠ '\r' := by
      rintro rfl
      exact h (by simp)
    rw [escapeText, List.concat_eq_append, List.flatMap_append, List.flatMap_singleton, escapeChar]
    repeat' split
    all_goals simp [hc]

/-- A text is found tidy in front of a tag, and in front of anything if its last line is not ended
by a carriage return. -/
theorem Reaches.escapeText_append {cs ds ds' : List Char}
    (h : cs.getLast? ≠ some '\r' ∨ ['<'] <+: ds) (hds : Reaches ds ds') :
    Reaches (escapeText cs ++ ds) (escapeText (tidy cs) ++ ds') := by
  intro rest
  have hends : (escapeText cs).getLast? ≠ some '\r' ∨ (ds ++ rest).head? ≠ some '\n' := by
    refine h.imp getLast?_escapeText ?_
    rintro ⟨ds, rfl⟩
    simp
  rw [List.append_assoc, tidy_append hends, tidy_escapeText, hds, List.append_assoc]

/-! ### Texts between blanks -/

/-- Blanks are read as blanks. -/
theorem areBlank_normalizeLineEnds {cs : List Char} (h : AreBlank cs) :
    AreBlank (normalizeLineEnds cs) := by
  intro c hc
  rcases mem_normalizeLineEnds hc with rfl | ⟨hc, -⟩
  · decide
  · exact h c hc

theorem normalizeLineEnds_singleton {c : Char} (h : c ≠ '\r') : normalizeLineEnds [c] = [c] :=
  normalizeLineEnds_eq_self (by simpa using Ne.symm h)

/-- A text without blanks at its ends is read as one. -/
theorem isStripped_normalizeLineEnds {cs : List Char} (h : IsStripped cs) :
    IsStripped (normalizeLineEnds cs) := by
  have hends : ∀ {c : Char}, isBlank c = false → c ≠ '\r' ∧ c ≠ '\n' := by
    intro c hc
    constructor <;> rintro rfl <;> exact absurd hc (by decide)
  constructor
  · intro d hd
    cases cs with
    | nil => cases hd
    | cons c rest =>
      have hc := h.head c rfl
      rw [← List.singleton_append, normalizeLineEnds_append (.inl (by simpa using (hends hc).1)),
        normalizeLineEnds_singleton (hends hc).1] at hd
      exact Option.some.inj hd ▸ hc
  · intro d hd
    rcases List.eq_nil_or_concat cs with rfl | ⟨front, c, rfl⟩
    · cases hd
    · have hc := h.last c (by simp)
      rw [List.concat_eq_append, normalizeLineEnds_append (.inr (by simpa using (hends hc).2)),
        normalizeLineEnds_singleton (hends hc).1, List.getLast?_concat] at hd
      exact Option.some.inj hd ▸ hc

/-- Line ends are read alike before and after stripping. -/
theorem normalizeLineEnds_stripChars (cs : List Char) :
    normalizeLineEnds (stripChars cs) = stripChars (normalizeLineEnds cs) := by
  obtain ⟨as, bs, has, hbs, hcs⟩ := exists_eq_append_stripChars cs
  have hstripped := isStripped_stripChars cs
  cases hmiddle : stripChars cs with
  | nil =>
    have hblank : AreBlank cs := by
      rw [hcs, hmiddle, List.append_nil]
      exact has.append hbs
    rw [stripChars_of_areBlank (areBlank_normalizeLineEnds hblank)]
    rfl
  | cons c rest =>
    rw [hmiddle] at hcs hstripped
    -- neither end of what is left belongs to a line end
    have hfirst : c ≠ '\n' := by
      rintro rfl
      exact absurd (hstripped.head '\n' rfl) (by decide)
    have hlast : (as ++ c :: rest).getLast? ≠ some '\r' := by
      rw [List.getLast?_append, List.getLast?_cons, Option.some_or, ← List.getLast?_cons]
      exact fun h ↦ absurd (hstripped.last '\r' h) (by decide)
    rw [hcs, normalizeLineEnds_append (.inl hlast),
      normalizeLineEnds_append (.inr (by simpa using hfirst)),
      (isStripped_normalizeLineEnds hstripped).stripChars_append
        (areBlank_normalizeLineEnds has) (areBlank_normalizeLineEnds hbs)]

/-- Characters are tidied alike before and after stripping, unless some of them are replaced. -/
theorem tidy_stripChars {cs : List Char} (h : ∀ c ∈ cs, isForbidden c = false) :
    tidy (stripChars cs) = stripChars (tidy cs) := by
  rw [tidy, tidy, map_allowedChar_of_isAllowed h,
    map_allowedChar_of_isAllowed fun c hc ↦ h c (stripChars_subset cs hc),
    normalizeLineEnds_stripChars]

/-! ### Markup on the way to a reader -/

namespace Markup

variable {indent : Option Nat}

mutual

/-- The markup with other texts and other attribute values. -/
def mapTexts (f g : String → String) : Markup → Markup
  | ⟨name, attributes, declarations, text, children⟩ =>
    ⟨name, attributes.map fun a ↦ (a.1, g a.2), declarations, f text, mapTextsAll f g children⟩

def mapTextsAll (f g : String → String) : List Markup → List Markup
  | [] => []
  | m :: rest => mapTexts f g m :: mapTextsAll f g rest

end

end Markup

/-- No text stands next to a child. -/
def Element.SeparatesText (x : Element) : Prop := x.children = [] ∨ x.ownText = ""

/-- No character of a text is replaced that stands next to a child. -/
def Element.KeepsText (x : Element) : Prop :=
  x.children = [] ∨ ∀ c ∈ x.ownText.toList, isForbidden c = false

theorem Element.SeparatesText.keepsText {x : Element} (h : x.SeparatesText) : x.KeepsText :=
  h.imp_right fun htext c hc ↦ by simp [htext] at hc

/-- A start tag is found with tidy values. -/
theorem reaches_renderStart {name : String} {attributes declarations : List (String × String)}
    {text : Value} {tail : Option String} {children : List Element}
    (h : Element.IsWritable ⟨name, (attributes.map fun a ↦ (a.1, clean a.2)) ++
      declarations.map fun d ↦ (declarationName d.2, d.1), text, tail, children⟩) :
    Reaches (renderStart name attributes declarations)
      (renderStart name (attributes.map fun a ↦ (a.1, clean a.2)) declarations) := by
  have hplain := isPlain_renderStart h
  rw [← renderStart_eq] at hplain
  refine .of_isPlain ?_ hplain
  have hpair : ∀ a ∈ attributes, (renderPair a.1.toList a.2).map allowedChar =
      renderPair a.1.toList (clean a.2) := by
    intro a ha
    have hname := isPlain_of_isWrittenName (h.keys (a.1, clean a.2)
      (List.mem_append_left _ (List.mem_map_of_mem ha)))
    rw [renderPair, renderPair, List.map_append, List.map_cons, List.map_cons,
      map_allowedChar_of_isAllowed (isForbidden_of_isPlain hname), map_allowedChar_quoteValue,
      clean, String.toList_ofList]
    rfl
  rw [renderStart] at hplain
  obtain ⟨hfront, hdeclarations⟩ := isPlain_append.mp hplain
  obtain ⟨hname, -⟩ := isPlain_append.mp hfront
  rw [renderStart, renderStart, List.map_append, List.map_append,
    map_allowedChar_of_isAllowed (isForbidden_of_isPlain hname),
    map_allowedChar_of_isAllowed (isForbidden_of_isPlain hdeclarations), List.map_flatMap,
    List.flatMap_map, List.flatMap_def, List.map_congr_left hpair, ← List.flatMap_def]

mutual

/-- What is rendered for markup whose texts and values are tidy is found where the markup is
rendered. -/
theorem reaches_render (level : Nat) :
    ∀ m : Markup, (∀ x ∈ m.written.nodes, x.KeepsText) →
      (∀ x ∈ (m.mapTexts tidyText clean).written.nodes, x.IsWritable) →
      Reaches (m.render indent level) ((m.mapTexts tidyText clean).render indent level)
  | ⟨name, attributes, declarations, text, []⟩, _, h => by
    have hnode := h _ List.mem_cons_self
    have hstart := reaches_renderStart hnode
    have hclose : Reaches ('<' :: '/' :: name.toList ++ ['>']) _ := .refl (isPlain_close hnode.tag)
    rw [Markup.mapTexts, render, Markup.mapTextsAll, render, isEmpty_tidyText]
    split
    · exact hstart.append (.refl (by decide +kernel))
    · -- the bracket of the end tag bounds the last line end of the text
      have hbracket : Reaches ['>'] ['>'] := .refl (by decide +kernel)
      have htext : Reaches (escapeText text.toList ++ ('<' :: '/' :: name.toList ++ ['>'])) _ :=
        hclose.escapeText_append (.inr (List.prefix_append ['<'] _))
      simpa [tidyText] using (hstart.append hbracket).append htext
  | ⟨name, attributes, declarations, text, child :: rest⟩, hkeeps, h => by
    have hnode := h _ List.mem_cons_self
    have hstart := reaches_renderStart hnode
    have hchildren : Reaches (renderAll indent level (child :: rest)) _ :=
      reaches_renderAll level (child :: rest) (fun x hx ↦ hkeeps x (List.mem_cons_of_mem _ hx))
        fun x hx ↦ h x (List.mem_cons_of_mem _ hx)
    have hallowed : ∀ c ∈ text.toList, isForbidden c = false :=
      (hkeeps _ List.mem_cons_self).resolve_left (List.cons_ne_nil _ _)
    let shown (cs : List Char) := if indent.isSome then stripChars cs else cs
    have htidy : tidy (shown text.toList) = shown (tidyText text).toList := by
      rw [tidyText, String.toList_ofList]
      cases indent with
      | none => rfl
      | some width => exact tidy_stripChars hallowed
    -- an indentation begins with a line feed, but the text before it is stripped
    have hends : (shown text.toList).getLast? ≠ some '\r' ∨
        ['<'] <+: renderAll indent level (child :: rest) := by
      cases indent with
      | none =>
        rw [renderAll_cons]
        exact .inr ((bracket_isPrefix (level + 1)).trans (List.prefix_append _ _))
      | some width =>
        refine .inl fun hlast ↦ ?_
        exact absurd ((isStripped_stripChars _).last '\r' hlast) (by decide)
    rw [Markup.mapTexts, Markup.mapTextsAll, render_of_children, render_of_children]
    have hbracket : Reaches ['>'] ['>'] := .refl (by decide +kernel)
    have hend := (Reaches.refl (isPlain_breakBefore indent level)).append
      (.refl (isPlain_close hnode.tag))
    have htext := hchildren.escapeText_append hends
    rw [htidy] at htext
    rw [Markup.mapTextsAll] at htext
    simpa [shown] using ((hstart.append hbracket).append htext).append hend

theorem reaches_renderAll (level : Nat) :
    ∀ ms : List Markup, (∀ x ∈ Element.nodesAll (writtenAll ms), x.KeepsText) →
      (∀ x ∈ Element.nodesAll (writtenAll (mapTextsAll tidyText clean ms)), x.IsWritable) →
      Reaches (renderAll indent level ms) (renderAll indent level (mapTextsAll tidyText clean ms))
  | [], _, _ => .refl isPlain_nil
  | m :: rest, hkeeps, h => by
    have hfirst : Reaches (m.render indent (level + 1)) _ := reaches_render (level + 1) m
      (fun x hx ↦ hkeeps x (List.mem_append_left _ hx))
      fun x hx ↦ h x (List.mem_append_left _ hx)
    have hrest : Reaches (renderAll indent level rest) _ := reaches_renderAll level rest
      (fun x hx ↦ hkeeps x (List.mem_append_right _ hx))
      fun x hx ↦ h x (List.mem_append_right _ hx)
    rw [Markup.mapTextsAll, renderAll_cons, renderAll_cons]
    exact ((Reaches.refl (isPlain_breakBefore _ _)).append hfirst).append hrest

end

/-! ### Trees with other texts -/

variable {w : Writer} {f g : String → String}

theorem WritesAttributes.mapValues {st st' : Naming} {attributes written : List (String × String)}
    (h : WritesAttributes w st attributes written st') :
    WritesAttributes w st (attributes.map fun a ↦ (a.1, g a.2))
      (written.map fun a ↦ (a.1, g a.2)) st' := by
  induction h with
  | nil st => exact .nil st
  | cons hname _ ih => exact .cons hname ih

mutual

/-- Which names are written depends neither on texts nor on attribute values. -/
theorem Writes.mapTexts : ∀ (e : Element) (m : Markup) (scope : PrefixTable), Writes w scope e m →
    Writes w scope (e.mapTexts f g) (m.mapTexts f g)
  | ⟨tag, attributes, text, tail, children⟩, ⟨name, attributes', declarations, text', children'⟩,
      scope, h => by
    obtain ⟨mid, st, hname, hattributes, rfl, rfl, hchildren⟩ := h.inv
    exact .element hname hattributes.mapValues rfl
      (WritesAll.mapTexts children children' _ hchildren)

theorem WritesAll.mapTexts : ∀ (es : List Element) (ms : List Markup) (scope : PrefixTable),
    WritesAll w scope es ms →
      WritesAll w scope (Element.mapTextsAll f g es) (Markup.mapTextsAll f g ms)
  | [], _, scope, .nil _ => .nil scope
  | e :: rest, _, scope, .cons hfirst hrest =>
    .cons (Writes.mapTexts e _ scope hfirst) (WritesAll.mapTexts rest _ scope hrest)

end

end ContactCard.Xml
