import ContactCard.Proofs.Text.Blank
import ContactCard.Proofs.Xml.Markup

/-!
# Reading written documents

Markup that may be written (`Element.IsWritable`) has proper names, no two attributes of one name,
and no characters that XML cannot hold; of carriage returns, which a reader turns into line feeds,
there are none in its texts. All that is written for it reaches a reader (`isPlain_render`), who
finds the element that the markup stands for, with or without a declaration in front of it
(`readWritten_of_toList`).
-/

namespace ContactCard.Xml

open Text Markup

/-! ### The characters of a document -/

/-- The characters reach a reader as they are. -/
def IsPlain (cs : List Char) : Prop := ∀ c ∈ cs, isXmlChar c = true ∧ c ≠ '\r'

instance (cs : List Char) : Decidable (IsPlain cs) :=
  inferInstanceAs (Decidable (∀ c ∈ cs, isXmlChar c = true ∧ c ≠ '\r'))

theorem isPlain_nil : IsPlain [] := fun _ hc ↦ absurd hc List.not_mem_nil

theorem isPlain_append {cs cs' : List Char} : IsPlain (cs ++ cs') ↔ IsPlain cs ∧ IsPlain cs' :=
  List.forall_mem_append

theorem isPlain_cons {c : Char} {cs : List Char} :
    IsPlain (c :: cs) ↔ (isXmlChar c = true ∧ c ≠ '\r') ∧ IsPlain cs := List.forall_mem_cons

theorem isPlain_flatMap {α : Type} {f : α → List Char} {as : List α} (h : ∀ a ∈ as, IsPlain (f a)) :
    IsPlain (as.flatMap f) := by
  intro c hc
  obtain ⟨a, ha, hc⟩ := List.mem_flatMap.mp hc
  exact h a ha c hc

theorem clean_of_isPlain {cs : List Char} (h : IsPlain cs) :
    (clean (String.ofList cs)).toList = cs := by
  have hsame : ∀ c ∈ cs, allowedChar c = c := by
    intro c hc
    rw [allowedChar, isForbidden_of_isXmlChar (h c hc).1]
    rfl
  rw [clean, String.toList_ofList, String.toList_ofList, List.map_congr_left hsame, List.map_id']

/-- Without carriage returns line ends are read as they are. -/
theorem normalizeLineEnds_eq_self {cs : List Char} (h : '\r' ∉ cs) : normalizeLineEnds cs = cs := by
  fun_induction normalizeLineEnds cs with
  | case1 cs ih => exact absurd List.mem_cons_self h
  | case2 cs _ ih => exact absurd List.mem_cons_self h
  | case3 c cs _ _ ih => rw [ih fun hcs ↦ h (List.mem_cons_of_mem _ hcs)]
  | case4 => rfl

theorem normalizeLineEnds_of_isPlain {cs : List Char} (h : IsPlain cs) :
    normalizeLineEnds cs = cs := normalizeLineEnds_eq_self fun hcr ↦ (h _ hcr).2 rfl

theorem isPlain_escapeChar {c : Char} (h : isXmlChar c = true) (hcr : c ≠ '\r') :
    IsPlain (escapeChar c) := by
  rw [escapeChar]
  split
  · decide +kernel
  split
  · decide +kernel
  split
  · decide +kernel
  · simpa [IsPlain] using ⟨h, hcr⟩

theorem isPlain_escapeAttributeChar {c : Char} (h : isXmlChar c = true) :
    IsPlain (escapeAttributeChar c) := by
  rw [escapeAttributeChar]
  split
  · decide +kernel
  split
  · decide +kernel
  · next hcr =>
    split
    · decide +kernel
    · exact isPlain_escapeChar h hcr

theorem isPlain_quoteValue {cs : List Char} (h : ∀ c ∈ cs, isXmlChar c = true) :
    IsPlain (quoteValue cs) := by
  have hescaped : IsPlain (cs.flatMap escapeAttributeChar) :=
    isPlain_flatMap fun c hc ↦ isPlain_escapeAttributeChar (h c hc)
  have hquoted : ∀ quote ∈ ['"', '\''], ∀ escaped, IsPlain escaped →
      IsPlain (quote :: escaped ++ [quote]) := by
    intro quote hquote escaped hplain
    have hone : IsPlain [quote] := by
      have : ∀ quote ∈ ['"', '\''], IsPlain [quote] := by decide +kernel
      exact this quote hquote
    exact isPlain_append.mpr ⟨isPlain_cons.mpr ⟨(isPlain_cons.mp hone).1, hplain⟩, hone⟩
  rw [quoteValue]
  split
  · split
    · refine hquoted '"' (by decide) _ (isPlain_flatMap fun c hc ↦ ?_)
      split
      · decide +kernel
      · exact isPlain_cons.mpr ⟨hescaped c hc, by decide⟩
    · exact hquoted '\'' (by decide) _ hescaped
  · exact hquoted '"' (by decide) _ hescaped

theorem isPlain_of_isWrittenName {cs : List Char} (h : isWrittenName cs = true) : IsPlain cs := by
  have hpart : ∀ c, isWrittenNamePart c = true → isXmlChar c = true ∧ c ≠ '\r' := by
    intro c hc
    refine ⟨?_, by rintro rfl; exact absurd hc (by decide +kernel)⟩
    rcases Bool.or_eq_true_iff.mp hc with hcolon | hc
    · rw [beq_iff_eq.mp hcolon]
      decide +kernel
    · exact isXmlChar_of_isNamePart hc
  cases cs with
  | nil => exact absurd h (by decide)
  | cons c cs =>
    obtain ⟨hc, hcs⟩ := Bool.and_eq_true_iff.mp h
    refine isPlain_cons.mpr ⟨hpart c ?_, fun d hd ↦ hpart d (List.all_eq_true.mp hcs d hd)⟩
    rcases Bool.or_eq_true_iff.mp hc with hcolon | hc
    · rw [isWrittenNamePart, hcolon, Bool.true_or]
    · rw [isWrittenNamePart, isNamePart_of_isNameStart hc, Bool.or_true]

namespace Element

/-- The element may be written: its names are names, no two attributes have one name, and all its
characters reach a reader. -/
structure IsWritable (x : Element) : Prop extends x.HasWrittenNames where
  nodup : (x.attributes.map Prod.fst).Nodup
  values : ∀ a ∈ x.attributes, ∀ c ∈ a.2.toList, isXmlChar c = true
  text : IsPlain x.ownText.toList

end Element

theorem isPlain_stripChars {cs : List Char} (h : IsPlain cs) : IsPlain (stripChars cs) :=
  fun c hc ↦ h c (stripChars_subset cs hc)

theorem isPlain_breakBefore (indent : Option Nat) (level : Nat) :
    IsPlain (breakBefore indent level) := by
  cases indent with
  | none => exact fun c hc ↦ absurd hc List.not_mem_nil
  | some width =>
    refine isPlain_cons.mpr ⟨by decide +kernel, fun c hc ↦ ?_⟩
    rw [List.eq_of_mem_replicate hc]
    decide +kernel

theorem isPlain_renderStart {e : Element} (h : e.IsWritable) :
    IsPlain ('<' :: (e.tag.toList ++ e.attributes.flatMap fun a ↦ renderPair a.1.toList a.2)) := by
  refine isPlain_cons.mpr ⟨by decide +kernel, isPlain_append.mpr
    ⟨isPlain_of_isWrittenName h.tag, isPlain_flatMap fun a ha ↦ ?_⟩⟩
  rw [renderPair]
  exact isPlain_append.mpr
    ⟨isPlain_cons.mpr ⟨by decide +kernel, isPlain_of_isWrittenName (h.keys a ha)⟩,
    isPlain_cons.mpr ⟨by decide +kernel, isPlain_quoteValue (h.values a ha)⟩⟩

theorem isPlain_close {name : String} (h : isWrittenName name.toList = true) :
    IsPlain ('<' :: '/' :: name.toList ++ ['>']) :=
  isPlain_append.mpr ⟨isPlain_cons.mpr ⟨by decide +kernel, isPlain_cons.mpr
    ⟨by decide +kernel, isPlain_of_isWrittenName h⟩⟩, by decide +kernel⟩

theorem isPlain_escapeText {cs : List Char} (h : IsPlain cs) : IsPlain (escapeText cs) :=
  isPlain_flatMap fun c hc ↦ isPlain_escapeChar (h c hc).1 (h c hc).2

variable {indent : Option Nat}

mutual

/-- What is rendered for markup that may be written reaches a reader. -/
theorem isPlain_render (level : Nat) :
    ∀ m : Markup, (∀ x ∈ m.written.nodes, x.IsWritable) → IsPlain (m.render indent level)
  | ⟨name, attributes, declarations, text, []⟩, h => by
    have hnode := h _ List.mem_cons_self
    have hstart := isPlain_renderStart hnode
    rw [← renderStart_eq] at hstart
    rw [render]
    split
    · exact isPlain_append.mpr ⟨hstart, by decide +kernel⟩
    · exact isPlain_append.mpr ⟨isPlain_append.mpr ⟨hstart, isPlain_cons.mpr
        ⟨by decide +kernel, isPlain_escapeText hnode.text⟩⟩, isPlain_close hnode.tag⟩
  | ⟨name, attributes, declarations, text, child :: rest⟩, h => by
    have hnode := h _ List.mem_cons_self
    have hstart := isPlain_renderStart hnode
    rw [← renderStart_eq] at hstart
    have htext : IsPlain (if indent.isSome then stripChars text.toList else text.toList) := by
      split
      · exact isPlain_stripChars hnode.text
      · exact hnode.text
    have hchildren := isPlain_renderAll level (child :: rest)
      fun x hx ↦ h x (List.mem_cons_of_mem _ hx)
    rw [render_of_children]
    refine isPlain_append.mpr ⟨isPlain_append.mpr ⟨isPlain_append.mpr ⟨isPlain_append.mpr
      ⟨hstart, ?_⟩, hchildren⟩, isPlain_breakBefore _ _⟩, isPlain_close hnode.tag⟩
    exact isPlain_cons.mpr ⟨by decide +kernel, isPlain_escapeText htext⟩

theorem isPlain_renderAll (level : Nat) :
    ∀ ms : List Markup, (∀ x ∈ Element.nodesAll (writtenAll ms), x.IsWritable) →
      IsPlain (renderAll indent level ms)
  | [], _ => fun c hc ↦ absurd hc List.not_mem_nil
  | m :: rest, h => by
    have hfirst := isPlain_render (level + 1) m fun x hx ↦ h x (List.mem_append_left _ hx)
    have hrest := isPlain_renderAll level rest fun x hx ↦ h x (List.mem_append_right _ hx)
    rw [renderAll_cons]
    exact isPlain_append.mpr ⟨isPlain_append.mpr ⟨isPlain_breakBefore _ _, hfirst⟩, hrest⟩

end

/-! ### Documents -/

theorem renderStart_isPrefix (level : Nat) (m : Markup) :
    renderStart m.name m.attributes m.declarations <+: m.render indent level := by
  obtain ⟨name, attributes, declarations, text, children⟩ := m
  cases children with
  | nil =>
    rw [render]
    split
    · exact List.prefix_append _ _
    · exact (List.prefix_append _ _).trans (List.prefix_append _ _)
  | cons child rest =>
    rw [render_of_children, List.append_assoc, List.append_assoc, List.append_assoc]
    exact List.prefix_append _ _

theorem bracket_isSuffix (level : Nat) (m : Markup) : ['>'] <:+ m.render indent level := by
  obtain ⟨name, attributes, declarations, text, children⟩ := m
  cases children with
  | nil =>
    rw [render]
    split
    · exact (List.suffix_append ['/'] ['>']).trans (List.suffix_append _ _)
    · exact (List.suffix_append _ _).trans (List.suffix_append _ _)
  | cons child rest =>
    rw [render_of_children]
    exact (List.suffix_append _ _).trans (List.suffix_append _ _)

/-- Blanks around something in brackets are dropped. -/
theorem trim_append {before cs after : List Char} (hbefore : ∀ c ∈ before, isSpace c = true)
    (hafter : ∀ c ∈ after, isSpace c = true) (hfirst : ['<'] <+: cs) (hlast : ['>'] <:+ cs) :
    trim (before ++ cs ++ after) = cs := by
  obtain ⟨rest, hrest⟩ := hfirst
  obtain ⟨front, hfront⟩ := hlast
  have hleft : (before ++ cs ++ after).dropWhile isSpace = cs ++ after := by
    rw [List.append_assoc, List.dropWhile_append_of_pos hbefore, ← hrest]
    rfl
  have hright : (cs ++ after).reverse.dropWhile isSpace = cs.reverse := by
    rw [List.reverse_append, List.dropWhile_append_of_pos (by simpa using hafter), ← hfront,
      List.reverse_append]
    rfl
  rw [trim, hleft, hright, List.reverse_reverse]

/-- The tokens of a document are those of its root. -/
theorem scan_render {m : Markup} (h : ∀ x ∈ m.written.nodes, x.HasWrittenNames) (level : Nat) :
    scan (.text []) (m.render indent level) = some (m.written.layout indent level).tokens := by
  have hread : Reads (.text []) (m.render indent level) _ _ := reads_render level m h []
  simpa [scan, textTokens] using hread []

variable {m : Markup}

theorem bracket_isPrefix (level : Nat) : ['<'] <+: m.render indent level := by
  refine List.IsPrefix.trans ?_ (renderStart_isPrefix level m)
  rw [renderStart_eq]
  exact List.prefix_append ['<'] _

/-- What is rendered does not look like a declaration. -/
theorem dropDeclaration_render (h : isWrittenName m.name.toList = true) (level : Nat) :
    dropDeclaration (m.render indent level) = m.render indent level := by
  obtain ⟨c, cs, hname⟩ : ∃ c cs, m.name.toList = c :: cs :=
    List.exists_cons_of_ne_nil (by rintro hnil; simp [hnil, isWrittenName] at h)
  have hc : '?' ≠ c := by
    rintro rfl
    rw [hname, isWrittenName] at h
    exact absurd (Bool.and_eq_true_iff.mp h).1 (by decide +kernel)
  obtain ⟨rest, hrest⟩ : renderStart m.name m.attributes m.declarations <+: m.render indent level :=
    renderStart_isPrefix level m
  have hnot : declaration.isPrefixOf (m.render indent level) = false := by
    have hdeclaration : declaration = '<' :: '?' :: declaration.drop 2 := by decide
    rw [← hrest, renderStart_eq, hname, hdeclaration]
    simp [List.isPrefixOf, hc]
  rw [dropDeclaration, hnot]
  rfl

/-- What may stand before the element of a document and around it. -/
structure IsFrame (before blank : List Char) : Prop where
  before : before = [] ∧ blank = [] ∨ before = declaration
  blank : ∀ c ∈ blank, c = '\n'

variable {before blank : List Char}

theorem IsFrame.isPlain_blank (hframe : IsFrame before blank) : IsPlain blank := by
  intro c hc
  rw [hframe.blank c hc]
  decide +kernel

theorem IsFrame.isPlain (hframe : IsFrame before blank)
    (h : ∀ x ∈ m.written.nodes, x.IsWritable) :
    IsPlain (before ++ blank ++ m.render indent 0 ++ blank) := by
  have hdeclaration : IsPlain declaration := by decide +kernel
  have hbreaks := hframe.isPlain_blank
  refine isPlain_append.mpr ⟨isPlain_append.mpr ⟨isPlain_append.mpr ⟨?_, hbreaks⟩,
    isPlain_render 0 m h⟩, hbreaks⟩
  rcases hframe.before with ⟨rfl, -⟩ | rfl
  · exact isPlain_nil
  · exact hdeclaration

/-- A document that reaches a reader as what is rendered, perhaps with a declaration before it and
blanks around it, is read as the element that the markup stands for, as it is laid out. -/
theorem readWritten_of_normalizeLineEnds (h : ∀ x ∈ m.written.nodes, x.IsWritable) {s : String}
    (hframe : IsFrame before blank)
    (hs : normalizeLineEnds s.toList = before ++ blank ++ m.render indent 0 ++ blank) :
    readWritten s = some (m.written.layout indent 0) := by
  have hroot : m.written.IsWritable := h _ (by cases m; exact List.mem_cons_self)
  have hname : isWrittenName m.name.toList = true := by cases m; exact hroot.tag
  have hspace : ∀ c ∈ blank, isSpace c = true := by
    intro c hc
    rw [hframe.blank c hc]
    rfl
  -- what is rendered begins and ends with a bracket, so only the blanks around it go
  have htrim : trim (blank ++ m.render indent 0 ++ blank) = m.render indent 0 :=
    trim_append hspace hspace (bracket_isPrefix 0) (bracket_isSuffix 0 m)
  have hdrop : trim (dropDeclaration (before ++ blank ++ m.render indent 0 ++ blank)) =
      m.render indent 0 := by
    rcases hframe.before with ⟨rfl, rfl⟩ | rfl
    · simpa [dropDeclaration_render hname] using htrim
    · have hpre : declaration.isPrefixOf
          (declaration ++ blank ++ m.render indent 0 ++ blank) = true := by
        rw [List.isPrefixOf_iff_prefix]
        simp only [List.append_assoc]
        exact List.prefix_append _ _
      rw [dropDeclaration, if_pos hpre]
      simpa using htrim
  rw [readWritten, hs, if_pos (List.all_eq_true.mpr fun c hc ↦ (hframe.isPlain h c hc).1), hdrop,
    scan_render fun x hx ↦ (h x hx).toHasWrittenNames]
  exact Element.tree?_tokens_layout (fun x hx ↦ (h x hx).nodup) 0

/-- A document of plain characters reaches a reader as it is. -/
theorem readWritten_of_toList (h : ∀ x ∈ m.written.nodes, x.IsWritable) {s : String}
    (hframe : IsFrame before blank)
    (hs : s.toList = before ++ blank ++ m.render indent 0 ++ blank) :
    readWritten s = some (m.written.layout indent 0) :=
  readWritten_of_normalizeLineEnds h hframe
    (hs ▸ normalizeLineEnds_of_isPlain (hs ▸ hframe.isPlain h))

end ContactCard.Xml
