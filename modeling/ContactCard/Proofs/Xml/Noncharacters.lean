import ContactCard.Proofs.Xml.Tidy

/-!
# Noncharacters in documents

Control characters are replaced when a tree is written, and of all other characters there are only
two that no document may hold. These, the noncharacters, are written as they are, wherever they
stand in the tree: texts and values are escaped, which does not change them, and names keep their
local parts. A namespace is not written with the names that are in it, but it is declared where it
is met first, so it gets into the document as well. Prefixes are no way for a noncharacter to get
there, unless one is registered with it. So a document is made up of legal characters if and only if
its tree holds no noncharacter anywhere (`writeDocument_isXmlChar_iff`).

The step that carries this is the choice of a prefix: where the scope avoids the character, it still
does so afterwards if and only if the namespace avoids it (`Chooses.avoids_iff`).
-/

namespace ContactCard.Xml

open Text Markup

variable {w : Writer} {e : Element} {c : Char} {indent : Option Nat}

/-! ### Written characters -/

/-- Noncharacters are written as they are, but no other character is written with them. -/
theorem noncharacters_facts : ∀ c ∈ noncharacters, isXmlChar c = false ∧ isForbidden c = false ∧
    isBlank c = false ∧ ∀ s ∈ ["&amp;", "&lt;", "&gt;", "&#10;", "&#13;", "&#9;", "&quot;"], c ∉ s.toList := by
  decide +kernel

theorem ne_of_isXmlChar {d : Char} (hnon : c ∈ noncharacters) (hd : isXmlChar d = true) :
    c ≠ d := by
  rintro rfl
  rw [(noncharacters_facts c hnon).1] at hd
  exact absurd hd (by decide)

theorem not_mem_of_isXmlChar {cs : List Char} (hnon : c ∈ noncharacters)
    (hcs : ∀ d ∈ cs, isXmlChar d = true) : c ∉ cs :=
  fun hc ↦ ne_of_isXmlChar hnon (hcs c hc) rfl

/-- What is written for another character makes no difference. -/
theorem mem_ite_iff {d special : Char} {s : String} {ds : List Char} (hnon : c ∈ noncharacters)
    (hspecial : isXmlChar special = true) (hs : c ∉ s.toList) (hds : c ∈ ds ↔ c = d) :
    c ∈ (if d = special then s.toList else ds) ↔ c = d := by
  split
  · next h => exact iff_of_false hs (h ▸ ne_of_isXmlChar hnon hspecial)
  · exact hds

theorem mem_escapeChar_iff (hnon : c ∈ noncharacters) {d : Char} : c ∈ escapeChar d ↔ c = d := by
  obtain ⟨-, -, -, hreferences⟩ := noncharacters_facts c hnon
  rw [escapeChar]
  refine mem_ite_iff hnon (by decide) (hreferences _ (by simp)) ?_
  refine mem_ite_iff hnon (by decide) (hreferences _ (by simp)) ?_
  exact mem_ite_iff hnon (by decide) (hreferences _ (by simp)) List.mem_singleton

theorem mem_escapeAttributeChar_iff (hnon : c ∈ noncharacters) {d : Char} :
    c ∈ escapeAttributeChar d ↔ c = d := by
  obtain ⟨-, -, -, hreferences⟩ := noncharacters_facts c hnon
  rw [escapeAttributeChar]
  refine mem_ite_iff hnon (by decide) (hreferences _ (by simp)) ?_
  refine mem_ite_iff hnon (by decide) (hreferences _ (by simp)) ?_
  exact mem_ite_iff hnon (by decide) (hreferences _ (by simp)) (mem_escapeChar_iff hnon)

theorem mem_escapeText_iff (hnon : c ∈ noncharacters) {cs : List Char} :
    c ∈ escapeText cs ↔ c ∈ cs := by
  simp [escapeText, List.mem_flatMap, mem_escapeChar_iff hnon]

theorem mem_quoteValue_iff (hnon : c ∈ noncharacters) {cs : List Char} :
    c ∈ quoteValue cs ↔ c ∈ cs := by
  have hescaped : c ∈ cs.flatMap escapeAttributeChar ↔ c ∈ cs := by
    simp [List.mem_flatMap, mem_escapeAttributeChar_iff hnon]
  have hquote (d : Char) : c ∈ (if d = '"' then "&quot;".toList else [d]) ↔ c = d :=
    mem_ite_iff hnon (by decide) ((noncharacters_facts c hnon).2.2.2 _ (by simp)) List.mem_singleton
  have hquoted : c ∈ ((cs.flatMap escapeAttributeChar).flatMap fun d ↦
      if d = '"' then "&quot;".toList else [d]) ↔ c ∈ cs := by
    rw [List.mem_flatMap]
    simp only [hquote, exists_eq_right', hescaped]
  have hends {quote : Char} (h : isXmlChar quote = true) (ds : List Char) :
      c ∈ quote :: ds ++ [quote] ↔ c ∈ ds := by
    simp [ne_of_isXmlChar hnon h]
  rw [quoteValue]
  split
  · split
    · exact (hends (by decide) _).trans hquoted
    · exact (hends (by decide) _).trans hescaped
  · exact (hends (by decide) _).trans hescaped

/-! ### Markup -/

/-- The character is nowhere in the tag, the attributes and the text of the element. -/
structure Element.Avoids (x : Element) (c : Char) : Prop where
  tag : c ∉ x.tag.toList
  attributes : ∀ a ∈ x.attributes, c ∉ a.1.toList ∧ c ∉ a.2.toList
  text : c ∉ x.ownText.toList

theorem Element.avoids_iff {x : Element} : x.Avoids c ↔ c ∉ x.tag.toList ∧
    (∀ a ∈ x.attributes, c ∉ a.1.toList ∧ c ∉ a.2.toList) ∧ c ∉ x.ownText.toList :=
  ⟨fun h ↦ ⟨h.tag, h.attributes, h.text⟩, fun h ↦ ⟨h.1, h.2.1, h.2.2⟩⟩

instance (x : Element) (c : Char) : Decidable (x.Avoids c) :=
  decidable_of_iff _ Element.avoids_iff.symm

theorem not_mem_renderPair_iff (hnon : c ∈ noncharacters) {name : List Char} {value : String} :
    c ∉ renderPair name value ↔ c ∉ name ∧ c ∉ value.toList := by
  have hends : c ≠ ' ' ∧ c ≠ '=' :=
    ⟨ne_of_isXmlChar hnon (by decide), ne_of_isXmlChar hnon (by decide)⟩
  simp [renderPair, mem_quoteValue_iff hnon, hends]

theorem not_mem_renderStart_iff (hnon : c ∈ noncharacters) {name : String}
    {attributes declarations : List (String × String)} :
    c ∉ renderStart name attributes declarations ↔ c ∉ name.toList ∧
      ∀ a ∈ attributes ++ declarations.map fun d ↦ (declarationName d.2, d.1),
        c ∉ a.1.toList ∧ c ∉ a.2.toList := by
  have hbracket : c ≠ '<' := ne_of_isXmlChar hnon (by decide)
  rw [renderStart_eq, List.mem_cons, List.mem_append, List.mem_flatMap]
  simp only [hbracket, false_or, not_or, not_exists, not_and, not_mem_renderPair_iff hnon]

/-- A start tag and a text show all that an element holds. -/
theorem avoids_written_iff (hnon : c ∈ noncharacters) (name text : String)
    (attributes declarations : List (String × String)) (children : List Element) :
    Element.Avoids ⟨name, attributes ++ declarations.map fun d ↦ (declarationName d.2, d.1),
        .text text, none, children⟩ c ↔
      c ∉ renderStart name attributes declarations ∧ c ∉ text.toList := by
  rw [Element.avoids_iff, not_mem_renderStart_iff hnon, and_assoc]
  rfl

theorem not_mem_breakBefore (hnon : c ∈ noncharacters) (level : Nat) :
    c ∉ breakBefore indent level :=
  not_mem_of_isXmlChar hnon fun d hd ↦ (isPlain_breakBefore indent level d hd).1

/-- The end tag shows nothing that the start tag does not show. -/
theorem not_mem_close (hnon : c ∈ noncharacters) {name : String}
    {attributes declarations : List (String × String)}
    (h : c ∉ renderStart name attributes declarations) :
    c ∉ '<' :: '/' :: name.toList ++ ['>'] := by
  have hname := ((not_mem_renderStart_iff hnon).mp h).1
  have hends : c ≠ '<' ∧ c ≠ '/' ∧ c ≠ '>' :=
    ⟨ne_of_isXmlChar hnon (by decide), ne_of_isXmlChar hnon (by decide),
      ne_of_isXmlChar hnon (by decide)⟩
  simp [hname, hends]

mutual

/-- A noncharacter is in what is rendered for markup unless it is nowhere in the markup. -/
theorem not_mem_render_iff (hnon : c ∈ noncharacters) (level : Nat) :
    ∀ m : Markup, c ∉ m.render indent level ↔ ∀ x ∈ m.written.nodes, x.Avoids c
  | ⟨name, attributes, declarations, text, []⟩ => by
    have hnode := avoids_written_iff hnon name text attributes declarations (writtenAll [])
    have hbracket : c ≠ '>' := ne_of_isXmlChar hnon (by decide)
    show _ ↔ ∀ x ∈ [(_ : Element)], x.Avoids c
    rw [List.forall_mem_singleton, hnode, render]
    split
    · next hempty =>
      have hends : c ∉ ['/', '>'] := not_mem_of_isXmlChar hnon (by decide)
      rw [String.isEmpty_iff.mp hempty, List.mem_append]
      simp [hends]
    · rw [List.mem_append, List.mem_append, List.mem_cons, mem_escapeText_iff hnon, not_or, not_or,
        not_or, and_iff_right hbracket]
      exact and_iff_left_of_imp fun h ↦ not_mem_close hnon h.1
  | ⟨name, attributes, declarations, text, child :: rest⟩ => by
    have hnode := avoids_written_iff hnon name text attributes declarations
      (writtenAll (child :: rest))
    have hstrip : c ∈ (if indent.isSome then stripChars text.toList else text.toList) ↔
        c ∈ text.toList := by
      split
      · exact ⟨fun hc ↦ stripChars_subset _ hc,
          fun hc ↦ mem_stripChars hc (noncharacters_facts c hnon).2.2.1⟩
      · exact Iff.rfl
    have hbracket : c ≠ '>' := ne_of_isXmlChar hnon (by decide)
    rw [written, Element.nodes, List.forall_mem_cons, hnode,
      ← not_mem_renderAll_iff hnon level (child :: rest), render_of_children, List.mem_append,
      List.mem_append, List.mem_append, List.mem_append, List.mem_cons, mem_escapeText_iff hnon,
      hstrip]
    simp only [not_or, hbracket, not_false_eq_true, true_and,
      not_mem_breakBefore hnon level, and_true]
    exact and_iff_left_of_imp fun h ↦ not_mem_close hnon h.1.1

theorem not_mem_renderAll_iff (hnon : c ∈ noncharacters) (level : Nat) :
    ∀ ms : List Markup, c ∉ renderAll indent level ms ↔
      ∀ x ∈ Element.nodesAll (writtenAll ms), x.Avoids c
  | [] => iff_of_true List.not_mem_nil fun x hx ↦ absurd hx List.not_mem_nil
  | m :: rest => by
    have hnodes : Element.nodesAll (writtenAll (m :: rest)) =
        m.written.nodes ++ Element.nodesAll (writtenAll rest) := rfl
    rw [renderAll_cons, hnodes, List.forall_mem_append, ← not_mem_render_iff hnon (level + 1) m,
      ← not_mem_renderAll_iff hnon level rest, List.mem_append, List.mem_append, not_or, not_or,
      and_iff_right (not_mem_breakBefore hnon _)]

end

/-! ### Prefixes -/

/-- All prefixes that are registered are texts without noncharacters. -/
structure Writer.HasLegalPrefixes (w : Writer) : Prop where
  oddities : w.oddities = []
  chars : ∀ pre ∈ w.prefixes.values, ∀ c ∈ noncharacters, c ∉ pre.toList

theorem Writer.HasLegalPrefixes.new (d : Option String) (n : Nat) :
    Writer.HasLegalPrefixes { Writer.new d with nextNumber := n } := by
  refine ⟨rfl, fun pre hpre ↦ ?_⟩
  obtain rfl : pre = "xml" := List.mem_singleton.mp hpre
  decide

/-- The character is in no prefix in scope and in no namespace that has one. -/
def PrefixTable.Avoids (scope : PrefixTable) (c : Char) : Prop :=
  ∀ ns pre, scope.get? ns = some pre → c ∉ ns.toList ∧ c ∉ pre.toList

/-- The scope inside a start tag is the one around it, and what the tag declares. -/
structure Naming.Adds (scope : PrefixTable) (st : Naming) : Prop where
  declared : ∀ d ∈ st.declared, st.scope.get? d.1 = some d.2
  origin : ∀ ns pre, st.scope.get? ns = some pre →
    scope.get? ns = some pre ∨ (ns, pre) ∈ st.declared

variable {scope : PrefixTable} {st st' : Naming} {isElement : Bool} {ns pre : String}

theorem PrefixTable.avoids_empty (c : Char) : PrefixTable.Avoids ∅ c := by
  intro ns pre h
  exact absurd (show none = some pre from h) (by simp)

/-- A scope avoids a character if what the tag declares does. -/
theorem Naming.Adds.avoids_iff (h : st.Adds scope) (hscope : scope.Avoids c) :
    PrefixTable.Avoids st.scope c ↔ ∀ d ∈ st.declared, c ∉ d.1.toList ∧ c ∉ d.2.toList := by
  constructor
  · exact fun havoids d hd ↦ havoids d.1 d.2 (h.declared d hd)
  · intro hdeclared ns pre hget
    exact (h.origin ns pre hget).elim (hscope ns pre) (hdeclared (ns, pre))

theorem Chooses.adds (h : Chooses w isElement st ns pre st') (hst : st.Adds scope) :
    st'.Adds scope := by
  rcases h.eq_or_eq_declare with rfl | ⟨hns, rfl⟩
  · exact hst
  · refine ⟨get?_of_mem_declare hns hst.declared, fun ns' pre' hget ↦ ?_⟩
    rcases eq_or_of_get?_declare hget with ⟨rfl, rfl⟩ | hget
    · exact .inr (List.mem_append_right _ (List.mem_singleton_self _))
    · exact (hst.origin ns' pre' hget).imp_right (List.mem_append_left _)

theorem WritesName.adds {name written : String} (h : WritesName w isElement st name written st')
    (hst : st.Adds scope) : st'.Adds scope := by
  cases h with
  | plain h => exact hst
  | qualified h hpre => exact hpre.adds hst

theorem WritesAttributes.adds {attributes written : List (String × String)}
    (h : WritesAttributes w st attributes written st') (hst : st.Adds scope) : st'.Adds scope := by
  induction h with
  | nil st => exact hst
  | cons hname hrest ih => exact ih (hname.adds hst)

/-- No prefix is chosen that holds a noncharacter. -/
theorem Chooses.not_mem_prefix (hw : w.HasLegalPrefixes) (hnon : c ∈ noncharacters)
    (h : Chooses w isElement st ns pre st') (hst : PrefixTable.Avoids st.scope c) :
    c ∉ pre.toList := by
  cases h with
  | inScope h => exact (hst ns pre h).2
  | reserved hscope h => exact not_mem_of_isXmlChar hnon (by decide)
  | default hscope hns he h => exact List.not_mem_nil
  | registered hscope hns hdefault h =>
    exact hw.chars pre (OrderedMap.mem_values_of_get? h) c hnon
  | new hscope hns hdefault h =>
    exact not_mem_of_isXmlChar hnon fun d hd ↦
      isXmlChar_of_isNamePart (isNamePart_of_isNCName (isNCName_numberedPrefix _) d hd)

/-- After a prefix was chosen, the scope avoids a noncharacter just when the namespace does. -/
theorem Chooses.avoids_iff (hw : w.HasLegalPrefixes) (hnon : c ∈ noncharacters)
    (h : Chooses w isElement st ns pre st') (hst : PrefixTable.Avoids st.scope c) :
    PrefixTable.Avoids st'.scope c ↔ c ∉ ns.toList := by
  constructor
  · intro hst'
    rcases h.knows with hget | ⟨rfl, -⟩
    · exact (hst' ns pre hget).1
    · exact not_mem_of_isXmlChar hnon (by decide)
  · intro hns
    rcases h.eq_or_eq_declare with rfl | ⟨-, rfl⟩
    · exact hst
    · intro ns' pre' hget
      rcases eq_or_of_get?_declare hget with ⟨rfl, rfl⟩ | hget
      · exact ⟨hns, h.not_mem_prefix hw hnon hst⟩
      · exact hst ns' pre' hget

/-! ### Names -/

theorem not_mem_expandedName_iff (hnon : c ∈ noncharacters) {plain : String} :
    c ∉ (expandedName ns plain).toList ↔ c ∉ ns.toList ∧ c ∉ plain.toList := by
  have hbraces : c ≠ '\x7b' ∧ c ≠ '\x7d' :=
    ⟨ne_of_isXmlChar hnon (by decide), ne_of_isXmlChar hnon (by decide)⟩
  simp [expandedName, String.toList_append, hbraces]

theorem not_mem_joinName_iff (hnon : c ∈ noncharacters) {plain : String} (hpre : c ∉ pre.toList) :
    c ∉ (joinName pre plain).toList ↔ c ∉ plain.toList := by
  have hcolon : c ≠ ':' := ne_of_isXmlChar hnon (by decide)
  rw [joinName]
  split
  · exact Iff.rfl
  · simp [String.toList_append, hpre, hcolon]

theorem not_mem_declarationName_iff (hnon : c ∈ noncharacters) :
    c ∉ (declarationName pre).toList ↔ c ∉ pre.toList := by
  have hxmlns : c ∉ "xmlns".toList ∧ c ∉ "xmlns:".toList :=
    ⟨not_mem_of_isXmlChar hnon (by decide), not_mem_of_isXmlChar hnon (by decide)⟩
  rw [declarationName]
  split
  · next h =>
    rw [String.isEmpty_iff.mp h]
    exact iff_of_true hxmlns.1 List.not_mem_nil
  · rw [String.toList_append, List.mem_append, not_or, and_iff_right hxmlns.2]

/-- A name shows a noncharacter in what is written for it or in what is declared with it. -/
theorem WritesName.avoids_iff (hw : w.HasLegalPrefixes) (hnon : c ∈ noncharacters)
    {name written : String} (h : WritesName w isElement st name written st')
    (hst : PrefixTable.Avoids st.scope c) :
    PrefixTable.Avoids st'.scope c ∧ c ∉ written.toList ↔ c ∉ name.toList := by
  cases h with
  | plain h =>
    rcases eq_of_splitName h with ⟨-, hparts⟩ | ⟨ns, plain, hparts, -⟩
    · obtain ⟨-, rfl⟩ := Prod.mk.inj hparts
      exact and_iff_right hst
    · exact absurd (congrArg Prod.fst hparts) (by simp)
  | qualified h hpre =>
    rcases eq_of_splitName h with ⟨-, hparts⟩ | ⟨ns, plain, hparts, rfl⟩
    · exact absurd (congrArg Prod.fst hparts) (by simp)
    · obtain ⟨hns, rfl⟩ := Prod.mk.inj hparts
      obtain rfl := Option.some.inj hns
      rw [hpre.avoids_iff hw hnon hst,
        not_mem_joinName_iff hnon (hpre.not_mem_prefix hw hnon hst),
        not_mem_expandedName_iff hnon]

theorem WritesAttributes.avoids_iff (hw : w.HasLegalPrefixes) (hnon : c ∈ noncharacters)
    {attributes written : List (String × String)}
    (h : WritesAttributes w st attributes written st') (hst : PrefixTable.Avoids st.scope c) :
    (PrefixTable.Avoids st'.scope c ∧ ∀ a ∈ written, c ∉ a.1.toList ∧ c ∉ a.2.toList) ↔
      ∀ a ∈ attributes, c ∉ a.1.toList ∧ c ∉ a.2.toList := by
  induction h with
  | nil st => simpa using hst
  | @cons st mid st' name written value rest rest' hname hrest ih =>
    have hname' := hname.avoids_iff hw hnon hst
    rw [List.forall_mem_cons, List.forall_mem_cons, ← hname']
    constructor
    · rintro ⟨hst', ⟨hwritten, hvalue⟩, hwrittens⟩
      -- what is in scope after the first name still is after all of them
      have hmid : PrefixTable.Avoids mid.scope c :=
        fun ns pre hget ↦ hst' ns pre (hrest.extends ns pre hget)
      exact ⟨⟨⟨hmid, hwritten⟩, hvalue⟩, (ih hmid).mp ⟨hst', hwrittens⟩⟩
    · rintro ⟨⟨⟨hmid, hwritten⟩, hvalue⟩, hattributes⟩
      obtain ⟨hst', hwrittens⟩ := (ih hmid).mpr hattributes
      exact ⟨hst', ⟨hwritten, hvalue⟩, hwrittens⟩

/-! ### Trees -/

section StartTag

variable {mid : Naming} {x : Element} {name : String} {written : List (String × String)}

/-- Inside an element without the character, the scope avoids it, too. -/
theorem Element.Avoids.avoids_scope (hw : w.HasLegalPrefixes) (hnon : c ∈ noncharacters)
    (hx : x.Avoids c) (hscope : scope.Avoids c)
    (hname : WritesName w true ⟨scope, []⟩ x.tag name mid)
    (hattributes : WritesAttributes w mid x.attributes written st) :
    PrefixTable.Avoids st.scope c := by
  obtain ⟨hmid, -⟩ := (hname.avoids_iff hw hnon hscope).mpr hx.tag
  exact ((hattributes.avoids_iff hw hnon hmid).mpr hx.attributes).1

/-- The start tag and the text of an element show a noncharacter just when the element holds it. -/
theorem avoids_startTag_iff (hw : w.HasLegalPrefixes) (hnon : c ∈ noncharacters)
    (hscope : scope.Avoids c) (hname : WritesName w true ⟨scope, []⟩ x.tag name mid)
    (hattributes : WritesAttributes w mid x.attributes written st) (children : List Element) :
    Element.Avoids ⟨name, written ++ st.declared.map fun d ↦ (declarationName d.2, d.1),
      .text x.ownText, none, children⟩ c ↔ x.Avoids c := by
  have hadds : st.Adds scope :=
    hattributes.adds (hname.adds ⟨by simp, fun ns pre hget ↦ .inl hget⟩)
  have hdeclared : (∀ a ∈ st.declared.map fun d ↦ (declarationName d.2, d.1),
      c ∉ a.1.toList ∧ c ∉ a.2.toList) ↔ PrefixTable.Avoids st.scope c := by
    rw [hadds.avoids_iff hscope, List.forall_mem_map]
    simp only [not_mem_declarationName_iff hnon, and_comm]
  rw [Element.avoids_iff, List.forall_mem_append, hdeclared]
  constructor
  · rintro ⟨hname', ⟨hwritten, hst⟩, htext⟩
    have hmid : PrefixTable.Avoids mid.scope c :=
      fun ns pre hget ↦ hst ns pre (hattributes.extends ns pre hget)
    exact ⟨(hname.avoids_iff hw hnon hscope).mp ⟨hmid, hname'⟩,
      (hattributes.avoids_iff hw hnon hmid).mp ⟨hst, hwritten⟩, htext⟩
  · intro hx
    obtain ⟨hmid, hname'⟩ := (hname.avoids_iff hw hnon hscope).mpr hx.tag
    obtain ⟨hst, hwritten⟩ := (hattributes.avoids_iff hw hnon hmid).mpr hx.attributes
    exact ⟨hname', ⟨hwritten, hst⟩, hx.text⟩

end StartTag

mutual

/-- A noncharacter is nowhere in the markup of a tree if and only if it is nowhere in the tree. -/
theorem Writes.avoids_iff (hw : w.HasLegalPrefixes) (hnon : c ∈ noncharacters) :
    ∀ (e : Element) (m : Markup) (scope : PrefixTable), Writes w scope e m → scope.Avoids c →
      ((∀ x ∈ m.written.nodes, x.Avoids c) ↔ ∀ x ∈ e.nodes, x.Avoids c)
  | ⟨tag, attributes, text, tail, children⟩, ⟨name, written, declarations, text', children'⟩,
      scope, h, hscope => by
    obtain ⟨mid, st, hname, hattributes, rfl, rfl, hchildren⟩ := h.inv
    have hstart := avoids_startTag_iff (x := ⟨tag, attributes, text, tail, children⟩) hw hnon hscope
      hname hattributes (writtenAll children')
    rw [Markup.written, Element.nodes, Element.nodes, List.forall_mem_cons, List.forall_mem_cons]
    refine (and_congr_left' hstart).trans (and_congr_right fun hx ↦ ?_)
    exact WritesAll.avoids_iff hw hnon children children' st.scope hchildren
      (hx.avoids_scope hw hnon hscope hname hattributes)

theorem WritesAll.avoids_iff (hw : w.HasLegalPrefixes) (hnon : c ∈ noncharacters) :
    ∀ (es : List Element) (ms : List Markup) (scope : PrefixTable), WritesAll w scope es ms →
      scope.Avoids c → ((∀ x ∈ Element.nodesAll (writtenAll ms), x.Avoids c) ↔
        ∀ x ∈ Element.nodesAll es, x.Avoids c)
  | [], _, scope, .nil _, _ => Iff.rfl
  | e :: rest, _, scope, .cons hfirst hrest, hscope => by
    rw [writtenAll, Element.nodesAll, Element.nodesAll, List.forall_mem_append,
      List.forall_mem_append, Writes.avoids_iff hw hnon e _ scope hfirst hscope,
      WritesAll.avoids_iff hw hnon rest _ scope hrest hscope]

end

/-! ### Documents -/

/-- What is written for a tree is legal except for the noncharacters of the tree. -/
theorem Writes.isXmlChar_iff (hw : w.HasLegalPrefixes) {m : Markup} (hwrites : Writes w ∅ e m) :
    (∀ d ∈ (clean (String.ofList (m.render indent 0))).toList, isXmlChar d = true) ↔
      ∀ x ∈ e.nodes, ∀ c ∈ noncharacters, x.Avoids c := by
  rw [clean, String.toList_ofList, String.toList_ofList, List.forall_mem_map]
  simp only [isXmlChar_allowedChar_iff]
  calc (∀ d ∈ m.render indent 0, d ∉ noncharacters)
      ↔ ∀ c ∈ noncharacters, c ∉ m.render indent 0 :=
        ⟨fun h c hnon hc ↦ h c hc hnon, fun h d hd hnon ↦ h d hnon hd⟩
    _ ↔ ∀ c ∈ noncharacters, ∀ x ∈ e.nodes, x.Avoids c :=
        forall₂_congr fun c hnon ↦ (not_mem_render_iff hnon 0 m).trans
          (Writes.avoids_iff hw hnon e m ∅ hwrites (PrefixTable.avoids_empty c))
    _ ↔ ∀ x ∈ e.nodes, ∀ c ∈ noncharacters, x.Avoids c :=
        ⟨fun h x hx c hnon ↦ h c hnon x hx, fun h c hnon x hx ↦ h x hx c hnon⟩

/-- Whatever tree is written, the document is made up of characters that documents may hold if and
only if the tree holds no noncharacter, be it in a name, a value or a text. The name of the encoding
is written as it is. -/
theorem writeDocument_isXmlChar_iff (hw : w.HasLegalPrefixes) {indent : Int} {encoding s : String}
    (h : (w.writeDocument e indent encoding).1 = .ok s) :
    (∀ c ∈ s.toList, isXmlChar c = true) ↔
      (∀ c ∈ encoding.toList, isXmlChar c = true) ∧
        ∀ x ∈ e.nodes, ∀ c ∈ noncharacters, x.Avoids c := by
  obtain ⟨t, ht, rfl⟩ : ∃ t, (w.writeElement e indent).1 = .ok t ∧
      s = "<?xml version='1.0' encoding='" ++ encoding ++ "'?>" ++
        (if indent < 0 then "" else "\n") ++ t ++ (if indent < 0 then "" else "\n") := by
    rw [writeDocument_eq] at h
    cases helement : (w.writeElement e indent).1 with
    | error f =>
      rw [helement] at h
      cases h
    | ok t =>
      rw [helement] at h
      exact ⟨t, rfl, (Except.ok.inj h).symm⟩
  obtain ⟨m, hwrites, houtput⟩ := exists_writes hw.oddities (canBeWritten_of_writeElement ht)
  obtain rfl := Except.ok.inj ((houtput indent).symm.trans ht)
  have hfront : ∀ c ∈ "<?xml version='1.0' encoding='".toList, isXmlChar c = true := by
    decide +kernel
  have hend : ∀ c ∈ "'?>".toList, isXmlChar c = true := by decide +kernel
  have hbreak : ∀ c ∈ (if indent < 0 then "" else "\n").toList, isXmlChar c = true := by
    split <;> decide +kernel
  simp only [String.toList_append, List.forall_mem_append]
  rw [hwrites.isXmlChar_iff hw, and_iff_left hbreak, and_iff_left hbreak, and_iff_left hend,
    and_iff_right hfront]

/-- Control characters are replaced wherever they stand, be it in a namespace. -/
theorem writeDocument_isXmlChar_iff_note :
    let note : Element := ⟨expandedName "d" "note", [(expandedName "e\x01" "to", "\x0b")],
      .text "\x00\ufffd", none, []⟩
    (Writer.new (some "d")).HasLegalPrefixes ∧
      ∃ s, ((Writer.new (some "d")).writeDocument note (-1) "utf-8").1 = .ok s ∧
        ∀ c ∈ s.toList, isXmlChar c = true := by
  intro note
  have hnote : ∀ x ∈ note.nodes, ∀ c ∈ noncharacters, x.Avoids c := by decide +kernel
  have hcan : ∀ x ∈ note.nodes, x.CanBeWritten := by
    refine (Element.forall_mem_nodes_of_childless rfl).mpr
      ⟨⟨_, splitName_expandedName (by decide) true⟩, ?_, ⟨_, rfl⟩⟩
    exact List.forall_mem_singleton.mpr ⟨_, splitName_expandedName (by decide) false⟩
  have hw : (Writer.new (some "d")).HasLegalPrefixes := .new (some "d") 1
  obtain ⟨s, h⟩ : ∃ s, ((Writer.new (some "d")).writeDocument note (-1) "utf-8").1 = .ok s :=
    (exists_writeDocument_iff hw.oddities).mpr hcan
  exact ⟨hw, s, h, (writeDocument_isXmlChar_iff hw h).mpr ⟨by decide +kernel, hnote⟩⟩

/-- A noncharacter in a text is written as it is, though no document may hold it. -/
theorem noncharacter_in_text_written :
    let note : Element := ⟨expandedName "d" "x", [], .text "\ufffe", none, []⟩
    let s := "<?xml version='1.0' encoding='utf-8'?><x xmlns=\"d\">\ufffe</x>"
    ((Writer.new (some "d")).writeDocument note (-1) "utf-8").1.toOption = some s ∧
      '\ufffe' ∈ s.toList ∧ isXmlChar '\ufffe' = false := by
  decide +kernel

end ContactCard.Xml
