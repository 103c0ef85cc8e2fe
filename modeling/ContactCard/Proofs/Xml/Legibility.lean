import ContactCard.Proofs.Xml.Given
import ContactCard.Proofs.Xml.Noncharacters
import Mathlib.Data.List.Forall2

/-!
# Trees that are legible when they are written

Texts and attribute values are escaped when they are written, names are not. So a tree is read back
in its outline, whatever its texts are, just when its tags are names and its texts and values hold
no noncharacters (`exists_read_outline_iff`). That it is enough is known of trees with tidy texts,
which a reader cannot tell from the tree; that it is necessary follows from what a reader may give
and from the characters that it accepts.
-/

namespace ContactCard.Xml

open Text Markup

variable {w : Writer} {e x x' : Element}

/-! ### The texts of a tree in its markup -/

/-- The second element has the text of the first and its attribute values, perhaps among others. -/
structure Element.HasTextsOf (x x' : Element) : Prop where
  text : x'.text = .text x.ownText
  isLeaf : x'.children.isEmpty = x.children.isEmpty
  values : ∀ a ∈ x.attributes, ∃ a' ∈ x'.attributes, a'.2 = a.2

theorem WritesAttributes.exists_value {st st' : Naming}
    {attributes written : List (String × String)} (h : WritesAttributes w st attributes written st') :
    ∀ a ∈ attributes, ∃ a' ∈ written, a'.2 = a.2 := by
  induction h with
  | nil st => simp
  | cons hname hrest ih =>
    rw [List.forall_mem_cons]
    refine ⟨⟨_, List.mem_cons_self, rfl⟩, fun a ha ↦ ?_⟩
    obtain ⟨a', ha', hvalue⟩ := ih a ha
    exact ⟨a', List.mem_cons_of_mem _ ha', hvalue⟩

theorem WritesAll.isEmpty_written {scope : PrefixTable} {es : List Element} {ms : List Markup}
    (h : WritesAll w scope es ms) : (writtenAll ms).isEmpty = es.isEmpty := by
  cases h <;> rfl

mutual

/-- The elements of a tree and of what is written for it belong together one by one. -/
theorem Writes.forall₂_nodes : ∀ (e : Element) (m : Markup) (scope : PrefixTable),
    Writes w scope e m → List.Forall₂ Element.HasTextsOf e.nodes m.written.nodes
  | ⟨tag, attributes, text, tail, children⟩, ⟨name, attributes', declarations, text', children'⟩,
      scope, h => by
    obtain ⟨mid, st, hname, hattributes, rfl, rfl, hchildren⟩ := h.inv
    refine .cons ⟨rfl, hchildren.isEmpty_written, fun a ha ↦ ?_⟩
      (WritesAll.forall₂_nodes children children' st.scope hchildren)
    obtain ⟨a', ha', hvalue⟩ := hattributes.exists_value a ha
    exact ⟨a', List.mem_append_left _ ha', hvalue⟩

theorem WritesAll.forall₂_nodes : ∀ (es : List Element) (ms : List Markup) (scope : PrefixTable),
    WritesAll w scope es ms →
      List.Forall₂ Element.HasTextsOf (Element.nodesAll es) (Element.nodesAll (writtenAll ms))
  | [], _, _, .nil _ => .nil
  | e :: rest, _, _, .cons hfirst hrest =>
    List.rel_append (Writes.forall₂_nodes e _ _ hfirst)
      (WritesAll.forall₂_nodes rest _ _ hrest)

end

/-! ### Legible trees -/

namespace Element

/-- The character is in the text of the element or in the value of one of its attributes. -/
def Holds (x : Element) (c : Char) : Prop :=
  c ∈ x.ownText.toList ∨ ∃ a ∈ x.attributes, c ∈ a.2.toList

instance (x : Element) (c : Char) : Decidable (x.Holds c) :=
  inferInstanceAs (Decidable (c ∈ x.ownText.toList ∨ ∃ a ∈ x.attributes, c ∈ a.2.toList))

theorem Avoids.not_holds {c : Char} (h : x.Avoids c) : ¬x.Holds c := by
  rintro (hc | ⟨a, ha, hc⟩)
  · exact h.text hc
  · exact (h.attributes a ha).2 hc

/-- An element as a tree of data has it: its attributes have proper names, and it has a text or
children but not both. -/
structure IsRecord (x : Element) : Prop where
  keys : ∀ a ∈ x.attributes, IsReadableKey a.1
  nodup : (x.attributes.map Prod.fst).Nodup
  isText : ∃ s, writtenText x.text = .ok s
  separates : x.SeparatesText

/-- The tag of the element is an expanded name, and it holds no noncharacter. -/
structure IsLegible (x : Element) : Prop where
  tag : IsReadableTag x.tag
  chars : ∀ c ∈ noncharacters, ¬x.Holds c

instance (x : Element) : Decidable x.IsLegible :=
  decidable_of_iff (IsReadableTag x.tag ∧ ∀ c ∈ noncharacters, ¬x.Holds c)
    ⟨fun ⟨htag, hchars⟩ ↦ ⟨htag, hchars⟩, fun ⟨htag, hchars⟩ ↦ ⟨htag, hchars⟩⟩

theorem ownText_mapTexts (f g : String → String) (x : Element) :
    (x.mapTexts f g).ownText = f x.ownText := by
  cases x
  rfl

theorem attributes_mapTexts (f g : String → String) (x : Element) :
    (x.mapTexts f g).attributes = x.attributes.map fun a ↦ (a.1, g a.2) := by
  cases x
  rfl

theorem tag_mapTexts (f g : String → String) (x : Element) : (x.mapTexts f g).tag = x.tag := by
  cases x
  rfl

theorem IsRecord.canBeWritten (h : x.IsRecord) (htag : IsReadableTag x.tag) : x.CanBeWritten :=
  ⟨htag.isTagName.canBeWritten, fun a ha ↦ (h.keys a ha).isAttributeName.canBeWritten, h.isText⟩

/-- With tidy texts and values, an element with proper names and without noncharacters is one that a
reader may give. -/
theorem isReadable_mapTexts (htag : IsReadableTag x.tag)
    (hkeys : ∀ a ∈ x.attributes, IsReadableKey a.1) (hnodup : (x.attributes.map Prod.fst).Nodup)
    (hchars : ∀ c ∈ noncharacters, ¬x.Holds c) : (x.mapTexts tidyText clean).IsReadable := by
  have hnames : (x.mapTexts tidyText clean).attributes.map Prod.fst = x.attributes.map Prod.fst := by
    rw [attributes_mapTexts, List.map_map]
    rfl
  refine ⟨(tag_mapTexts ..).symm ▸ htag, fun a ha ↦ ?_, hnames ▸ hnodup, fun a ha c hc ↦ ?_, ?_, ?_⟩
  · obtain ⟨b, hb, rfl⟩ := List.mem_map.mp (attributes_mapTexts .. ▸ ha)
    exact hkeys b hb
  · obtain ⟨b, hb, rfl⟩ := List.mem_map.mp (attributes_mapTexts .. ▸ ha)
    rw [clean, String.toList_ofList] at hc
    obtain ⟨d, hd, rfl⟩ := List.mem_map.mp hc
    exact isXmlChar_allowedChar_iff.mpr fun hnon ↦ hchars d hnon (.inr ⟨b, hb, hd⟩)
  · cases x
    exact ⟨_, rfl⟩
  · rw [ownText_mapTexts, tidyText, String.toList_ofList]
    exact isPlain_tidy fun c hc hnon ↦ hchars c hnon (.inl hc)

theorem IsLegible.isReadable (h : x.IsLegible) (hx : x.IsRecord) :
    (x.mapTexts tidyText clean).IsReadable := isReadable_mapTexts h.tag hx.keys hx.nodup h.chars

section Names

variable {d : Option String} {f g : String → String}

mutual

/-- Texts and values do not matter for the namespaces of attributes. -/
theorem keepsAttributes_mapTexts (met : Option Bool) :
    ∀ e : Element, (e.mapTexts f g).keepsAttributes d met = e.keepsAttributes d met
  | ⟨tag, attributes, text, tail, children⟩ => by
    rw [mapTexts, keepsAttributes, keepsAttributes, List.any_map, meetAll, meetAll, List.foldl_map,
      keepsAllAttributes_mapTextsAll _ children]
    rfl

theorem keepsAllAttributes_mapTextsAll (met : Option Bool) : ∀ es : List Element,
    keepsAllAttributes d met (mapTextsAll f g es) = keepsAllAttributes d met es
  | [] => rfl
  | e :: rest => by
    rw [mapTextsAll, keepsAllAttributes, keepsAllAttributes, keepsAttributes_mapTexts met e,
      keepsAllAttributes_mapTextsAll met rest]

end

end Names

end Element

theorem forall₂_exists_of_mem {α β : Type} {R : α → β → Prop} {as : List α} {bs : List β}
    (h : List.Forall₂ R as bs) {a : α} (ha : a ∈ as) : ∃ b ∈ bs, R a b := by
  induction h with
  | nil => exact absurd ha List.not_mem_nil
  | cons hab _ ih =>
    rcases List.mem_cons.mp ha with rfl | ha
    · exact ⟨_, List.mem_cons_self, hab⟩
    · obtain ⟨b, hb, hR⟩ := ih ha
      exact ⟨b, List.mem_cons_of_mem _ hb, hR⟩

/-- What is replaced in the texts of markup is replaced in those of its tree. -/
theorem Writes.keepsText {scope : PrefixTable} {m : Markup} (h : Writes w scope e m)
    (he : ∀ x ∈ e.nodes, x.KeepsText) : ∀ x' ∈ m.written.nodes, x'.KeepsText := by
  intro x' hx'
  obtain ⟨x, hx, htexts⟩ := forall₂_exists_of_mem (Writes.forall₂_nodes e m scope h).flip hx'
  have htext : x'.ownText = x.ownText := by rw [Element.ownText, htexts.text]; rfl
  rw [Element.KeepsText, htext, ← List.isEmpty_iff, htexts.isLeaf, List.isEmpty_iff]
  exact he x hx

/-! ### Documents -/

/-- To a reader a tree is the one with tidy texts and values. -/
theorem read_of_tidy (hw : w.IsProper) {m : Markup} (hwrites : Writes w ∅ e m)
    (he : ∀ x ∈ (e.mapTexts tidyText clean).nodes, x.IsReadable)
    (hkeeps : e.keepsAttributes w.defaultNamespace none = true)
    (htexts : ∀ x ∈ e.nodes, x.KeepsText) {before blank : List Char}
    (hframe : IsFrame before blank) {s : String} {indent : Option Nat}
    (hs : s.toList = (before ++ blank ++ m.render indent 0 ++ blank).map allowedChar) :
    read s = some ((e.mapTexts tidyText clean).layout indent 0) := by
  obtain ⟨hresolve, hnodes⟩ := (Writes.mapTexts e m ∅ hwrites).isReadable hw he
    ((Element.keepsAttributes_mapTexts none e).trans hkeeps)
  have hreaches : Reaches (m.render indent 0) _ := reaches_render 0 m (hwrites.keepsText htexts)
    fun x' hx' ↦ (hnodes x' hx').1
  have hbefore : Reaches before before := by
    rcases hframe.before with ⟨rfl, -⟩ | rfl <;> exact .refl (by decide +kernel)
  have hblank : Reaches blank blank := .refl hframe.isPlain_blank
  have hdocument := (((hbefore.append hblank).append hreaches).append hblank) []
  rw [List.append_nil, tidy, ← hs, show tidy [] = [] from rfl, List.append_nil] at hdocument
  exact read_of_readWritten he hresolve (fun x' hx' ↦ (hnodes x' hx').2)
    (readWritten_of_normalizeLineEnds (fun x' hx' ↦ (hnodes x' hx').1) hframe hdocument)

variable {indent : Int} {s : String}

/-- What a document is written as. -/
theorem toList_of_writeDocument {m : Markup} (houtput : (w.writeElement e indent).1 =
      .ok (clean (String.ofList (m.render (Writer.indentation indent) 0))))
    (h : (w.writeDocument e indent "utf-8").1 = .ok s) :
    s.toList = (declaration ++ lineBreaks indent ++ m.render (Writer.indentation indent) 0 ++
      lineBreaks indent).map allowedChar := by
  obtain ⟨document, hdocument, hs⟩ := exists_writeDocument houtput
  obtain rfl := Except.ok.inj (hdocument.symm.trans h)
  have hbreaks : (lineBreaks indent).map allowedChar = lineBreaks indent := by
    rw [lineBreaks]
    split <;> decide
  have hdeclaration : declaration.map allowedChar = declaration := by decide
  rw [hs, clean, String.toList_ofList, String.toList_ofList]
  simp only [List.map_append, hbreaks, hdeclaration]

/-- A legible tree of data is read as it is laid out, with tidy texts and values. -/
theorem read_of_isLegible (hw : w.IsProper) (he : ∀ x ∈ e.nodes, x.IsRecord)
    (hdefault : ∀ x ∈ e.nodes, ∀ a ∈ x.attributes, isInDefault w.defaultNamespace a.1 = false)
    (h : (w.writeDocument e indent "utf-8").1 = .ok s) (hlegible : ∀ x ∈ e.nodes, x.IsLegible) :
    read s = some ((e.mapTexts tidyText clean).layout (Writer.indentation indent) 0) := by
  obtain ⟨m, hwrites, houtput⟩ := exists_writes hw.oddities fun x hx ↦
    (he x hx).canBeWritten (hlegible x hx).tag
  have hs := toList_of_writeDocument (houtput indent) h
  have hreadable : ∀ x ∈ (e.mapTexts tidyText clean).nodes, x.IsReadable := by
    rw [Element.nodes_mapTexts, List.forall_mem_map]
    exact fun x hx ↦ (hlegible x hx).isReadable (he x hx)
  exact read_of_tidy hw hwrites hreadable (Element.keepsAttributes_of_forall none e hdefault)
    (fun x hx ↦ (he x hx).separates.keepsText) (isFrame_lineBreaks indent) hs

theorem IsGivenTag.isReadableTag {tag : String} (h : IsGivenTag tag)
    (hexpanded : ∃ ns plain, tag = expandedName ns plain) : IsReadableTag tag := by
  obtain ⟨ns, plain, rfl⟩ := hexpanded
  refine h.resolve_right fun hname ↦ head?_ne_of_isNCName hname ?_
  simp [expandedName, String.toList_append]

/-- A noncharacter gets as far as the document, which then no reader accepts. -/
theorem read_eq_none_of_holds (hw : w.oddities = [])
    (h : (w.writeDocument e indent "utf-8").1 = .ok s) (hx : x ∈ e.nodes) {c : Char}
    (hnon : c ∈ noncharacters) (hholds : x.Holds c) : read s = none := by
  obtain ⟨m, hwrites, houtput⟩ := exists_writes hw ((exists_writeDocument_iff hw).mp ⟨s, h⟩)
  obtain ⟨x', hx', htexts⟩ := forall₂_exists_of_mem (Writes.forall₂_nodes e m ∅ hwrites) hx
  have hholds' : x'.Holds c := by
    refine hholds.imp (fun hc ↦ ?_) fun ⟨a, ha, hc⟩ ↦ ?_
    · rw [Element.ownText, htexts.text]
      exact hc
    · obtain ⟨a', ha', hvalue⟩ := htexts.values a ha
      exact ⟨a', ha', hvalue ▸ hc⟩
  obtain ⟨hxml, hforbidden, -⟩ := noncharacters_facts c hnon
  have hmem : c ∈ s.toList := by
    rw [toList_of_writeDocument (houtput indent) h, ← allowedChar_of_not hforbidden]
    refine List.mem_map_of_mem (List.mem_append_left _ (List.mem_append_right _ ?_))
    by_contra hnot
    exact ((not_mem_render_iff hnon 0 m).mp hnot x' hx').not_holds hholds'
  have hcr : c ≠ '\r' := ne_of_isXmlChar hnon (by decide)
  cases hwritten : readWritten s with
  | none => rw [read, hwritten]; rfl
  | some written =>
    have := isXmlChar_of_readWritten hwritten c (mem_normalizeLineEnds_of_ne hmem hcr)
    rw [hxml] at this
    exact absurd this (by decide)

/-- A tree whose outline is read is legible. -/
theorem isLegible_of_read (hw : w.oddities = []) (h : (w.writeDocument e indent "utf-8").1 = .ok s)
    {root : Element} (hread : read s = some root) (houtline : root.outline = e.outline) :
    ∀ x ∈ e.nodes, x.IsLegible := by
  intro x hx
  refine ⟨?_, fun c hnon hholds ↦ ?_⟩
  · have htag : x.tag ∈ root.tags := by
      rw [← root.tags_outline, houtline, e.tags_outline]
      exact List.mem_map_of_mem hx
    obtain ⟨y, hy, hsame⟩ := List.mem_map.mp htag
    have hcan := (exists_writeDocument_iff hw).mp ⟨s, h⟩ x hx
    exact (hsame ▸ tag_of_read hread y hy).isReadableTag (exists_splitName_iff.mp hcan.tag)
  · rw [read_eq_none_of_holds hw h hx hnon hholds] at hread
    cases hread

/-- A document that was written for a tree of data is read back in its outline if and only if the
tree is legible. -/
theorem exists_read_outline_iff (hw : w.IsProper) (he : ∀ x ∈ e.nodes, x.IsRecord)
    (hdefault : ∀ x ∈ e.nodes, ∀ a ∈ x.attributes, isInDefault w.defaultNamespace a.1 = false)
    (h : (w.writeDocument e indent "utf-8").1 = .ok s) :
    (∃ root, read s = some root ∧ root.outline = e.outline) ↔ ∀ x ∈ e.nodes, x.IsLegible := by
  constructor
  · rintro ⟨root, hread, houtline⟩
    exact isLegible_of_read hw.oddities h hread houtline
  · intro hlegible
    refine ⟨_, read_of_isLegible hw he hdefault h hlegible, ?_⟩
    rw [Element.outline_layout, Element.outline_mapTexts]

end ContactCard.Xml
