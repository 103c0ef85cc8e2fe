import ContactCard.Proofs.XCard.Composition
import ContactCard.Proofs.XCard.Document
import ContactCard.Proofs.Xml.Legibility

/-!
# Which documents keep their outline

What a card says reaches a document as a tag, as the name of a group, or as a text. The latter two
cannot be taken for markup, since they are escaped, but tags are written as they are. So a document
that was written is read with the outline that it has if and only if all of its tags are names, and
its texts hold no character that XML cannot carry (`exists_read_outline_iff_isLegible`). This is so
for all documents that cards were added to, some of which may have been refused (`IsBuilt`).
-/

namespace ContactCard.XCardDocument

open Xml

variable {d : XCardDocument} {x : Element}

/-! ### Documents built card by card -/

/-- All that is in the document are the elements of cards. -/
structure IsBuilt (d : XCardDocument) : Prop where
  registry : d.registry = .standard
  definitions : d.definitions.AreStandard
  cards : ∀ card ∈ d.cards, ∃ qs, card = cardElement .standard qs

theorem isBuilt_new {ds : Definitions} (hds : ds.AreStandard) {settings : Settings}
    (hnew : new ds settings = .ok d) : d.IsBuilt ∧ d.settings = settings := by
  obtain rfl := Except.ok.inj ((new_eq hds settings).symm.trans hnew)
  exact ⟨⟨rfl, hds, fun card hcard ↦ absurd hcard List.not_mem_nil⟩, rfl⟩

theorem IsBuilt.add (h : d.IsBuilt) (ps : List Property) :
    (d.add ps).1.IsBuilt ∧ (d.add ps).1.settings = d.settings := by
  obtain ⟨ds, warnings, hds, ⟨-, hadd⟩ | ⟨error, hadd⟩⟩ := add_cases h.definitions ps
  · rw [hadd]
    refine ⟨⟨h.registry, hds, List.forall_mem_append.mpr ⟨h.cards, ?_⟩⟩, rfl⟩
    exact List.forall_mem_singleton.mpr ⟨_, by rw [h.registry]⟩
  · rw [hadd]
    exact ⟨⟨h.registry, hds, h.cards⟩, rfl⟩

theorem IsBuilt.addAll (h : d.IsBuilt) (cards : List (List Property)) :
    (d.addAll cards).IsBuilt ∧ (d.addAll cards).settings = d.settings := by
  induction cards generalizing d with
  | nil => exact ⟨h, rfl⟩
  | cons ps rest ih =>
    obtain ⟨hfirst, hsettings⟩ := h.add ps
    obtain ⟨hrest, hsettings'⟩ := ih hfirst
    exact ⟨hrest, hsettings'.trans hsettings⟩

/-! ### What is in them -/

theorem isRecord_of_attributes
    (hattributes : x.attributes = [] ∨ ∃ name, x.attributes = [("name", name)])
    (hseparates : x.SeparatesText) (htext : ∃ s, writtenText x.text = .ok s) :
    x.IsRecord ∧ ∀ a ∈ x.attributes, a.1 = "name" := by
  have hkey : IsReadableKey "name" := .plain (by decide +kernel) (by decide)
  rcases hattributes with h | ⟨name, h⟩
  · exact ⟨⟨by simp [h], by simp [h], htext, hseparates⟩, by simp [h]⟩
  · exact ⟨⟨by simpa [h] using hkey, by simp [h], htext, hseparates⟩, by simp [h]⟩

/-- The elements of a document are those of a tree of data whose only attributes are names. -/
theorem IsBuilt.isRecord (h : d.IsBuilt) (hx : x ∈ d.root.nodes)
    (htext : ∃ s, writtenText x.text = .ok s) : x.IsRecord ∧ ∀ a ∈ x.attributes, a.1 = "name" := by
  have hnull (h : x.text = .null) : x.SeparatesText := .inr (by rw [Element.ownText, h]; rfl)
  rw [Element.nodes_eq, List.mem_cons, List.mem_flatMap] at hx
  rcases hx with rfl | ⟨card, hcard, hx⟩
  · exact isRecord_of_attributes (.inl rfl) (hnull rfl) htext
  obtain ⟨qs, rfl⟩ := h.cards card hcard
  cases isCardPart_of_mem_nodes hx with
  | card _ hattributes hown => exact isRecord_of_attributes (.inl hattributes) (hnull hown) htext
  | group _ hattributes hown =>
    exact isRecord_of_attributes (.inr ⟨_, hattributes⟩) (hnull hown) htext
  | property hp he hx =>
    have hpart := (isComposed_of_elementOf? he).isPart x hx
    exact isRecord_of_attributes (.inl hpart.attributes)
      (hpart.text.elim hnull fun hleaf ↦ .inl hleaf.1) htext

/-! ### Writing and reading -/

theorem exists_eq_ok_of_toBool {x : Except Error String} (h : x.toBool = true) :
    ∃ s, x = .ok s := by
  cases x with
  | error error => cases h
  | ok s => exact ⟨s, rfl⟩

/-- The indentation is what was asked for or what the settings say, if that is one. -/
theorem indentation_cases (hdefinitions : d.definitions.AreStandard) (indent : Option Int) :
    (∃ i, d.indentation indent = .ok (d.definitions, i)) ∨
      ∃ error, d.indentation indent = .error error := by
  cases indent with
  | some i => exact .inl ⟨i, rfl⟩
  | none =>
    rw [indentation_none hdefinitions]
    cases indentationOf ((d.settings.stored.get? "xml_indent").getD (.int (-1))) with
    | ok i => exact .inl ⟨i, rfl⟩
    | error f => exact .inr ⟨.fault f, rfl⟩

/-- What was written for a document was written for its tree. -/
theorem IsBuilt.exists_writeDocument (h : d.IsBuilt) (hprefixes : d.settings.HasDistinctPrefixes)
    {indent : Option Int} {s : String} (hwrite : (d.write indent).2 = .ok s) :
    ∃ (w : Writer) (i : Int), w.IsProper ∧ (w.writeDocument d.root i "utf-8").1 = .ok s := by
  rcases indentation_cases h.definitions indent with ⟨i, hindent⟩ | ⟨error, herror⟩
  · obtain ⟨w, hw, -, heq⟩ := exists_write_eq h.definitions hprefixes hindent
    exact ⟨w, i, hw, heq.symm.trans hwrite⟩
  · rw [write, text, herror] at hwrite
    cases hwrite

/-- Cards were added to a new document, some of which may have been refused, and the document was
written. A reader finds it with the outline that it has, the tags, their nesting and the names of
the attributes, if and only if every tag in it is an expanded name and no text or value in it holds
a noncharacter. -/
theorem exists_read_outline_iff_isLegible {ds : Definitions} (hds : ds.AreStandard)
    {settings : Settings} (hprefixes : settings.HasDistinctPrefixes)
    (hnew : new ds settings = .ok d) (cards : List (List Property)) {indent : Option Int}
    {s : String} (hwrite : ((d.addAll cards).write indent).2 = .ok s) :
    (∃ root, read s = some root ∧ root.outline = (d.addAll cards).root.outline) ↔
      ∀ x ∈ (d.addAll cards).root.nodes, x.IsLegible := by
  obtain ⟨hbuilt, rfl⟩ := isBuilt_new hds hnew
  obtain ⟨hbuilt, hsettings⟩ := hbuilt.addAll cards
  obtain ⟨w, i, hw, h⟩ := hbuilt.exists_writeDocument (hsettings ▸ hprefixes) hwrite
  have hcan := (exists_writeDocument_iff hw.oddities).mp ⟨s, h⟩
  have hrecord := fun x hx ↦ hbuilt.isRecord hx (hcan x hx).text
  refine exists_read_outline_iff hw (fun x hx ↦ (hrecord x hx).1) (fun x hx a ha ↦ ?_) h
  -- the only attributes of a document are the names of groups, which are in no namespace
  rw [(hrecord x hx).2 a ha]
  exact isInDefault_name _

/-- A card with a control character and a line end of two characters in a text, and with what looks
like markup in the name of a group, in a parameter and in the text. -/
theorem exists_read_outline_iff_isLegible_motto :
    let settings : Settings := ⟨OrderedMap.empty.insert "add_prodid" (.bool false)⟩
    let motto : Property :=
      { Property.ofExtension "X-MOTTO" (some "a < b\r\n\x01") none with
        group := some "</vcard>", parameters := Parameters.empty.set "x-sort" "\"&amp;" }
    ∃ d s, new .standard settings = .ok d ∧ settings.HasDistinctPrefixes ∧
      ((d.addAll [[motto]]).write (some 2)).2 = .ok s ∧
      (∀ x ∈ (d.addAll [[motto]]).root.nodes, x.IsLegible) ∧
      ∃ root, read s = some root ∧ root.outline = (d.addAll [[motto]]).root.outline := by
  intro settings motto
  let d : XCardDocument := ⟨.standard, .standard, settings, false, [], []⟩
  have hnew : new .standard settings = .ok d := rfl
  obtain ⟨s, hwrite⟩ := exists_eq_ok_of_toBool
    (show ((d.addAll [[motto]]).write (some 2)).2.toBool = true by decide +kernel)
  have hlegible : ∀ x ∈ (d.addAll [[motto]]).root.nodes, x.IsLegible := by decide +kernel
  exact ⟨d, s, hnew, .inl rfl, hwrite, hlegible, (exists_read_outline_iff_isLegible
    Definitions.areStandard_standard (.inl rfl) hnew [[motto]] hwrite).mpr hlegible⟩

/-- The name of an extension property adds an element to the document, which is written as
`<x-a><evil/>...</x-a><evil/>`, and a text with a noncharacter makes one that no reader accepts. -/
theorem content_alters_markup :
    let settings : Settings := ⟨OrderedMap.empty.insert "add_prodid" (.bool false)⟩
    ∃ d, new .standard settings = .ok d ∧
      let evil := d.addAll [[.ofText .formattedName (some "Club"),
        .ofExtension "X-A><EVIL/" (some "x") none]]
      let odd := d.addAll [[.ofText .formattedName (some "a\ufffeb")]]
      (∃ s, (evil.write (some (-1))).2 = .ok s ∧
        ∀ root, read s = some root → root.outline ≠ evil.root.outline) ∧
      ∃ s, (odd.write (some (-1))).2 = .ok s ∧ read s = none := by
  intro settings
  let d : XCardDocument := ⟨.standard, .standard, settings, false, [], []⟩
  have hnew : new .standard settings = .ok d := rfl
  -- what was written for either document is what a proper writer wrote for its tree
  have hwritten : ∀ {cards s}, ((d.addAll cards).write (some (-1))).2 = .ok s →
      ∃ (w : Writer) (i : Int), w.IsProper ∧
        (w.writeDocument (d.addAll cards).root i "utf-8").1 = .ok s := by
    intro cards s hs
    obtain ⟨hbuilt, hsettings⟩ := (isBuilt_new Definitions.areStandard_standard hnew).1.addAll cards
    exact hbuilt.exists_writeDocument (.inl (by rw [hsettings]; rfl)) hs
  refine ⟨d, hnew, ?_⟩
  intro evil odd
  obtain ⟨s, hs⟩ := exists_eq_ok_of_toBool
    (show (evil.write (some (-1))).2.toBool = true by decide +kernel)
  obtain ⟨s', hs'⟩ := exists_eq_ok_of_toBool
    (show (odd.write (some (-1))).2.toBool = true by decide +kernel)
  obtain ⟨w, i, hw, h⟩ := hwritten hs
  obtain ⟨w', i', hw', h'⟩ := hwritten hs'
  refine ⟨⟨s, hs, fun root hread houtline ↦ ?_⟩, s', hs', ?_⟩
  · have hlegible : ∀ x ∈ evil.root.nodes, x.IsLegible :=
      isLegible_of_read hw.oddities h hread houtline
    exact absurd hlegible (by decide +kernel)
  · obtain ⟨x, hx, hholds⟩ : ∃ x ∈ odd.root.nodes, x.Holds '\ufffe' := by decide +kernel
    exact read_eq_none_of_holds hw'.oddities h' hx (by decide) hholds

end ContactCard.XCardDocument
