import ContactCard.Proofs.XCard.Composition
import ContactCard.Proofs.XCard.Document

/-!
# Documents that can be written

A document whose cards were all added is written if the tags of their properties can be taken apart
into a namespace and a local name (`exists_write_iff`). All other tags in a document are made up of
both, the only attribute in it is the name of a group, and all texts are texts. The tag of a
property is made up of both, too, unless the property brings it along, which is checked neither when
it is set nor when the card is added.
-/

namespace ContactCard

open Xml

/-- The tag that the property brings along, if it does, has a namespace. -/
def Property.HasExpandedTag (p : Property) : Prop :=
  ∀ q, p.qname = some q → q ≠ "" → ∃ ns plain, q = expandedName ns plain

namespace XCardDocument

/-- Adds cards one after the other, up to the first that is refused. -/
def addEach (d : XCardDocument) (cards : List (List Property)) : Except Error XCardDocument :=
  cards.foldlM (fun d ps ↦ (d.add ps).2.map fun _ ↦ (d.add ps).1) d

variable {d d' : XCardDocument} {p : Property} {qs : List Property} {x : Element} {tag : String}

/-! ### What can be written -/

theorem canBeWritten_of_names (htag : ∃ ns plain, x.tag = expandedName ns plain)
    (hkeys : ∀ a ∈ x.attributes, a.1 = "name")
    (htext : x.text = .null ∨ ∃ s, x.text = .text s) : x.CanBeWritten := by
  refine ⟨exists_splitName_iff.mpr htag, fun a ha ↦ ?_, ?_⟩
  · rw [hkeys a ha]
    exact ⟨_, splitName_plain (by decide)⟩
  · rcases htext with h | ⟨s, h⟩ <;> rw [h] <;> exact ⟨_, rfl⟩

/-- The tag of a property is made up of a namespace and a local name unless the property brings it
along. -/
theorem hasExpandedTag_iff (h : propertyTag p = .ok tag) :
    p.HasExpandedTag ↔ ∃ ns plain, tag = expandedName ns plain := by
  rcases propertyTag_cases h with ⟨hqname, hne⟩ | ⟨hqname, name, -, rfl⟩
  · refine ⟨fun hp ↦ hp tag hqname hne, fun hexpanded q hq _ ↦ ?_⟩
    rwa [← Option.some.inj (hqname.symm.trans hq)]
  · exact iff_of_true (fun q hq hne ↦ absurd (hqname q hq) hne) ⟨_, _, rfl⟩

/-- An element in that of a property that holds a text, if anything, can be written if its tag has a
namespace. -/
theorem IsPart.canBeWritten (h : IsPart p x) (hp : p.HasExpandedTag)
    (htexts : ∀ v, p.content ≠ .foreign v) : x.CanBeWritten := by
  refine canBeWritten_of_names ?_ (by simp [h.attributes]) ?_
  · rcases h.tag with htag | ⟨name, htag⟩
    · exact (hasExpandedTag_iff htag).mp hp
    · exact ⟨_, name, htag⟩
  · rcases h.text with htext | ⟨-, hs | hforeign⟩
    · exact .inl htext
    · exact .inr hs
    · exact absurd hforeign (htexts _)

/-- The element of a card can be written if the tags of its properties have namespaces. -/
theorem canBeWritten_cardElement_iff (htexts : ∀ p ∈ qs, ∀ v, p.content ≠ .foreign v) :
    (∀ x ∈ (cardElement .standard qs).nodes, x.CanBeWritten) ↔
      ∀ p ∈ qs, ∀ e, elementOf? .standard p = some e → p.HasExpandedTag := by
  constructor
  · intro h p hp e he
    obtain ⟨tag, htag⟩ := (h e (mem_nodes_cardElement hp he e.mem_nodes_self)).tag
    have hown := (isComposed_of_elementOf? he).tag
    exact (hasExpandedTag_iff hown).mpr (exists_splitName_iff.mp ⟨tag, htag⟩)
  · intro h x hx
    cases isCardPart_of_mem_nodes hx with
    | card htag hattributes htext =>
      exact canBeWritten_of_names ⟨_, _, htag⟩ (by simp [hattributes]) (.inl htext)
    | group htag hattributes htext =>
      exact canBeWritten_of_names ⟨_, _, htag⟩ (by simp [hattributes]) (.inl htext)
    | property hp he hx =>
      exact ((isComposed_of_elementOf? he).isPart x hx).canBeWritten (h _ hp _ he) (htexts _ hp)

/-! ### Cards one after the other -/

/-- What is in a document after cards were added that were all accepted. -/
theorem cards_addEach {cards : List (List Property)} (hdefinitions : d.definitions.AreStandard)
    (hadd : d.addEach cards = .ok d') :
    d'.definitions.AreStandard ∧ d'.settings = d.settings ∧
      d'.cards = d.cards ++ cards.map fun ps ↦ cardElement d.registry (d.propertiesFor ps) := by
  induction cards generalizing d with
  | nil =>
    obtain rfl := Except.ok.inj hadd
    exact ⟨hdefinitions, rfl, by simp⟩
  | cons ps rest ih =>
    rw [addEach, List.foldlM_cons] at hadd
    obtain ⟨ds, warnings, hds, ⟨-, hfirst⟩ | ⟨error, hfirst⟩⟩ := add_cases hdefinitions ps
    · rw [hfirst] at hadd
      obtain ⟨hds', hsettings, hcards⟩ := ih hds hadd
      exact ⟨hds', hsettings, by simp [hcards, propertiesFor, ownProperties]⟩
    · rw [hfirst] at hadd
      cases hadd

/-- A document with standard definitions is written just when all of its cards can be. -/
theorem exists_write_iff_nodes (hdefinitions : d.definitions.AreStandard)
    (hprefixes : d.settings.HasDistinctPrefixes) {indent : Option Int} {i : Int}
    (hindent : d.indentation indent = .ok (d.definitions, i)) :
    (∃ s, (d.write indent).2 = .ok s) ↔ ∀ card ∈ d.cards, ∀ x ∈ card.nodes, x.CanBeWritten := by
  obtain ⟨w, hw, -, hwrite⟩ := exists_write_eq hdefinitions hprefixes hindent
  have hroot : d.root.CanBeWritten :=
    canBeWritten_of_names ⟨_, "vcards", rfl⟩ (by simp [root, Element.bare]) (.inl rfl)
  rw [hwrite, exists_writeDocument_iff hw.oddities, Element.nodes_eq]
  simp only [List.forall_mem_cons, List.mem_flatMap, hroot, true_and, forall_exists_index, and_imp]
  exact ⟨fun h card hcard x hx ↦ h x card hcard hx, fun h x card hcard hx ↦ h card hcard x hx⟩

/-- Without settings, what is not asked for is known. -/
theorem exists_indentation (hdefinitions : d.definitions.AreStandard)
    (hsettings : d.settings = .empty) (indent : Option Int) :
    ∃ i, d.indentation indent = .ok (d.definitions, i) := by
  cases indent with
  | some i => exact ⟨i, rfl⟩
  | none =>
    rw [indentation_none hdefinitions, hsettings]
    exact ⟨-1, rfl⟩

end XCardDocument

end ContactCard
