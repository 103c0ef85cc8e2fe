import ContactCard.Proofs.XCard.Composition
import ContactCard.Proofs.XCard.Document

/-!
# The PRODID property of a document

A document that replaces the PRODID properties of cards puts one of its own after all other
properties without a group, whatever else is on the card. It is the only one with its name just when
no other property names it (`getLast?_ungrouped_and_count_prodid`): what is replaced depends on the
class of a property, and what its element is called on its names.
-/

namespace ContactCard.XCardDocument

open Xml

variable {r : Registry} {p : Property} {ps qs : List Property}

/-! ### Properties without a group -/

/-- Where all keys but one give nothing, the list for that key is all that there is. -/
theorem flatMap_eq_of_forall_ne {α β : Type} [DecidableEq α] {f : α → List β} {k : α}
    {keys : List α} (hnodup : keys.Nodup) (h : ∀ a, a ≠ k → f a = []) :
    keys.flatMap f = if k ∈ keys then f k else [] := by
  induction keys with
  | nil => rfl
  | cons a rest ih =>
    obtain ⟨ha, hrest⟩ := List.nodup_cons.mp hnodup
    rw [List.flatMap_cons, ih hrest]
    by_cases hk : a = k
    · subst hk
      simp [ha]
    · rw [h a hk, List.nil_append]
      simp [Ne.symm hk]

/-- The elements in that of a card that are not those of groups. -/
def ungrouped (card : Element) : List Element := card.children.filter fun e ↦ !isGroupElement e

/-- These are the elements of the properties without a group. -/
theorem ungrouped_cardElement
    (h : ∀ p ∈ qs, ∀ e, elementOf? r p = some e → e.attributes = []) :
    ungrouped (cardElement r qs) = (inGroup qs none).filterMap (elementOf? r) := by
  have hchildren : (cardElement r qs).children = (groupsOf qs).flatMap fun group ↦
      groupElements group ((inGroup qs group).filterMap (elementOf? r)) := by
    rw [cardElement, entries_grouped, List.flatMap_map]
  have hgroup : ∀ group : Option String, group ≠ none →
      (groupElements group ((inGroup qs group).filterMap (elementOf? r))).filter
        (fun e ↦ !isGroupElement e) = [] := by
    rintro (- | name) hne
    · exact absurd rfl hne
    · simp [groupElements, isGroupElement, groupElement, Element.bare]
  have hnone : ((inGroup qs none).filterMap (elementOf? r)).filter (fun e ↦ !isGroupElement e) =
      (inGroup qs none).filterMap (elementOf? r) := by
    refine List.filter_eq_self.mpr fun e he ↦ ?_
    obtain ⟨p, hp, hpe⟩ := List.mem_filterMap.mp he
    simp [isGroupElement, h p (List.mem_filter.mp hp).1 e hpe]
  have hnodup : (groupsOf qs).Nodup := nodup_eraseDups _
  rw [ungrouped, hchildren, List.filter_flatMap, flatMap_eq_of_forall_ne hnodup hgroup]
  split
  · exact hnone
  · next hmem => rw [inGroup_eq_nil hmem, List.filterMap_nil]

/-! ### The property of the document -/

theorem elementOf?_productId (hcodec : r.byClass.get? "ProductId" = some .productId)
    (name : String) :
    elementOf? r (.ofText .productId (some name)) = some (productIdElement name) :=
  elementOf?_eq_some_iff.mpr (propertyElement_productId hcodec name)

/-- The document's own PRODID property comes last of those without a group. -/
theorem getLast?_ungrouped (hcodec : r.byClass.get? "ProductId" = some .productId)
    (h : ∀ p e, elementOf? r p = some e → e.attributes = []) (name : String) :
    (ungrouped (cardElement r (qs ++ [.ofText .productId (some name)]))).getLast? =
      some (productIdElement name) := by
  have hlast : inGroup (qs ++ [.ofText .productId (some name)]) none =
      inGroup qs none ++ [.ofText .productId (some name)] := inGroup_concat_self qs _
  rw [ungrouped_cardElement fun p _ ↦ h p, hlast, List.filterMap_append, List.filterMap_cons,
    elementOf?_productId hcodec]
  exact List.getLast?_concat

/-- There is no other PRODID element just when no other property has this name. -/
theorem count_prodid_eq_one_iff (name : String) :
    (cardElement .standard (qs ++ [.ofText .productId (some name)])).tags.count
        (qualified "prodid") = 1 ↔
      ∀ p ∈ qs, ∀ e, elementOf? .standard p = some e → ¬p.Names "prodid" := by
  have hcount : (productIdElement name).tags.count (qualified "prodid") = 1 := by
    show List.count (qualified "prodid") [qualified "prodid", qualified "text"] = 1
    decide +kernel
  rw [count_tags_cardElement (by decide +kernel) (by decide +kernel), List.filterMap_append,
    List.flatMap_append, List.count_append, List.filterMap_cons, elementOf?_productId rfl,
    List.filterMap_nil, List.flatMap_singleton, hcount, Nat.add_eq_right, List.count_eq_zero]
  rw [mem_tags_elements (by decide) (by decide)]
  simp only [not_exists, not_and]

variable {d : XCardDocument} {definitions : Definitions} {name : String} {card : Element}

/-- In the element of a card that was added to a document that replaces PRODID properties, the last
element without a group is that of the document's own property, with the name that the settings say.
There is no second element of this kind at any depth just when no property that was written has the
name in its element: as its tag, as that of a parameter, or as that of a data type. -/
theorem getLast?_ungrouped_and_count_prodid (hregistry : d.registry = .standard)
    (hreplaces : d.replacesProductId = true)
    (hname : d.settings.read d.definitions (.text "prodid_name") = .ok (definitions, .text name))
    (hadd : (d.add ps).2 = .ok card) :
    (ungrouped card).getLast? = some (productIdElement name) ∧
    (card.tags.count (qualified "prodid") = 1 ↔
      ∀ p ∈ keptProperties true ps, ∀ e, elementOf? .standard p = some e → ¬p.Names "prodid") := by
  have hplan := plan_of_replaces hreplaces hname ps
  have hfault := faultOf?_eq_none_of_add hplan hadd
  rw [add_eq_ok hplan hfault, hregistry] at hadd
  obtain rfl := Except.ok.inj hadd
  exact ⟨getLast?_ungrouped rfl (fun p e he ↦ (isComposed_of_elementOf? he).attributes) name,
    count_prodid_eq_one_iff name⟩

/-- A card with a PRODID property of its own, which is replaced, and with a group before and after
the properties without one. -/
theorem getLast?_ungrouped_and_count_prodid_club :
    let d : XCardDocument := ⟨.standard, .standard, .empty, true, [], []⟩
    let club : List Property :=
      [{ Property.ofExtension "X-MOTTO" (some "Tea & Cake") none with group := some "home" },
        .ofText .productId (some "other"), .ofText .formattedName (some "Club"),
        { Property.ofResource .photo (.data [1, 2]) none with group := some "work" }]
    ∃ definitions card,
      d.settings.read d.definitions (.text "prodid_name") =
        .ok (definitions, .text "vcardio 0.1.0") ∧
      (d.add club).2 = .ok card ∧
      (ungrouped card).getLast? = some (productIdElement "vcardio 0.1.0") ∧
      (card.tags.count (qualified "prodid") = 1 ↔
        ∀ p ∈ keptProperties true club, ∀ e, elementOf? .standard p = some e →
          ¬p.Names "prodid") ∧
      card.tags.count (qualified "prodid") = 1 := by
  intro d club
  have hname : d.settings.read d.definitions (.text "prodid_name") =
      .ok (_, .text "vcardio 0.1.0") := rfl
  have hadd : (d.add club).2 = .ok _ := rfl
  obtain ⟨hlast, hiff⟩ := getLast?_ungrouped_and_count_prodid rfl rfl hname hadd
  exact ⟨_, _, hname, hadd, hlast, hiff, by decide +kernel⟩

/-- An extension property with the name PRODID is not replaced, and comes to an element besides that
of the document's own property. -/
theorem prodid_written_twice :
    ∃ d definitions card, new .standard .empty = .ok d ∧ d.replacesProductId = true ∧
      d.settings.read d.definitions (.text "prodid_name") =
        .ok (definitions, .text "vcardio 0.1.0") ∧
      (d.add [.ofText .formattedName (some "Club"),
        .ofExtension "PRODID" (some "other") none]).2 = .ok card ∧
      card.tags.count (qualified "prodid") = 2 :=
  ⟨_, _, _, rfl, rfl, rfl, rfl, by decide +kernel⟩

end ContactCard.XCardDocument
