import ContactCard.Proofs.Codec.Output
import ContactCard.Proofs.XCard.Accounting
import ContactCard.Proofs.XCard.Writing
import ContactCard.Proofs.Xml.Outline

/-!
# What the elements of cards are made up of

Whatever a property is, the element that it comes to is made up in one way (`IsComposed`): it has
the tag of the property and holds its parameters, if there are any, and one value. So all that a
card has a say in is the tag, the names of the parameters, the data type, the texts, and the name of
the group (`IsPart`), and the tags in the element of a card are those of its properties, those of
groups and of the card itself apart (`count_tags_cardElement`).
-/

namespace ContactCard

open Text Xml XCardDocument

/-! ### Elements of properties -/

/-- The element of a property has a name in it: as its tag, as that of one of its parameters, or as
that of its data type. -/
def Property.Names (p : Property) (name : String) : Prop :=
  propertyTag p = .ok (qualified name) ∨ name ∈ p.parameters.names ∨
    ∃ c d, Registry.standard.codecOfProperty p = .ok c ∧ c.dataType p .v4_0 = .ok (some d) ∧
      toLower d.name = name

namespace XCardDocument

variable {p : Property} {e x : Element} {name : String}

/-- How the element of a property is made up. -/
inductive IsComposed (p : Property) : Element → Prop
  | mk {c : Codec} {tag : String} {ps : Parameters} {d : Option DataType} {v : Value}
      (hcodec : Registry.standard.codecOfProperty p = .ok c) (htag : propertyTag p = .ok tag)
      (hnames : ∀ name ∉ describingNames, name ∈ ps.names ↔ name ∈ p.parameters.names)
      (hd : c.dataType p .v4_0 = .ok d) (hv : p.Provides v) :
      IsComposed p (PropertyElement.append ⟨propertyHolder tag ps, .v4_0⟩ d v).element

/-- The element that is written for a property has the tag of the property, its prepared parameters
other than VALUE, and one value. -/
theorem exists_of_propertyElement (h : propertyElement .standard p = .ok (.ok e)) :
    ∃ c tag ps d v, Registry.standard.codecOfProperty p = .ok c ∧ propertyTag p = .ok tag ∧
      c.prepareParameters p .v4_0 = .ok ps ∧ c.dataType p .v4_0 = .ok d ∧ p.Provides v ∧
      e = (PropertyElement.append ⟨propertyHolder tag (ps.remove "value"), .v4_0⟩ d v).element := by
  obtain ⟨c, hcodec, h⟩ := exists_of_bind_eq_ok h
  obtain ⟨tag, htag, h⟩ := exists_of_bind_eq_ok h
  obtain ⟨ps, hps, h⟩ := exists_of_bind_eq_ok h
  obtain ⟨outcome, houtcome, h⟩ := exists_of_bind_eq_ok h
  -- a property that is left out comes to a warning instead
  rcases outcome with e' | reason | reason
  · obtain rfl := Except.ok.inj (Except.ok.inj h)
    obtain ⟨d, v, hd, hv, rfl⟩ := (writesValue_of_codecOfProperty hcodec).value houtcome
    exact ⟨c, tag, ps, d, v, hcodec, htag, hps, hd, hv, rfl⟩
  · cases h
  · cases h

/-- Every element that a property comes to is made up in this way. -/
theorem isComposed_of_elementOf? (h : elementOf? .standard p = some e) : IsComposed p e := by
  obtain ⟨c, tag, ps, d, v, hcodec, htag, hps, hd, hv, rfl⟩ :=
    exists_of_propertyElement (elementOf?_eq_some_iff.mp h)
  refine .mk hcodec htag (fun name hname ↦ ?_) hd hv
  have hvalue : name ≠ toLower "value" := by
    rintro rfl
    exact hname (by decide +kernel)
  rw [Parameters.mem_names_remove hvalue,
    (writesValue_of_codecOfProperty hcodec).names hps name hname]

/-! ### Tags and texts -/

theorem qualified_inj {a b : String} : qualified a = qualified b ↔ a = b := by
  constructor
  · intro h
    have h := congrArg String.toList h
    simp only [qualified, PropertyElement.qualified, String.toList_append,
      List.append_cancel_left_eq, String.toList_inj] at h
    exact h
  · rintro rfl
    rfl

/-- An element in that of a property. -/
structure IsPart (p : Property) (x : Element) : Prop where
  tag : propertyTag p = .ok x.tag ∨ ∃ name, x.tag = qualified name
  attributes : x.attributes = []
  text : x.text = .null ∨ x.children = [] ∧ p.Provides x.text

theorem isPart_of_mem_toElement {ps : Parameters} (hx : x ∈ (ps.toElement .v4_0).nodes) :
    IsPart p x := by
  rw [Element.nodes_eq, List.mem_cons, List.mem_flatMap] at hx
  rcases hx with rfl | ⟨parameter, hparameter, hx⟩
  · exact ⟨.inr ⟨_, rfl⟩, rfl, .inl rfl⟩
  obtain ⟨⟨name, values⟩, -, rfl⟩ := List.mem_map.mp hparameter
  rw [Element.nodes_eq, List.mem_cons, List.mem_flatMap] at hx
  rcases hx with rfl | ⟨value, hvalue, hx⟩
  · exact ⟨.inr ⟨_, rfl⟩, rfl, .inl rfl⟩
  obtain ⟨s, -, rfl⟩ := List.mem_map.mp hvalue
  rw [List.mem_singleton.mp hx]
  exact ⟨.inr ⟨_, rfl⟩, rfl, .inr ⟨rfl, .inl ⟨s, rfl⟩⟩⟩

theorem IsComposed.tag (h : IsComposed p e) : propertyTag p = .ok e.tag := by
  obtain ⟨-, htag, -, -, -⟩ := h
  exact htag.trans (congrArg _ start_propertyHolder.1.symm)

theorem IsComposed.attributes (h : IsComposed p e) : e.attributes = [] := by
  obtain ⟨-, -, -, -, -⟩ := h
  exact start_propertyHolder.2.1

/-- All elements in that of a property. -/
theorem IsComposed.isPart (h : IsComposed p e) : ∀ x ∈ e.nodes, IsPart p x := by
  intro x hx
  rw [Element.nodes_eq, List.mem_cons, List.mem_flatMap] at hx
  obtain ⟨-, htag, -, -, hv⟩ := h
  rcases hx with rfl | ⟨child, hchild, hx⟩
  · obtain ⟨hown, hattributes, htext⟩ := start_propertyHolder
    exact ⟨.inl (htag.trans (congrArg _ hown.symm)), hattributes, .inl htext⟩
  rcases List.mem_append.mp hchild with hchild | hchild
  · rw [eq_of_mem_propertyHolder hchild] at hx
    exact isPart_of_mem_toElement hx
  · rw [List.mem_singleton.mp hchild] at hx
    rw [List.mem_singleton.mp hx]
    exact ⟨.inr ⟨_, rfl⟩, rfl, .inr ⟨rfl, hv⟩⟩

/-- The names of elements that stand for the parameters and for values of well-known data types. -/
def structuralNames : List String :=
  ["parameters", "unknown", "text", "uri", "language-tag", "integer"]

theorem valueName_mem_structuralNames (name : String) :
    Parameters.valueName name ∈ structuralNames := by
  have hall : ∀ s ∈ PropertyElement.unknownName :: Parameters.valueNames.map Prod.snd,
      s ∈ structuralNames := by decide
  exact hall _ (Parameters.valueName_mem name)

/-- The tags of parameters are their names; those of their values are all structural. -/
theorem mem_tags_toElement {ps : Parameters} (hname : name ∉ structuralNames) :
    qualified name ∈ (ps.toElement .v4_0).tags ↔ name ∈ ps.names := by
  rw [Element.tags_eq, List.mem_cons, List.mem_flatMap, Parameters.names, OrderedMap.keys,
    List.mem_map]
  constructor
  · rintro (htag | ⟨parameter, hparameter, htag⟩)
    · exact absurd (qualified_inj.mp htag ▸ by decide) hname
    obtain ⟨entry, hentry, rfl⟩ := List.mem_map.mp hparameter
    rw [Element.tags_eq, List.mem_cons, List.mem_flatMap] at htag
    rcases htag with htag | ⟨value, hvalue, htag⟩
    · exact ⟨entry, hentry, (qualified_inj.mp htag).symm⟩
    · obtain ⟨s, -, rfl⟩ := List.mem_map.mp hvalue
      have hsame := qualified_inj.mp (List.mem_singleton.mp htag)
      exact absurd (hsame ▸ valueName_mem_structuralNames entry.1) hname
  · rintro ⟨entry, hentry, rfl⟩
    refine .inr ⟨_, List.mem_map_of_mem hentry, ?_⟩
    rw [Element.tags_eq]
    exact List.mem_cons_self

theorem mem_tags_propertyHolder {tag : String} {ps : Parameters} (hname : name ∉ structuralNames) :
    (∃ child ∈ (propertyHolder tag ps).children, qualified name ∈ child.tags) ↔
      name ∈ ps.names := by
  rw [propertyHolder]
  cases hempty : ps.isEmpty with
  | true =>
    have hentries : ps.table.entries = [] := List.isEmpty_iff.mp hempty
    simp [Element.bare, Parameters.names, OrderedMap.keys, hentries]
  | false =>
    rw [if_neg (by simp)]
    show (∃ child ∈ [ps.toElement .v4_0], qualified name ∈ child.tags) ↔ _
    simp only [List.mem_singleton, exists_eq_left, mem_tags_toElement hname]

/-- The value has the name of its data type. -/
theorem qualified_eq_valueTag_iff {d : Option DataType} (hname : name ∉ structuralNames) :
    qualified name = PropertyElement.valueTag .v4_0 d ↔
      ∃ t, d = some t ∧ toLower t.name = name := by
  have htag : PropertyElement.valueTag .v4_0 d =
      qualified (d.elim PropertyElement.unknownName fun d ↦ toLower d.name) := rfl
  rw [htag, qualified_inj]
  cases d with
  | none =>
    have hunknown : name ≠ PropertyElement.unknownName := by
      rintro rfl
      exact hname (by decide)
    simpa using hunknown
  | some t => simp [eq_comm]

/-- What a property names stands in its element, and no other name but those of parameters and
values in general does. -/
theorem IsComposed.mem_tags (h : IsComposed p e) (hstructural : name ∉ structuralNames)
    (hdescribing : name ∉ describingNames) : qualified name ∈ e.tags ↔ p.Names name := by
  obtain @⟨c, tag, ps, d, v, hcodec, htag, hnames, hd, -⟩ := h
  have hown : qualified name = (propertyHolder tag ps).tag ↔
      propertyTag p = .ok (qualified name) := by
    rw [start_propertyHolder.1, htag, Except.ok.injEq, eq_comm]
  have hvalue : qualified name = PropertyElement.valueTag .v4_0 d ↔
      ∃ c t, Registry.standard.codecOfProperty p = .ok c ∧ c.dataType p .v4_0 = .ok (some t) ∧
        toLower t.name = name := by
    rw [qualified_eq_valueTag_iff hstructural]
    constructor
    · rintro ⟨t, rfl, ht⟩
      exact ⟨c, t, hcodec, hd, ht⟩
    · rintro ⟨c', t, hc', ht, hlower⟩
      obtain rfl := Except.ok.inj (hcodec.symm.trans hc')
      exact ⟨t, Except.ok.inj (hd.symm.trans ht), hlower⟩
  have htags : (PropertyElement.append ⟨propertyHolder tag ps, .v4_0⟩ d v).element.tags =
      (propertyHolder tag ps).tag :: ((propertyHolder tag ps).children.flatMap Element.tags ++
        [PropertyElement.valueTag .v4_0 d]) := by
    rw [Element.tags_eq]
    exact congrArg _ (List.flatMap_append ..)
  rw [htags, List.mem_cons, List.mem_append, List.mem_flatMap, List.mem_singleton, hown, hvalue,
    mem_tags_propertyHolder hstructural, hnames name hdescribing, Property.Names]

/-! ### Elements of cards -/

variable {r : Registry} {qs : List Property}

/-- An element in that of a card: the card itself, a group, or an element in that of a property. -/
inductive IsCardPart (r : Registry) (qs : List Property) (x : Element) : Prop
  | card (htag : x.tag = qualified "vcard") (hattributes : x.attributes = [])
      (htext : x.text = .null)
  | group {name : String} (htag : x.tag = qualified "group")
      (hattributes : x.attributes = [("name", name)]) (htext : x.text = .null)
  | property {p : Property} {e : Element} (hp : p ∈ qs) (he : elementOf? r p = some e)
      (hx : x ∈ e.nodes)

theorem isCardPart_of_mem_nodes (hx : x ∈ (cardElement r qs).nodes) : IsCardPart r qs x := by
  rw [Element.nodes_eq, List.mem_cons, List.mem_flatMap] at hx
  rcases hx with rfl | ⟨child, hchild, hx⟩
  · exact .card rfl rfl rfl
  obtain ⟨⟨group, ps⟩, hg, hchild⟩ := List.mem_flatMap.mp hchild
  have hproperty : ∀ e ∈ ps.filterMap (elementOf? r), x ∈ e.nodes → IsCardPart r qs x := by
    intro e he hx
    obtain ⟨p, hp, hpe⟩ := List.mem_filterMap.mp he
    exact .property (mem_of_mem_entries hg hp).1 hpe hx
  cases group with
  | none => exact hproperty child hchild hx
  | some name =>
    rw [List.mem_singleton.mp hchild, Element.nodes_eq, List.mem_cons, List.mem_flatMap] at hx
    rcases hx with rfl | ⟨e, he, hx⟩
    · exact .group rfl rfl rfl
    · exact hproperty e he hx

/-- Nothing in the elements of properties is lost. -/
theorem mem_nodes_cardElement {p : Property} {e : Element} (hp : p ∈ qs)
    (he : elementOf? r p = some e) (hx : x ∈ e.nodes) : x ∈ (cardElement r qs).nodes := by
  have hmem : p ∈ inGroupOrder qs := mem_inGroupOrder.mpr hp
  rw [← flatMap_grouped] at hmem
  obtain ⟨⟨group, ps⟩, hg, hp⟩ := List.mem_flatMap.mp hmem
  have he : e ∈ ps.filterMap (elementOf? r) := List.mem_filterMap.mpr ⟨p, hp, he⟩
  rw [Element.nodes_eq, List.mem_cons, List.mem_flatMap]
  cases group with
  | none => exact .inr ⟨e, List.mem_flatMap.mpr ⟨_, hg, he⟩, hx⟩
  | some name =>
    refine .inr ⟨_, List.mem_flatMap.mpr ⟨_, hg, List.mem_cons_self⟩, ?_⟩
    rw [Element.nodes_eq, List.mem_cons, List.mem_flatMap]
    exact .inr ⟨e, he, hx⟩

theorem inGroupOrder_perm (qs : List Property) : (inGroupOrder qs).Perm qs :=
  flatMap_filter_perm Property.group (nodup_eraseDups _) fun _ hp ↦
    List.mem_eraseDups.mpr (List.mem_map_of_mem hp)

/-- Other tags than those of cards and groups occur in the element of a card as often as in the
elements of its properties. -/
theorem count_tags_cardElement {t : String} (hcard : t ≠ qualified "vcard")
    (hgroup : t ≠ qualified "group") : (cardElement r qs).tags.count t =
      ((qs.filterMap (elementOf? r)).flatMap Element.tags).count t := by
  have hgroups : ∀ g : Option String × List Property,
      ((groupElements g.1 (g.2.filterMap (elementOf? r))).flatMap Element.tags).count t =
        ((g.2.filterMap (elementOf? r)).flatMap Element.tags).count t := by
    rintro ⟨- | name, ps⟩
    · rfl
    · rw [groupElements, List.flatMap_singleton, Element.tags_eq]
      exact List.count_cons_of_ne (Ne.symm hgroup)
  have hchildren : ((cardElement r qs).children.flatMap Element.tags).count t =
      (((inGroupOrder qs).filterMap (elementOf? r)).flatMap Element.tags).count t := by
    rw [cardElement, ← flatMap_grouped, List.filterMap_flatMap, List.flatMap_assoc,
      List.flatMap_assoc, List.count_flatMap, List.count_flatMap]
    exact congrArg List.sum (List.map_congr_left fun g _ ↦ hgroups g)
  have htag : (cardElement r qs).tag = qualified "vcard" := rfl
  rw [Element.tags_eq, htag, List.count_cons_of_ne (Ne.symm hcard), hchildren]
  exact (((inGroupOrder_perm qs).filterMap _).flatMap_right _).count_eq t

/-- A name occurs in the elements of properties just when a property that comes to one names it. -/
theorem mem_tags_elements (hstructural : name ∉ structuralNames)
    (hdescribing : name ∉ describingNames) :
    qualified name ∈ (qs.filterMap (elementOf? .standard)).flatMap Element.tags ↔
      ∃ p ∈ qs, ∃ e, elementOf? .standard p = some e ∧ p.Names name := by
  rw [List.mem_flatMap]
  constructor
  · rintro ⟨e, he, hmem⟩
    obtain ⟨p, hp, he⟩ := List.mem_filterMap.mp he
    exact ⟨p, hp, e, he, ((isComposed_of_elementOf? he).mem_tags hstructural hdescribing).mp hmem⟩
  · rintro ⟨p, hp, e, he, hnames⟩
    refine ⟨e, List.mem_filterMap.mpr ⟨p, hp, he⟩, ?_⟩
    exact ((isComposed_of_elementOf? he).mem_tags hstructural hdescribing).mpr hnames

end XCardDocument

end ContactCard
