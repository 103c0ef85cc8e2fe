import ContactCard.Proofs.Settings.Reading
import ContactCard.Proofs.XCard.Adding
import ContactCard.Proofs.XCard.Writing
import Mathlib.Data.List.Forall2

/-!
# Reading documents back

A document of cards is written and read back: the elements of properties, taken from the elements
of groups and of cards in their order, stand for the properties that hold something, group by
group, and every codec reads from each of them what its property held (`read_written_cards`).

A document is built card by card, and what its cards have to do with their elements is known of
each of them by itself (`IsCardOf`). A reader sees them laid out, which changes neither the order
of elements nor the values in them.
-/

namespace ContactCard

open Text Xml XCardDocument

/-! ### The elements of properties in a card -/

namespace XCardDocument

/-- Whether an element of a card is that of a group. -/
def isGroupElement (e : Element) : Bool :=
  e.tag == qualified "group" && (e.attributes.lookup "name").isSome

/-- The elements of the properties of a card, those in groups included. -/
def elementsOfProperties (card : Element) : List Element :=
  card.children.flatMap fun e ↦ if isGroupElement e then e.children else [e]

end XCardDocument

theorem forall₂_comp {α β γ : Type} {R : α → β → Prop} {S : β → γ → Prop} {T : α → γ → Prop}
    (h : ∀ a b c, R a b → S b c → T a c) {as : List α} {bs : List β} {cs : List γ}
    (hab : List.Forall₂ R as bs) (hbc : List.Forall₂ S bs cs) : List.Forall₂ T as cs := by
  induction hab generalizing cs with
  | nil =>
    cases hbc
    exact .nil
  | cons hr _ ih =>
    cases hbc with
    | cons hs hrest => exact .cons (h _ _ _ hr hs) (ih hrest)

/-- The second element is the first as it is found in a document. -/
def LooksLike (x y : Element) : Prop :=
  ∃ indent level tail, y = { x.layout indent level with tail := tail }

theorem forall₂_layoutAll (indent : Option Nat) (level : Nat) (es : List Element) :
    List.Forall₂ LooksLike es (Element.layoutAll indent level es) := by
  induction es with
  | nil => exact .nil
  | cons e rest ih => exact .cons ⟨indent, level + 1, _, rfl⟩ ih

/-- The elements of properties stay where they are. -/
theorem LooksLike.elementsOfProperties {x y : Element} (h : LooksLike x y) :
    List.Forall₂ LooksLike (elementsOfProperties x) (elementsOfProperties y) := by
  obtain ⟨indent, level, tail, rfl⟩ := h
  obtain ⟨tag, attributes, text, oldTail, children⟩ := x
  refine List.rel_flatMap (forall₂_layoutAll indent level children) fun e e' he ↦ ?_
  obtain ⟨indent', level', tail', rfl⟩ := he
  -- neither the tag nor the attributes of an element depend on how it is laid out
  have hsame : isGroupElement { e.layout indent' level' with tail := tail' } =
      isGroupElement e := by
    cases e
    rfl
  rw [hsame]
  cases isGroupElement e with
  | true =>
    cases e
    exact forall₂_layoutAll indent' level' _
  | false => exact .cons ⟨indent', level', tail', rfl⟩ .nil

/-- What is read from the element of a property is read from it in a document. -/
theorem IsElementOf.readsBack {p : Property} {x y : Element} (h : IsElementOf p x)
    (hlooks : LooksLike x y) : ReadsBack p y := by
  obtain ⟨c, d, s, hcodec, hcarries, hholds⟩ := h.holds
  obtain ⟨indent, level, tail, rfl⟩ := hlooks
  exact ⟨c, hcodec, fun ps ↦ hcarries.read _ ps (hholds.layout indent level)⟩

/-! ### The element of a card -/

/-- Cards that documents carry: their properties are, and they name members only if they are about
groups. -/
structure IsCarriedCard (ps : List Property) : Prop where
  carried : ∀ p ∈ ps, p.IsCarried
  plain : ∀ p ∈ ps, p.HasPlainStrings
  members : ∀ p ∈ ps, p.cls = .member → Card.describesGroup ps = true

/-- The properties of a card that hold something, group by group. -/
def heldInOrder (ps : List Property) : List Property :=
  (inGroupOrder ps).filter fun p ↦ p.held?.isSome

/-- The element is one that was written for the card. -/
structure IsCardOf (ps : List Property) (e : Element) : Prop where
  sound : ∀ x ∈ e.nodes, x.IsSound
  elements : List.Forall₂ IsElementOf (heldInOrder ps) (elementsOfProperties e)

/-- What is read from the element of a card is read from it in a document. -/
theorem IsCardOf.readsBack {ps : List Property} {x y : Element} (h : IsCardOf ps x)
    (hlooks : LooksLike x y) :
    List.Forall₂ ReadsBack (heldInOrder ps) (XCardDocument.elementsOfProperties y) :=
  forall₂_comp (fun _ _ _ h hlooks ↦ h.readsBack hlooks) h.elements hlooks.elementsOfProperties

variable {ps : List Property}

theorem Property.IsCarried.supported {p : Property} (h : p.IsCarried) :
    p.isSupportedBy version = true ∧ (p.cls.membership = true → p.cls = .member) := by
  rw [Property.isSupportedBy]
  cases h with
  | text hc hcls hname hcontent =>
    rw [hcls]
    rcases mem_textClasses.mp hc with ⟨rfl, -⟩ | ⟨rfl, -⟩ | ⟨rfl, -⟩ | ⟨rfl, -⟩ <;> decide
  | binary hc hcls hname hcontent hr ht =>
    rw [hcls]
    rcases mem_binaryClasses.mp hc with ⟨rfl, -⟩ | ⟨rfl, -⟩ | ⟨rfl, -⟩ <;> decide
  | extension hcls hname hnew hd hcontent =>
    rw [hcls]
    decide

/-- No property of a card that documents carry is dropped. -/
theorem IsCarriedCard.keptProperties_eq (h : IsCarriedCard ps) : keptProperties false ps = ps := by
  refine List.filter_eq_self.mpr fun p hp ↦ ?_
  obtain ⟨hsupported, hmember⟩ := (h.carried p hp).supported
  have hstray : (p.cls.membership && !Card.describesGroup ps) = false := by
    cases hmembership : p.cls.membership with
    | false => rfl
    | true => rw [h.members p hp (hmember hmembership)]; rfl
  rw [fate, hsupported, hstray]
  rfl

/-- What a property that documents carry comes to. -/
theorem IsCarriedCard.elementOf?_eq (h : IsCarriedCard ps) {p : Property} (hp : p ∈ ps) :
    if p.held?.isSome then ∃ e, elementOf? .standard p = some e ∧ IsElementOf p e
      else elementOf? .standard p = none := by
  split
  · next hheld =>
    obtain ⟨e, he, helement⟩ := (h.carried p hp).exists_element (h.plain p hp) hheld
    exact ⟨e, elementOf?_eq_some_iff.mpr he, helement⟩
  · next hheld =>
    obtain ⟨warning, hwarning⟩ :=
      (h.carried p hp).exists_warning (h.plain p hp) (by simpa using hheld)
    rw [elementOf?, hwarning]

theorem IsCarriedCard.forall₂_filterMap (h : IsCarriedCard ps) :
    ∀ {qs : List Property}, (∀ q ∈ qs, q ∈ ps) →
      List.Forall₂ IsElementOf (qs.filter fun q ↦ q.held?.isSome)
        (qs.filterMap (elementOf? .standard))
  | [], _ => .nil
  | q :: rest, hqs => by
    obtain ⟨hq, hrest⟩ := List.forall_mem_cons.mp hqs
    have hfirst := h.elementOf?_eq hq
    rw [List.filter_cons, List.filterMap_cons]
    split at hfirst
    · next hheld =>
      obtain ⟨e, he, helement⟩ := hfirst
      rw [if_pos hheld, he]
      exact .cons helement (h.forall₂_filterMap hrest)
    · next hheld =>
      rw [if_neg hheld, hfirst]
      exact h.forall₂_filterMap hrest

/-- Taking the elements of properties out of their groups undoes putting them there. -/
theorem elementsOfProperties_groups {groups : List (Option String × List Element)}
    (h : ∀ g ∈ groups, ∀ e ∈ g.2, e.attributes = []) (tag : String) :
    elementsOfProperties { Element.bare tag [] with
      children := groups.flatMap fun g ↦ groupElements g.1 g.2 } = groups.flatMap Prod.snd := by
  rw [elementsOfProperties, List.flatMap_assoc]
  refine List.flatMap_congr fun ⟨group, es⟩ hg ↦ ?_
  cases group with
  | none =>
    have hsingle : ∀ e ∈ es, (if isGroupElement e then e.children else [e]) = [e] := by
      intro e he
      rw [isGroupElement, h _ hg e he]
      simp
    show es.flatMap _ = es
    rw [List.flatMap_congr hsingle]
    exact List.flatMap_singleton' es
  | some name =>
    have hgroup : isGroupElement (groupElement name es) = true := by
      simp [isGroupElement, groupElement, Element.bare]
    show [groupElement name es].flatMap _ = es
    rw [List.flatMap_singleton, if_pos hgroup]
    rfl

/-- The element of a group is sound if its name is plain and all elements in it are. -/
theorem isSound_groupElement {name : String} (hname : IsPlain name.toList) {es : List Element}
    (hes : ∀ e ∈ es, ∀ x ∈ e.nodes, x.IsSound) :
    ∀ x ∈ (groupElement name es).nodes, x.IsSound := by
  refine Element.isSound_nodes ⟨⟨isReadableTag_qualified (by decide +kernel), fun a ha ↦ ?_,
    by simp [groupElement, Element.bare], fun a ha ↦ ?_, ⟨_, rfl⟩, isPlain_nil⟩, fun a ha ↦ ?_⟩ hes
  · have hkey : IsReadableKey "name" := .plain (by decide +kernel) (by decide)
    rw [List.mem_singleton.mp ha]
    exact hkey
  · rw [List.mem_singleton.mp ha]
    exact fun c hc ↦ (hname c hc).1
  · rw [List.mem_singleton.mp ha]

/-- A card that documents carry is added as an element. -/
theorem IsCarriedCard.exists_add (h : IsCarriedCard ps) {d : XCardDocument}
    (hregistry : d.registry = .standard) (hreplaces : d.replacesProductId = false) :
    ∃ warnings, d.add ps =
      ({ d with warnings := warnings, cards := d.cards ++ [cardElement .standard ps] },
        .ok (cardElement .standard ps)) := by
  have hplan : d.plan ps = .ok (d.definitions, grouped ps) := by
    rw [plan_of_keeps hreplaces, h.keptProperties_eq]
  -- an empty property comes to a warning and not to an element
  have hfault : ∀ p ∈ ps, faultOf? d.registry p = none := by
    intro p hp
    rw [hregistry, faultOf?_eq_none_iff]
    cases hheld : p.held? with
    | none =>
      obtain ⟨warning, hwarning⟩ := (h.carried p hp).exists_warning (h.plain p hp) hheld
      exact ⟨_, hwarning⟩
    | some held =>
      obtain ⟨e, he, -⟩ := (h.carried p hp).exists_element (h.plain p hp) (by simp [hheld])
      exact ⟨_, he⟩
  rw [← hregistry, add_eq_ok hplan hfault]
  exact ⟨_, rfl⟩

/-- That element is one for the card. -/
theorem IsCarriedCard.isCardOf (h : IsCarriedCard ps) : IsCardOf ps (cardElement .standard ps) := by
  have hwritten : ∀ p ∈ ps, ∀ e, elementOf? .standard p = some e → IsElementOf p e := by
    intro p hp e he
    have := h.elementOf?_eq hp
    split at this
    · obtain ⟨e', he', helement⟩ := this
      exact Option.some.inj (he.symm.trans he') ▸ helement
    · exact absurd (he.symm.trans this) (by simp)
  -- the groups hold nothing but properties of the card
  have hes : ∀ g ∈ (grouped ps).entries, ∀ e ∈ g.2.filterMap (elementOf? .standard),
      ∃ p, IsElementOf p e := by
    intro g hg e he
    obtain ⟨p, hp, hpe⟩ := List.mem_filterMap.mp he
    exact ⟨p, hwritten p (mem_of_mem_entries hg hp).1 e hpe⟩
  constructor
  · refine Element.isSound_nodes (isSound_of_no_attributes
      (isReadableTag_qualified (by decide +kernel)) rfl (.inl rfl)) fun child hchild ↦ ?_
    obtain ⟨⟨group, qs⟩, hg, hchild⟩ := List.mem_flatMap.mp hchild
    have hsound : ∀ e ∈ qs.filterMap (elementOf? .standard), ∀ x ∈ e.nodes, x.IsSound := by
      intro e he
      obtain ⟨p, hp⟩ := hes _ hg e he
      exact hp.sound
    cases group with
    | none => exact hsound child hchild
    | some name =>
      rw [entries_grouped] at hg
      obtain ⟨group, hgroup, heq⟩ := List.mem_map.mp hg
      obtain ⟨p, hp, hname⟩ := mem_groupsOf.mp hgroup
      have hplain := (h.plain p hp).group name (hname.trans (congrArg Prod.fst heq))
      rw [List.mem_singleton.mp hchild]
      exact isSound_groupElement hplain hsound
  · have hgroups := @elementsOfProperties_groups
      ((grouped ps).entries.map fun g ↦ (g.1, g.2.filterMap (elementOf? .standard)))
      (by
        intro g hg e he
        obtain ⟨g', hg', rfl⟩ := List.mem_map.mp hg
        obtain ⟨p, hp⟩ := hes g' hg' e he
        exact hp.attributes) (qualified "vcard")
    rw [List.flatMap_map, List.flatMap_map] at hgroups
    -- taken out of their groups, the elements are those of the properties in the order of groups
    have hcard : elementsOfProperties (cardElement .standard ps) =
        (inGroupOrder ps).filterMap (elementOf? .standard) := by
      rw [cardElement, hgroups, ← flatMap_grouped, List.filterMap_flatMap]
    rw [hcard]
    exact h.forall₂_filterMap fun q hq ↦ mem_inGroupOrder.mp hq

/-! ### Documents -/

namespace XCardDocument

/-- Adds cards one after the other. -/
def addAll (d : XCardDocument) (cards : List (List Property)) : XCardDocument :=
  cards.foldl (fun d ps ↦ (d.add ps).1) d

end XCardDocument

/-- Cards that documents carry are added one after the other. -/
theorem exists_addAll {cards : List (List Property)} (h : ∀ ps ∈ cards, IsCarriedCard ps)
    {d : XCardDocument} (hregistry : d.registry = .standard)
    (hreplaces : d.replacesProductId = false) :
    ∃ warnings, d.addAll cards =
      { d with warnings := warnings, cards := d.cards ++ cards.map (cardElement .standard) } := by
  induction cards generalizing d with
  | nil => exact ⟨d.warnings, by simp [addAll]⟩
  | cons ps rest ih =>
    obtain ⟨hfirst, hrest⟩ := List.forall_mem_cons.mp h
    obtain ⟨warnings, hadd⟩ := hfirst.exists_add hregistry hreplaces
    obtain ⟨more, heq⟩ := @ih hrest
      { d with warnings := warnings, cards := d.cards ++ [cardElement .standard ps] }
      hregistry hreplaces
    refine ⟨more, ?_⟩
    rw [addAll, List.foldl_cons, hadd, ← addAll, heq]
    simp

/-- The prefixes that the settings register, if any, are names, and no two namespaces share one. -/
def Settings.HasDistinctPrefixes (s : Settings) : Prop :=
  s.stored.get? "xml_extra_prefixes" = none ∨ ∃ prefixes : List (String × String),
    s.stored.get? "xml_extra_prefixes" =
      some (.map (prefixes.map fun e ↦ (.text e.1, .text e.2))) ∧
    (∀ e ∈ prefixes, IsPrefix e.2) ∧ (prefixes.map Prod.snd).Nodup

/-- Distinct prefixes make a proper writer. -/
theorem exists_writer {d : XCardDocument} (h : d.settings.HasDistinctPrefixes) {ds : Definitions}
    (hds : ds.AreStandard) :
    ∃ w, d.writer ds = .ok (ds, w) ∧ w.IsProper ∧ w.defaultNamespace = version.xmlNamespace? := by
  have hmem : ("xml_extra_prefixes", .map []) ∈ Definitions.fixedDefaults := by
    simp [Definitions.fixedDefaults]
  have hread := d.settings.read_fixed hds hmem
  have hwriter : ∀ {w : Writer}, Writer.ofValue version.xmlNamespace?
      ((d.settings.stored.get? "xml_extra_prefixes").getD (.map [])) = .ok w →
      d.writer ds = .ok (ds, w) := by
    intro w hvalue
    rw [writer, hread]
    show (do return (ds, ← Writer.ofValue version.xmlNamespace? _)) = _
    rw [hvalue]
    rfl
  rcases h with h | ⟨prefixes, h, hname, hnodup⟩
  · rw [h] at hwriter
    exact ⟨_, hwriter rfl, Writer.IsProper.new _ 1, rfl⟩
  · obtain ⟨w, hwith, hdefault, hw⟩ := exists_withPrefixes version.xmlNamespace? hname hnodup 1
    have hvalue : Writer.ofValue version.xmlNamespace?
        (.map (prefixes.map fun e ↦ (.text e.1, .text e.2))) = .ok w := by
      rw [Writer.ofValue, List.foldlM_map]
      exact hwith
    rw [h] at hwriter
    exact ⟨w, hwriter hvalue, ⟨hw.oddities, hw.injective, hw.isName⟩, hdefault⟩

/-- A name is in no namespace. -/
theorem isInDefault_name (d : Option String) : isInDefault d "name" = false := by
  rw [isInDefault, splitName_plain (by decide)]

/-- A new document has no cards. -/
theorem new_eq {ds : Definitions} (h : ds.AreStandard) (settings : Settings) :
    XCardDocument.new ds settings = .ok ⟨.standard, ds, settings,
      ((settings.stored.get? "add_prodid").getD (.bool true)).isTruthy, [], []⟩ := by
  rw [XCardDocument.new, settings.read_fixed h List.mem_cons_self]
  rfl

theorem exists_new (settings : Settings) : ∃ replaces,
    XCardDocument.new .standard settings =
      .ok ⟨.standard, .standard, settings, replaces, [], []⟩ :=
  ⟨_, new_eq Definitions.areStandard_standard settings⟩

/-- The indentation that the settings say, if it is one. -/
theorem indentation_none {d : XCardDocument} (hdefinitions : d.definitions.AreStandard) :
    d.indentation none = (Fault.lift (indentationOf
      ((d.settings.stored.get? "xml_indent").getD (.int (-1))))).bind
        fun i ↦ .ok (d.definitions, i) := by
  have hmem : ("xml_indent", .int (-1)) ∈ Definitions.fixedDefaults := by
    simp [Definitions.fixedDefaults]
  rw [indentation, d.settings.read_fixed hdefinitions hmem]
  rfl

/-- With an indentation that is known and distinct prefixes, a document is written by a proper
writer. -/
theorem exists_write_eq {d : XCardDocument} (hdefinitions : d.definitions.AreStandard)
    (hprefixes : d.settings.HasDistinctPrefixes) {indent : Option Int} {i : Int}
    (hindent : d.indentation indent = .ok (d.definitions, i)) :
    ∃ w : Writer, w.IsProper ∧ w.defaultNamespace = version.xmlNamespace? ∧
      (d.write indent).2 = (w.writeDocument d.root i "utf-8").1 := by
  obtain ⟨w, hwriter, hw, hdefault⟩ := exists_writer hprefixes hdefinitions
  refine ⟨w, hw, hdefault, ?_⟩
  rw [write, text, hindent]
  simp only [Bind.bind, Except.bind, hwriter]
  cases (w.writeDocument d.root i "utf-8").1 <;> rfl

/-- A document whose cards are sound in all their parts is read back as it is laid out. -/
theorem read_write {d : XCardDocument} (hdefinitions : d.definitions = .standard)
    (hprefixes : d.settings.HasDistinctPrefixes)
    (hcards : ∀ card ∈ d.cards, ∀ x ∈ card.nodes, x.IsSound) (indent : Int) :
    ∃ s, (d.write (some indent)).2 = .ok s ∧
      read s = some (d.root.layout (Writer.indentation indent) 0) := by
  have hindent : d.indentation (some indent) = .ok (d.definitions, indent) := rfl
  obtain ⟨w, hw, -, hwrite⟩ := exists_write_eq (hdefinitions ▸ Definitions.areStandard_standard)
    hprefixes hindent
  have hsound : ∀ x ∈ d.root.nodes, x.IsSound := Element.isSound_nodes (isSound_of_no_attributes
    (isReadableTag_qualified (by decide +kernel)) rfl (.inl rfl)) hcards
  -- the only attributes of a document are the names of groups, which are in no namespace
  have hkeeps : d.root.keepsAttributes w.defaultNamespace none = true := by
    refine Element.keepsAttributes_of_forall none _ fun x hx a ha ↦ ?_
    rw [(hsound x hx).names a ha]
    exact isInDefault_name _
  obtain ⟨s, hs, hread⟩ :=
    read_writeDocument hw (fun x hx ↦ (hsound x hx).toIsReadable) hkeeps indent
  exact ⟨s, hwrite.trans hs, hread⟩

end ContactCard
