import ContactCard.Proofs.XCard.Composition

/-!
# Members of groups

Members belong on the cards of groups. Whether a card is about a group is said by its first KIND
property (`Card.SaysGroup`), and from every other card a document drops the properties whose class
refers to members. It goes by the class alone, while elements are called by the names of properties:
a member element stands on the card of something else than a group just when a property of another
class names it (`member_only_in_groups_iff`).
-/

namespace ContactCard

open Text Xml

/-! ### Cards of groups -/

/-- The first KIND property says that the card is about a group, in any letter case. -/
def Card.SaysGroup (ps : List Property) : Prop :=
  ∃ p, ps.find? (fun p ↦ p.isOf .kind) = some p ∧
    ∃ s, p.value = .ok (some s) ∧ toLower s = "group"

theorem Card.describesGroup_eq_true_iff {ps : List Property} :
    Card.describesGroup ps = true ↔ Card.SaysGroup ps := by
  rw [Card.describesGroup, Card.SaysGroup]
  cases hfirst : ps.find? fun p ↦ p.isOf .kind with
  | none => simp
  | some p =>
    have hkind : p.isOf .kind = true := by simpa using List.find?_some hfirst
    simp only [Property.isKind, hkind, if_true, Option.some.injEq, exists_eq_left']
    rcases p.value with f | - | s <;> simp [Except.map, Except.toOption]

namespace XCardDocument

/-! ### Elements of members -/

/-- The property is written whatever the card is about, and has the name of members in its
element. -/
structure StandsForMember (d : XCardDocument) (p : Property) : Prop where
  retained : IsRetained d false p
  written : ∃ e, elementOf? d.registry p = some e
  names : p.Names "member"

variable {d : XCardDocument} {ps : List Property} {card : Element}

/-- The property that a document brings along names nothing but itself and its data type. -/
theorem not_names_ofValue_productId {name : String} (hown : name ≠ "prodid")
    (htype : name ≠ "text") (v : Value) : ¬(Property.ofValue .productId v).Names name := by
  obtain ⟨content, hcontent⟩ : ∃ content,
      Property.ofValue .productId v = .ofContent .productId content := by
    cases v <;> exact ⟨_, rfl⟩
  have hlower : toLower "PRODID" = "prodid" ∧ toLower "text" = "text" := by decide +kernel
  rw [hcontent]
  rintro (htag | hparameter | ⟨c, t, hcodec, ht, hname⟩)
  · have hsame : qualified (toLower "PRODID") = qualified name := Except.ok.inj htag
    exact hown (hlower.1 ▸ qualified_inj.mp hsame).symm
  · exact absurd hparameter List.not_mem_nil
  · have hcodec' : Registry.standard.codecOfProperty (.ofContent .productId content) =
        .ok .productId := rfl
    obtain rfl := Except.ok.inj (hcodec'.symm.trans hcodec)
    obtain rfl : DataType.text = t := Option.some.inj (Except.ok.inj ht)
    exact htype (hname.symm.trans hlower.2)

/-- A card has a member element just when one of the properties that are kept names it. -/
theorem mem_tags_member_iff (hregistry : d.registry = .standard)
    (hadd : (d.add ps).2 = .ok card) : qualified "member" ∈ card.tags ↔
      ∃ p ∈ keptProperties d.replacesProductId ps, ∃ e, elementOf? .standard p = some e ∧
        p.Names "member" := by
  obtain ⟨own, rfl, hown⟩ := exists_eq_cardElement hadd
  rw [hregistry, ← List.count_pos_iff, count_tags_cardElement (by decide +kernel)
    (by decide +kernel), List.count_pos_iff, mem_tags_elements (by decide) (by decide)]
  constructor
  · rintro ⟨p, hp, hwritten⟩
    rcases List.mem_append.mp hp with hp | hp
    · exact ⟨p, hp, hwritten⟩
    · obtain ⟨v, rfl⟩ := hown p hp
      obtain ⟨-, -, hnames⟩ := hwritten
      exact absurd hnames (not_names_ofValue_productId (by decide) (by decide) v)
  · rintro ⟨p, hp, hwritten⟩
    exact ⟨p, List.mem_append_left _ hp, hwritten⟩

/-- What is kept on the card of something else than a group is kept on every card. -/
theorem mem_keptProperties_iff {p : Property} (hgroup : ¬Card.SaysGroup ps) :
    p ∈ keptProperties d.replacesProductId ps ↔ p ∈ ps ∧ IsRetained d false p := by
  have hother : Card.describesGroup ps = false := by
    rwa [← Card.describesGroup_eq_true_iff, Bool.not_eq_true] at hgroup
  rw [keptProperties, List.mem_filter, hother, decide_eq_true_eq, fate_eq_kept_iff]

/-- On a card that was added a member element requires that the first KIND property says that the card
is about a group, unless a property that is of no class for members, but is written, has this name in
its element: as its tag, as that of a parameter, or as that of its data type. Properties of classes
for members are kept on the cards of groups only. -/
theorem member_only_in_groups_iff (hregistry : d.registry = .standard)
    (hadd : (d.add ps).2 = .ok card) :
    ((qualified "member" ∈ card.tags → Card.SaysGroup ps) ↔
      Card.SaysGroup ps ∨ ∀ p ∈ ps, ¬StandsForMember d p) ∧
    ∀ p ∈ keptProperties d.replacesProductId ps, p.cls.membership = true → Card.SaysGroup ps := by
  by_cases hgroup : Card.SaysGroup ps
  · exact ⟨iff_of_true (fun _ ↦ hgroup) (.inl hgroup), fun _ _ _ ↦ hgroup⟩
  have hmember : qualified "member" ∈ card.tags ↔ ∃ p ∈ ps, StandsForMember d p := by
    rw [mem_tags_member_iff hregistry hadd]
    constructor
    · rintro ⟨p, hp, e, he, hnames⟩
      obtain ⟨hp, hretained⟩ := (mem_keptProperties_iff hgroup).mp hp
      exact ⟨p, hp, hretained, ⟨e, hregistry ▸ he⟩, hnames⟩
    · rintro ⟨p, hp, hretained, ⟨e, he⟩, hnames⟩
      exact ⟨p, (mem_keptProperties_iff hgroup).mpr ⟨hp, hretained⟩, e, hregistry ▸ he, hnames⟩
  refine ⟨?_, fun p hp hcls ↦ ?_⟩
  · rw [hmember, or_iff_right hgroup]
    simp only [hgroup, imp_false, not_exists, not_and]
  · have hretained := ((mem_keptProperties_iff hgroup).mp hp).2
    exact absurd (hretained.member hcls) (by simp)

/-- A card whose first KIND property does not say that it is about a group, though the second one
does. Its member is dropped. -/
theorem member_only_in_groups_iff_club :
    let d : XCardDocument := ⟨.standard, .standard, .empty, true, [], []⟩
    let club : List Property :=
      [{ Property.ofText .member (some "urn:x") with group := some "home" },
        .ofText .formattedName (some "Club"), .ofText .kind (some "org"),
        .ofText .kind (some "GROUP"), .ofExtension "X-MOTTO" (some "Tea & Cake") none]
    ∃ card, (d.add club).2 = .ok card ∧
      ((qualified "member" ∈ card.tags → Card.SaysGroup club) ↔
        Card.SaysGroup club ∨ ∀ p ∈ club, ¬StandsForMember d p) ∧
      (∀ p ∈ keptProperties true club, p.cls.membership = true → Card.SaysGroup club) ∧
      qualified "member" ∉ card.tags := by
  intro d club
  have hadd : (d.add club).2 = .ok _ := rfl
  obtain ⟨hiff, hkept⟩ := member_only_in_groups_iff rfl hadd
  exact ⟨_, hadd, hiff, hkept, by decide +kernel⟩

/-- An extension property with the name MEMBER is written on a card that says nothing of groups. -/
theorem member_without_group :
    ∃ d card, new .standard .empty = .ok d ∧
      (d.add [.ofText .formattedName (some "Club"),
        .ofExtension "MEMBER" (some "urn:x") none]).2 = .ok card ∧
      qualified "member" ∈ card.tags ∧
      ¬Card.SaysGroup [.ofText .formattedName (some "Club"),
        .ofExtension "MEMBER" (some "urn:x") none] := by
  refine ⟨_, _, rfl, rfl, by decide +kernel, ?_⟩
  rw [← Card.describesGroup_eq_true_iff]
  decide +kernel

end XCardDocument

end ContactCard
