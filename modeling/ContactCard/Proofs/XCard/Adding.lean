import ContactCard.Proofs.Settings.Reading
import ContactCard.Proofs.XCard.Grouping

/-!
# Adding cards

What adding a card to a document comes to. Its properties are written one after the other, group by
group. If each of them comes to an element or to a warning, the card is added as the element of all
these elements (`add_eq_ok`); otherwise the first one that comes to neither is why the card is
refused, and the document has no more cards than before (`add_eq_error`).

Where the settings of the document writers have their standard definitions, one of these two is what
happens (`add_cases`).
-/

namespace ContactCard.XCardDocument

open Text Xml

/-! ### What a property comes to -/

/-- The element that a property comes to, if it comes to one. -/
def elementOf? (r : Registry) (p : Property) : Option Element :=
  match propertyElement r p with
  | .ok (.ok e) => some e
  | _ => none

/-- The warning that a property comes to, if it comes to one. -/
def warningOf? (r : Registry) (p : Property) : Option String :=
  match propertyElement r p with
  | .ok (.error w) => some w
  | _ => none

/-- Why a property comes to neither, if it does not. -/
def faultOf? (r : Registry) (p : Property) : Option Fault :=
  match propertyElement r p with
  | .error f => some f
  | .ok _ => none

/-- Whether all properties come to something, or else why the first of the others does not. -/
def firstFault (r : Registry) (ps : List Property) : Except Fault Unit :=
  (ps.findSome? (faultOf? r)).elim (.ok ()) .error

/-- The element of the card with the properties. -/
def cardElement (r : Registry) (ps : List Property) : Element :=
  { Element.bare (qualified "vcard") [] with
    children := (grouped ps).entries.flatMap fun g ↦
      groupElements g.1 (g.2.filterMap (elementOf? r)) }

variable {r : Registry} {p : Property} {ps qs : List Property}

/-- A property with a name has a tag. -/
theorem exists_propertyTag {name : String} (hname : p.name = some name) :
    ∃ tag, propertyTag p = .ok tag := by
  rw [propertyTag, hname]
  cases p.qname with
  | none => exact ⟨_, rfl⟩
  | some q =>
    simp only [Option.elim_some]
    split <;> exact ⟨_, rfl⟩

/-- The tag is the one that the property brings along, or else it is made from the name. -/
theorem propertyTag_cases {tag : String} (h : propertyTag p = .ok tag) :
    p.qname = some tag ∧ tag ≠ "" ∨
      (∀ q, p.qname = some q → q = "") ∧
        ∃ name, p.name = some name ∧ tag = qualified (toLower name) := by
  cases hqname : p.qname with
  | none =>
    cases hname : p.name with
    | none => simp [propertyTag, hqname, hname] at h
    | some name =>
      simp only [propertyTag, hqname, hname, Except.ok.injEq] at h
      exact .inr ⟨by simp, name, rfl, h.symm⟩
  | some q =>
    by_cases hempty : q = ""
    · subst hempty
      cases hname : p.name with
      | none => simp [propertyTag, hqname, hname] at h
      | some name =>
        rw [propertyTag, hqname, hname] at h
        exact .inr ⟨by simp, name, rfl, (Except.ok.inj h).symm⟩
    · have hq : q.isEmpty = false := by simpa using hempty
      simp only [propertyTag, hqname, hq, Bool.false_eq_true, if_false, Except.ok.injEq] at h
      exact .inl ⟨by rw [h], h ▸ hempty⟩

theorem elementOf?_eq_some_iff {e : Element} :
    elementOf? r p = some e ↔ propertyElement r p = .ok (.ok e) := by
  rw [elementOf?]
  split
  · next e' h => simp [h]
  · next h => exact iff_of_false (by simp) (h e)

theorem faultOf?_eq_none_iff :
    faultOf? r p = none ↔ ∃ outcome, propertyElement r p = .ok outcome := by
  rw [faultOf?]
  cases propertyElement r p <;> simp

theorem firstFault_eq_ok_iff : firstFault r ps = .ok () ↔ ∀ p ∈ ps, faultOf? r p = none := by
  rw [← List.findSome?_eq_none_iff, firstFault]
  cases ps.findSome? (faultOf? r) <;> simp

theorem firstFault_cons (r : Registry) (p : Property) (ps : List Property) :
    firstFault r (p :: ps) = (faultOf? r p).elim (firstFault r ps) .error := by
  rw [firstFault, List.findSome?_cons]
  cases faultOf? r p <;> rfl

theorem firstFault_append (r : Registry) (ps qs : List Property) :
    firstFault r (ps ++ qs) = (firstFault r ps).bind fun _ ↦ firstFault r qs := by
  rw [firstFault, firstFault, List.findSome?_append]
  cases ps.findSome? (faultOf? r) <;> rfl

/-! ### Writing properties and groups -/

theorem result_propertyElements (r : Registry) (ps : List Property) :
    (propertyElements r ps).2.2 = firstFault r ps := by
  induction ps with
  | nil => rfl
  | cons p rest ih =>
    rw [propertyElements, firstFault_cons, faultOf?]
    cases propertyElement r p with
    | error f => rfl
    | ok outcome => cases outcome <;> exact ih

theorem result_cardElements (r : Registry) (groups : List (Option String × List Property)) :
    (cardElements r groups).2.2 = firstFault r (groups.flatMap Prod.snd) := by
  induction groups with
  | nil => rfl
  | cons g rest ih =>
    obtain ⟨group, ps⟩ := g
    rw [List.flatMap_cons, firstFault_append, ← ih, ← result_propertyElements r ps, cardElements]
    rcases propertyElements r ps with ⟨children, warnings, f | -⟩ <;> rfl

theorem propertyElements_eq (h : ∀ p ∈ ps, faultOf? r p = none) :
    propertyElements r ps =
      (ps.filterMap (elementOf? r), ps.filterMap (warningOf? r), .ok ()) := by
  induction ps with
  | nil => rfl
  | cons p rest ih =>
    obtain ⟨hp, hrest⟩ := List.forall_mem_cons.mp h
    obtain ⟨outcome, houtcome⟩ := faultOf?_eq_none_iff.mp hp
    rw [propertyElements, houtcome, ih hrest]
    cases outcome <;> simp [elementOf?, warningOf?, houtcome]

theorem cardElements_eq {groups : List (Option String × List Property)}
    (h : ∀ g ∈ groups, ∀ p ∈ g.2, faultOf? r p = none) :
    cardElements r groups =
      (groups.flatMap fun g ↦ groupElements g.1 (g.2.filterMap (elementOf? r)),
        (groups.flatMap Prod.snd).filterMap (warningOf? r), .ok ()) := by
  induction groups with
  | nil => rfl
  | cons g rest ih =>
    obtain ⟨hfirst, hrest⟩ := List.forall_mem_cons.mp h
    rw [cardElements, propertyElements_eq hfirst, ih hrest, List.flatMap_cons (f := Prod.snd),
      List.filterMap_append]
    rfl

theorem mem_of_mem_entries {g : Option String × List Property} (hg : g ∈ (grouped ps).entries)
    {p : Property} (hp : p ∈ g.2) : p ∈ ps ∧ p.group = g.1 := by
  rw [entries_grouped] at hg
  obtain ⟨group, -, rfl⟩ := List.mem_map.mp hg
  simpa [inGroup] using hp

theorem mem_inGroupOrder {p : Property} : p ∈ inGroupOrder ps ↔ p ∈ ps := by
  simp only [inGroupOrder, List.mem_flatMap, mem_groupsOf, inGroup, List.mem_filter, beq_iff_eq]
  constructor
  · rintro ⟨-, -, hp, -⟩
    exact hp
  · exact fun hp ↦ ⟨p.group, ⟨p, hp, rfl⟩, hp, rfl⟩

/-! ### The properties that are written -/

variable {d : XCardDocument} {definitions : Definitions}

theorem plan_of_keeps (hreplaces : d.replacesProductId = false) (ps : List Property) :
    d.plan ps = .ok (d.definitions, grouped (keptProperties false ps)) := by
  rw [plan, hreplaces]
  rfl

/-- The property that the document brings along comes after all others. -/
theorem plan_of_replaces (hreplaces : d.replacesProductId = true) {v : Value}
    (hread : d.settings.read d.definitions (.text "prodid_name") = .ok (definitions, v))
    (ps : List Property) :
    d.plan ps =
      .ok (definitions, grouped (keptProperties true ps ++ [.ofValue .productId v])) := by
  have hgroup : (Property.ofValue .productId v).group = none := by cases v <;> rfl
  have hlast : grouped (keptProperties true ps ++ [.ofValue .productId v]) =
      putInGroup (grouped (keptProperties true ps)) none (.ofValue .productId v) := by
    rw [grouped, List.foldl_append, List.foldl_cons, hgroup]
    rfl
  rw [plan, hreplaces, if_pos rfl, hread, hlast]
  rfl

/-- A card all of whose properties come to something is added. -/
theorem add_eq_ok (hplan : d.plan ps = .ok (definitions, grouped qs))
    (h : ∀ p ∈ qs, faultOf? d.registry p = none) :
    d.add ps =
      ({ d with
          definitions := definitions
          warnings := filterWarnings d.replacesProductId ps ++
            (inGroupOrder qs).filterMap (warningOf? d.registry)
          cards := d.cards ++ [cardElement d.registry qs] },
        .ok (cardElement d.registry qs)) := by
  have hcard := cardElements_eq fun g hg p hp ↦ h p (mem_of_mem_entries hg hp).1
  rw [flatMap_grouped] at hcard
  rw [add, hplan]
  simp only [hcard]
  rfl

/-- A card with a property that comes to nothing is refused. -/
theorem exists_add_eq_error (hplan : d.plan ps = .ok (definitions, grouped qs)) {f : Fault}
    (h : firstFault d.registry (inGroupOrder qs) = .error f) :
    ∃ warnings, d.add ps =
      ({ d with definitions := definitions, warnings := warnings }, .error (.fault f)) := by
  have hresult := result_cardElements d.registry (grouped qs).entries
  rw [flatMap_grouped, h] at hresult
  rw [add, hplan]
  simp only [hresult]
  exact ⟨_, rfl⟩

theorem add_eq_error (hplan : d.plan ps = .ok (definitions, grouped qs)) {f : Fault}
    (h : firstFault d.registry (inGroupOrder qs) = .error f) :
    (d.add ps).2 = .error (.fault f) ∧ (d.add ps).1.cards = d.cards := by
  obtain ⟨warnings, hadd⟩ := exists_add_eq_error hplan h
  rw [hadd]
  exact ⟨rfl, rfl⟩

/-- All properties of a card that was added came to something. -/
theorem faultOf?_eq_none_of_add (hplan : d.plan ps = .ok (definitions, grouped qs))
    {card : Element} (hadd : (d.add ps).2 = .ok card) :
    ∀ p ∈ qs, faultOf? d.registry p = none := by
  cases hfault : firstFault d.registry (inGroupOrder qs) with
  | ok => exact fun p hp ↦ firstFault_eq_ok_iff.mp hfault p (mem_inGroupOrder.mpr hp)
  | error f => exact absurd (hadd.symm.trans (add_eq_error hplan hfault).1) (by simp)

/-- The element of a card that was added is that of the properties that are kept, and of at most a
PRODID property that the document brings along. -/
theorem exists_eq_cardElement {card : Element} (hadd : (d.add ps).2 = .ok card) :
    ∃ own, card = cardElement d.registry (keptProperties d.replacesProductId ps ++ own) ∧
      ∀ p ∈ own, ∃ v, p = .ofValue .productId v := by
  obtain ⟨definitions, own, hplan, hown⟩ : ∃ definitions own,
      d.plan ps = .ok (definitions, grouped (keptProperties d.replacesProductId ps ++ own)) ∧
      ∀ p ∈ own, ∃ v, p = .ofValue .productId v := by
    cases hreplaces : d.replacesProductId with
    | false =>
      exact ⟨_, [], by rw [plan_of_keeps hreplaces, List.append_nil], by simp⟩
    | true =>
      cases hread : d.settings.read d.definitions (.text "prodid_name") with
      | ok read => exact ⟨_, _, plan_of_replaces hreplaces hread ps, by simp⟩
      | error e =>
        -- without a name for its own property no card is added
        have hplan : d.plan ps = .error e := by
          rw [plan, hreplaces, if_pos rfl, hread]
          rfl
        rw [add, hplan] at hadd
        exact absurd hadd (by simp)
  rw [add_eq_ok hplan (faultOf?_eq_none_of_add hplan hadd)] at hadd
  exact ⟨own, (Except.ok.inj hadd).symm, hown⟩

/-! ### Documents with standard definitions -/

/-- The property that the document brings along, if it does. -/
def ownProperties (d : XCardDocument) : List Property :=
  if d.replacesProductId then
    [.ofValue .productId ((d.settings.stored.get? "prodid_name").getD (.text libraryName))]
  else []

/-- The properties that the document writes for a card: those that are kept, and its own. -/
def propertiesFor (d : XCardDocument) (ps : List Property) : List Property :=
  keptProperties d.replacesProductId ps ++ d.ownProperties

theorem exists_plan_propertiesFor (h : d.definitions.AreStandard) (ps : List Property) :
    ∃ ds, ds.AreStandard ∧ d.plan ps = .ok (ds, grouped (d.propertiesFor ps)) := by
  cases hreplaces : d.replacesProductId with
  | false =>
    refine ⟨d.definitions, h, ?_⟩
    rw [plan_of_keeps hreplaces, propertiesFor, ownProperties, hreplaces, if_neg (by decide),
      List.append_nil]
  | true =>
    obtain ⟨ds, hds, hread⟩ := d.settings.exists_read_productName_of_areStandard h
    refine ⟨ds, hds, ?_⟩
    rw [plan_of_replaces hreplaces hread, propertiesFor, ownProperties, hreplaces, if_pos rfl]

/-- All that adding a card can do. The name for PRODID properties may have been read. -/
theorem add_cases (h : d.definitions.AreStandard) (ps : List Property) :
    ∃ ds warnings, ds.AreStandard ∧
      ((∀ p ∈ d.propertiesFor ps, faultOf? d.registry p = none) ∧
          d.add ps = ({ d with
              definitions := ds
              warnings := warnings
              cards := d.cards ++ [cardElement d.registry (d.propertiesFor ps)] },
            .ok (cardElement d.registry (d.propertiesFor ps))) ∨
        ∃ error, d.add ps = ({ d with definitions := ds, warnings := warnings }, .error error)) := by
  obtain ⟨ds, hds, hplan⟩ := exists_plan_propertiesFor h ps
  cases hfault : firstFault d.registry (inGroupOrder (d.propertiesFor ps)) with
  | ok =>
    have hnone : ∀ p ∈ d.propertiesFor ps, faultOf? d.registry p = none := fun p hp ↦
      firstFault_eq_ok_iff.mp hfault p (mem_inGroupOrder.mpr hp)
    exact ⟨ds, _, hds, .inl ⟨hnone, add_eq_ok hplan hnone⟩⟩
  | error f =>
    obtain ⟨warnings, hadd⟩ := exists_add_eq_error hplan hfault
    exact ⟨ds, warnings, hds, .inr ⟨_, hadd⟩⟩

end ContactCard.XCardDocument
