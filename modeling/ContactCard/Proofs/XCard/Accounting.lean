import ContactCard.Proofs.XCard.Adding
import Mathlib.Data.List.Basic

/-!
# The account of a card

When a card is added to a document, each of its properties is accounted for (`add_balances`): one of
the document's own stands in for it, or it is dropped with a warning before anything is written, or
it is left out with a warning when it is to be written, or it is written as an element. The ledger of
a card says which, and everything that is found in the element of the card and in the warnings is in
the ledger: elements stand in the place of their group, and nothing is lost, doubled or put in
another order on the way.
-/

namespace ContactCard.XCardDocument

open Xml

/-! ### Accounts -/

/-- What became of a property. -/
inductive Account where
  /-- One that the document brings along stands in for it. -/
  | replaced
  /-- It was dropped before anything was written. -/
  | dropped (warning : String)
  /-- It was left out when it was to be written. -/
  | omitted (warning : String)
  | written (element : Element)

namespace Account

/-- Whether the property was to be written. -/
def isRetained : Account → Bool
  | .omitted _ | .written _ => true
  | _ => false

def element? : Account → Option Element
  | .written e => some e
  | _ => none

/-- The warning of a property that was dropped. -/
def dropWarning? : Account → Option String
  | .dropped w => some w
  | _ => none

/-- The warning of a property that was left out. -/
def omissionWarning? : Account → Option String
  | .omitted w => some w
  | _ => none

end Account

/-- The property may stand in the element of a card, which is about a group or not. -/
structure IsRetained (d : XCardDocument) (isGroup : Bool) (p : Property) : Prop where
  product : ¬(d.replacesProductId = true ∧ p.isOf .productId = true)
  supported : p.isSupportedBy version = true
  member : p.cls.membership = true → isGroup = true

/-- What the document does with a property of a card, which is about a group or not. -/
inductive IsAccount (d : XCardDocument) (isGroup : Bool) (p : Property) : Account → Prop
  | replaced (hproduct : d.replacesProductId = true ∧ p.isOf .productId = true) :
      IsAccount d isGroup p .replaced
  | unsupported (hproduct : ¬(d.replacesProductId = true ∧ p.isOf .productId = true))
      (hversion : p.isSupportedBy version = false) :
      IsAccount d isGroup p (.dropped (unsupportedWarning p))
  | stray (hproduct : ¬(d.replacesProductId = true ∧ p.isOf .productId = true))
      (hversion : p.isSupportedBy version = true)
      (hmember : p.cls.membership = true) (hgroup : isGroup = false) :
      IsAccount d isGroup p (.dropped strayMemberWarning)
  | omitted (hretained : IsRetained d isGroup p) {w : String}
      (hwritten : propertyElement d.registry p = .ok (.error w)) :
      IsAccount d isGroup p (.omitted w)
  | written (hretained : IsRetained d isGroup p) {e : Element}
      (hwritten : propertyElement d.registry p = .ok (.ok e)) :
      IsAccount d isGroup p (.written e)

/-! ### Ledgers -/

/-- Properties and what became of them. -/
abbrev Ledger := List (Property × Account)

namespace Ledger

/-- The entries of properties that were to be written. -/
def retained (l : Ledger) : Ledger := l.filter fun x ↦ x.2.isRetained

/-- The groups of the properties, in the order of the first property of each. -/
def groups (l : Ledger) : List (Option String) := (l.map fun x ↦ x.1.group).eraseDups

/-- The entries of the properties of a group. -/
def inGroup (l : Ledger) (group : Option String) : Ledger := l.filter fun x ↦ x.1.group == group

/-- The entries, group by group. -/
def inGroupOrder (l : Ledger) : Ledger := l.groups.flatMap l.inGroup

/-- The elements of properties, group by group: those of properties in a group stand in an element
for that group. -/
def children (l : Ledger) : List Element :=
  l.groups.flatMap fun group ↦
    groupElements group ((l.inGroup group).filterMap fun x ↦ x.2.element?)

end Ledger

/-- The element of the PRODID property with a name. -/
def productIdElement (name : String) : Element :=
  { Element.bare (qualified "prodid") [] with children := [.leaf (qualified "text") (.text name)] }

/-- The entry of the property that the document brings along, if it does. -/
def ownEntries (d : XCardDocument) (name : String) : Ledger :=
  if d.replacesProductId then
    [(Property.ofText .productId (some name), .written (productIdElement name))]
  else []

/-- The warning about a card without a name, if it has none. -/
def missingNameWarnings (ps : List Property) : List String :=
  if ps.any fun p ↦ p.isOf .formattedName then [] else [noNameWarning]

/-- What a document that was given the card with the properties has for it, the ledger being that of
the properties. -/
structure Balances (d : XCardDocument) (name : String) (ps : List Property) (ledger : Ledger)
    (after : XCardDocument) (card : Element) : Prop where
  /-- Every property has one entry, in the order of the card. -/
  properties : ledger.map Prod.fst = ps
  accounts : ∀ x ∈ ledger, IsAccount d (Card.describesGroup ps) x.1 x.2
  /-- The card holds what the ledger says, and the document's own property after all others without
  a group. -/
  element : card = { Element.bare (qualified "vcard") [] with
    children := (ledger.retained ++ d.ownEntries name).children }
  cards : after.cards = d.cards ++ [card]
  warnings : after.warnings = missingNameWarnings ps ++
    ledger.filterMap (fun x ↦ x.2.dropWarning?) ++
    (ledger.retained ++ d.ownEntries name).inGroupOrder.filterMap fun x ↦ x.2.omissionWarning?
  /-- No group stands in the card twice. -/
  groups : (ledger.retained ++ d.ownEntries name).groups.Nodup
  /-- Every entry belongs to one group and stands there once. -/
  once : (ledger.retained ++ d.ownEntries name).inGroupOrder.Perm
    (ledger.retained ++ d.ownEntries name)

/-! ### Nothing is lost -/

/-- Keys split a list into the items of each key. -/
theorem flatMap_filter_perm {α β : Type} [BEq β] [LawfulBEq β] (key : α → β) {keys : List β}
    (hnodup : keys.Nodup) {l : List α} (hl : ∀ x ∈ l, key x ∈ keys) :
    (keys.flatMap fun k ↦ l.filter fun x ↦ key x == k).Perm l := by
  induction keys generalizing l with
  | nil =>
    obtain rfl : l = [] := List.eq_nil_iff_forall_not_mem.mpr fun x hx ↦
      absurd (hl x hx) List.not_mem_nil
    exact .nil
  | cons k rest ih =>
    obtain ⟨hk, hrest⟩ := List.nodup_cons.mp hnodup
    -- the other keys split what is left without the items of the first one
    have hothers := @ih hrest (l.filter fun x ↦ !key x == k) fun x hx ↦ by
      obtain ⟨hx, hne⟩ := List.mem_filter.mp hx
      exact (List.mem_cons.mp (hl x hx)).resolve_left (by simpa using hne)
    have hsame : (rest.flatMap fun k' ↦ (l.filter fun x ↦ !key x == k).filter fun x ↦ key x == k') =
        rest.flatMap fun k' ↦ l.filter fun x ↦ key x == k' := by
      rw [List.flatMap_def, List.flatMap_def]
      refine congrArg List.flatten (List.map_congr_left fun k' hk' ↦ ?_)
      rw [List.filter_filter]
      refine List.filter_congr fun x _ ↦ ?_
      cases hx : key x == k' with
      | false => rfl
      | true =>
        have hne : key x ≠ k := by
          rintro rfl
          exact hk (eq_of_beq hx ▸ hk')
        simpa using hne
    rw [hsame] at hothers
    rw [List.flatMap_cons]
    exact (hothers.append_left _).trans (List.filter_append_perm _ l)

/-- Group by group, every entry stands once. -/
theorem Ledger.inGroupOrder_perm (l : Ledger) : l.inGroupOrder.Perm l :=
  flatMap_filter_perm (fun x : Property × Account ↦ x.1.group) (nodup_eraseDups _) fun _ hx ↦
    List.mem_eraseDups.mpr (List.mem_map_of_mem hx)

/-! ### The ledger of a card -/

/-- What becomes of a property that is written. -/
def outcomeOf (r : Registry) (p : Property) : Account :=
  match elementOf? r p with
  | some e => .written e
  | none => .omitted ((warningOf? r p).getD "")

/-- What becomes of a property of a card. -/
def accountOf (d : XCardDocument) (isGroup : Bool) (p : Property) : Account :=
  match fate d.replacesProductId isGroup p with
  | .replaced => .replaced
  | .dropped w => .dropped w
  | .kept => outcomeOf d.registry p

/-- The ledger of properties that are all written. -/
def outcomes (r : Registry) (ps : List Property) : Ledger := ps.map fun p ↦ (p, outcomeOf r p)

/-- The ledger of a card. -/
def ledgerOf (d : XCardDocument) (ps : List Property) : Ledger :=
  ps.map fun p ↦ (p, d.accountOf (Card.describesGroup ps) p)

variable {d : XCardDocument} {r : Registry} {p : Property} {ps qs : List Property}

theorem outcomeOf_of_element {e : Element} (h : propertyElement r p = .ok (.ok e)) :
    outcomeOf r p = .written e := by
  simp only [outcomeOf, elementOf?, h]

theorem outcomeOf_of_warning {w : String} (h : propertyElement r p = .ok (.error w)) :
    outcomeOf r p = .omitted w := by
  simp only [outcomeOf, elementOf?, warningOf?, h, Option.getD_some]

theorem isRetained_outcomeOf (r : Registry) (p : Property) :
    (outcomeOf r p).isRetained = true := by
  rw [outcomeOf]
  split <;> rfl

theorem element?_outcomeOf (r : Registry) (p : Property) :
    (outcomeOf r p).element? = elementOf? r p := by
  rw [outcomeOf]
  split <;> simp_all [Account.element?]

theorem omissionWarning?_outcomeOf (h : faultOf? r p = none) :
    (outcomeOf r p).omissionWarning? = warningOf? r p := by
  obtain ⟨outcome, houtcome⟩ := faultOf?_eq_none_iff.mp h
  cases outcome with
  | ok e => rw [outcomeOf_of_element houtcome, warningOf?, houtcome]; rfl
  | error w => rw [outcomeOf_of_warning houtcome, warningOf?, houtcome]; rfl

theorem groups_outcomes (r : Registry) (ps : List Property) :
    (outcomes r ps).groups = groupsOf ps := by
  rw [Ledger.groups, outcomes, List.map_map]
  rfl

theorem inGroup_outcomes (r : Registry) (ps : List Property) (group : Option String) :
    (outcomes r ps).inGroup group = outcomes r (inGroup ps group) := by
  rw [Ledger.inGroup, outcomes, List.filter_map]
  rfl

theorem inGroupOrder_outcomes (r : Registry) (ps : List Property) :
    (outcomes r ps).inGroupOrder = outcomes r (inGroupOrder ps) := by
  have hgroup : (outcomes r ps).inGroup = fun group ↦ outcomes r (inGroup ps group) :=
    funext (inGroup_outcomes r ps)
  rw [Ledger.inGroupOrder, groups_outcomes, hgroup, inGroupOrder]
  exact List.map_flatMap.symm

theorem children_outcomes (r : Registry) (ps : List Property) :
    (outcomes r ps).children = (cardElement r ps).children := by
  have hgroup : ∀ group, ((outcomes r ps).inGroup group).filterMap (fun x ↦ x.2.element?) =
      (inGroup ps group).filterMap (elementOf? r) := fun group ↦ by
    rw [inGroup_outcomes, outcomes, List.filterMap_map]
    exact congrArg (List.filterMap · _) (funext (element?_outcomeOf r))
  show _ = (grouped ps).entries.flatMap _
  rw [entries_grouped, List.flatMap_map, Ledger.children, groups_outcomes]
  simp only [hgroup]

theorem omissionWarnings_outcomes (h : ∀ p ∈ ps, faultOf? r p = none) :
    (outcomes r ps).filterMap (fun x ↦ x.2.omissionWarning?) = ps.filterMap (warningOf? r) := by
  rw [outcomes, List.filterMap_map]
  exact List.filterMap_congr fun p hp ↦ omissionWarning?_outcomeOf (h p hp)

/-! ### What is kept and what is dropped -/

theorem fate_eq_kept_iff {isGroup : Bool} :
    fate d.replacesProductId isGroup p = .kept ↔ IsRetained d isGroup p := by
  rw [fate]
  constructor
  · intro h
    split at h
    · exact absurd h (by simp)
    · next hproduct =>
      split at h
      · exact absurd h (by simp)
      · next hversion =>
        split at h
        · exact absurd h (by simp)
        · next hmember =>
          exact ⟨by simpa using hproduct, by simpa using hversion, by simpa using hmember⟩
  · intro h
    rw [if_neg (by simpa using h.product), if_neg (by simp [h.supported]),
      if_neg (by simpa using h.member)]

/-- A property that was to be written is accounted for by what it came to. -/
theorem IsRetained.isAccount {isGroup : Bool} (hp : IsRetained d isGroup p)
    (h : faultOf? d.registry p = none) : IsAccount d isGroup p (outcomeOf d.registry p) := by
  obtain ⟨outcome, houtcome⟩ := faultOf?_eq_none_iff.mp h
  cases outcome with
  | ok e =>
    rw [outcomeOf_of_element houtcome]
    exact .written hp houtcome
  | error w =>
    rw [outcomeOf_of_warning houtcome]
    exact .omitted hp houtcome

/-- What becomes of a property is its account. The cases are those of its fate, in their order. -/
theorem isAccount_accountOf {isGroup : Bool}
    (h : IsRetained d isGroup p → faultOf? d.registry p = none) :
    IsAccount d isGroup p (d.accountOf isGroup p) := by
  by_cases hproduct : d.replacesProductId = true ∧ p.isOf .productId = true
  · rw [accountOf, fate, if_pos (by simpa using hproduct)]
    exact .replaced hproduct
  · cases hversion : p.isSupportedBy version with
    | false =>
      rw [accountOf, fate, if_neg (by simpa using hproduct), if_pos (by rw [hversion]; rfl)]
      exact .unsupported hproduct hversion
    | true =>
      by_cases hmember : p.cls.membership = true ∧ isGroup = false
      · rw [accountOf, fate, if_neg (by simpa using hproduct), if_neg (by rw [hversion]; decide),
          if_pos (by simpa using hmember)]
        exact .stray hproduct hversion hmember.1 hmember.2
      · have hp : IsRetained d isGroup p := ⟨hproduct, hversion, by simpa using hmember⟩
        rw [accountOf, fate_eq_kept_iff.mpr hp]
        exact hp.isAccount (h hp)

theorem retained_ledgerOf (d : XCardDocument) (ps : List Property) :
    (d.ledgerOf ps).retained = outcomes d.registry (keptProperties d.replacesProductId ps) := by
  have hsame : ∀ p, (d.accountOf (Card.describesGroup ps) p).isRetained =
      decide (fate d.replacesProductId (Card.describesGroup ps) p = .kept) := fun p ↦ by
    rw [accountOf]
    cases fate d.replacesProductId (Card.describesGroup ps) p with
    | kept => exact isRetained_outcomeOf _ _
    | replaced => rfl
    | dropped w => rfl
  have hfilter : ps.filter ((fun x : Property × Account ↦ x.2.isRetained) ∘
      fun p ↦ (p, d.accountOf (Card.describesGroup ps) p)) =
      keptProperties d.replacesProductId ps := List.filter_congr fun p _ ↦ hsame p
  rw [Ledger.retained, ledgerOf, List.filter_map, hfilter, outcomes]
  refine List.map_congr_left fun p hp ↦ ?_
  have hkept : fate d.replacesProductId (Card.describesGroup ps) p = .kept := by
    simpa using (List.mem_filter.mp hp).2
  rw [accountOf, hkept]

/-- The warnings before anything is written are those about properties that were dropped. -/
theorem filterWarnings_eq (d : XCardDocument) (ps : List Property) :
    filterWarnings d.replacesProductId ps =
      missingNameWarnings ps ++ (d.ledgerOf ps).filterMap fun x ↦ x.2.dropWarning? := by
  have hwarning : ∀ p, (d.accountOf (Card.describesGroup ps) p).dropWarning? =
      (fate d.replacesProductId (Card.describesGroup ps) p).warning? := fun p ↦ by
    rw [accountOf]
    cases fate d.replacesProductId (Card.describesGroup ps) p with
    | kept =>
      show (outcomeOf d.registry p).dropWarning? = none
      rw [outcomeOf]
      split <;> rfl
    | replaced => rfl
    | dropped w => rfl
  rw [filterWarnings, ledgerOf, List.filterMap_map, missingNameWarnings]
  exact congrArg _ (List.filterMap_congr fun p _ ↦ (hwarning p).symm)

/-! ### The property that the document brings along -/

/-- A PRODID property with a name comes to its element. -/
theorem propertyElement_productId (hcodec : r.byClass.get? "ProductId" = some .productId)
    (name : String) :
    propertyElement r (Property.ofText .productId (some name)) =
      .ok (.ok (productIdElement name)) := by
  have hcodec' : r.codecOfProperty (Property.ofText .productId (some name)) = .ok .productId := by
    have hlineage : PropertyClass.productId.lineage.findSome? r.byClass.get? =
        some .productId := by
      show (["ProductId", "TextProperty", "VCardProperty"].findSome? r.byClass.get?) = _
      rw [List.findSome?_cons, hcodec]
    show r.codecOf PropertyClass.productId _ = _
    rw [Registry.codecOf, hlineage]
  rw [propertyElement, hcodec']
  rfl

/-- The properties that are written for a card: those that are kept, and the one that the document
brings along. -/
def written (d : XCardDocument) (name : String) (ps : List Property) : List Property :=
  keptProperties d.replacesProductId ps ++
    if d.replacesProductId then [Property.ofText .productId (some name)] else []

variable {name : String}

theorem exists_plan_written
    (hname : d.replacesProductId = true → ∃ definitions,
      d.settings.read d.definitions (.text "prodid_name") = .ok (definitions, .text name))
    (ps : List Property) :
    ∃ definitions, d.plan ps = .ok (definitions, grouped (d.written name ps)) := by
  rw [written]
  cases hreplaces : d.replacesProductId with
  | false => exact ⟨_, by rw [plan_of_keeps hreplaces, if_neg (by decide), List.append_nil]⟩
  | true =>
    obtain ⟨definitions, hread⟩ := hname hreplaces
    exact ⟨definitions, plan_of_replaces hreplaces hread ps⟩

theorem outcomes_written
    (hcodec : d.replacesProductId = true → d.registry.byClass.get? "ProductId" = some .productId)
    (ps : List Property) :
    outcomes d.registry (d.written name ps) = (d.ledgerOf ps).retained ++ d.ownEntries name := by
  rw [retained_ledgerOf, written, outcomes, List.map_append, ownEntries, outcomes]
  cases hreplaces : d.replacesProductId with
  | false => rfl
  | true =>
    have hown := outcomeOf_of_element (propertyElement_productId (hcodec hreplaces) name)
    simp only [if_true, List.map_cons, List.map_nil, hown]

/-! ### Every card balances -/

/-- Every property of a card that was added to a document is accounted for, and what the document has
for the card is what the accounts say, the document's own PRODID property apart. -/
theorem add_balances {card : Element}
    (hname : d.replacesProductId = true → ∃ definitions,
      d.settings.read d.definitions (.text "prodid_name") = .ok (definitions, .text name))
    (hcodec : d.replacesProductId = true → d.registry.byClass.get? "ProductId" = some .productId)
    (hadd : (d.add ps).2 = .ok card) :
    ∃ ledger, Balances d name ps ledger (d.add ps).1 card := by
  obtain ⟨definitions, hplan⟩ := exists_plan_written hname ps
  have hfault := faultOf?_eq_none_of_add hplan hadd
  rw [add_eq_ok hplan hfault] at hadd ⊢
  obtain rfl := Except.ok.inj hadd
  have houtcomes := @outcomes_written d name hcodec ps
  refine ⟨d.ledgerOf ps, ?_, ?_, ?_, rfl, ?_, nodup_eraseDups _, Ledger.inGroupOrder_perm _⟩
  · rw [ledgerOf, List.map_map]
    exact List.map_id _
  · intro x hx
    obtain ⟨p, hp, rfl⟩ := List.mem_map.mp hx
    refine isAccount_accountOf fun hretained ↦ hfault p (List.mem_append_left _ ?_)
    exact List.mem_filter.mpr ⟨hp, by simpa using fate_eq_kept_iff.mpr hretained⟩
  · rw [← houtcomes, children_outcomes]
    rfl
  · rw [← houtcomes, inGroupOrder_outcomes,
      omissionWarnings_outcomes fun p hp ↦ hfault p (mem_inGroupOrder.mp hp), ← filterWarnings_eq]

/-- A card whose properties meet every fate: in two groups and in none, dropped for the version, as a
member of no group and in favour of the document's own, and without a value. -/
theorem add_balances_club :
    let d : XCardDocument := ⟨.standard, .standard, .empty, true, [], []⟩
    let club : List Property :=
      [{ Property.ofExtension "X-MOTTO" (some "Tea & Cake") none with group := some "home" },
        .ofText .formattedName (some "Club"), .ofText .mailer (some "Mutt"),
        { Property.ofResource .photo (.data [1, 2]) none with group := some "work" },
        .ofText .member (some "urn:x"), .ofText .productId (some "other"),
        { Property.ofText .kind none with group := some "home" }]
    (d.replacesProductId = true → ∃ definitions,
      d.settings.read d.definitions (.text "prodid_name") =
        .ok (definitions, .text "vcardio 0.1.0")) ∧
    (d.replacesProductId = true → d.registry.byClass.get? "ProductId" = some .productId) ∧
    ∃ card, (d.add club).2 = .ok card ∧
      ∃ ledger, Balances d "vcardio 0.1.0" club ledger (d.add club).1 card := by
  intro d club
  have hname : d.replacesProductId = true → ∃ definitions,
      d.settings.read d.definitions (.text "prodid_name") =
        .ok (definitions, .text "vcardio 0.1.0") := fun _ ↦ ⟨_, rfl⟩
  have hcodec : d.replacesProductId = true →
      d.registry.byClass.get? "ProductId" = some .productId := fun _ ↦ rfl
  have hadd : (d.add club).2 = .ok _ := rfl
  exact ⟨hname, hcodec, _, hadd, add_balances hname hcodec hadd⟩

end ContactCard.XCardDocument
