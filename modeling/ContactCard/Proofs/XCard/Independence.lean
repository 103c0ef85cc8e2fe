import ContactCard.Proofs.XCard.Document

/-!
# Cards do not affect one another

A document goes through card after card, some of which may be refused. What comes of a card does not
depend on those before it (`Session.add_run`): its element, or why it is refused, and the warnings
about it are those of a new document that is given this card alone. So the cards of a document are
those that a new document would have taken, in the order in which they were added
(`Session.cards_run`).

All that one card leaves to the next, its own element apart, is that the name for PRODID properties
was read, which changes nothing that is read later.
-/

namespace ContactCard

open Xml

namespace XCardDocument

/-! ### Documents that treat cards alike -/

/-- The documents have the same codecs and settings. They may hold different cards, and one may have
read settings that the other has not. -/
structure Resembles (d e : XCardDocument) : Prop where
  registry : d.registry = e.registry
  settings : d.settings = e.settings
  replacesProductId : d.replacesProductId = e.replacesProductId
  left : d.definitions.AreStandard
  right : e.definitions.AreStandard

variable {d e : XCardDocument} {ps : List Property}

/-- New documents with the same settings resemble each other. -/
theorem resembles_new {ds ds' : Definitions} (h : ds.AreStandard) (h' : ds'.AreStandard)
    {settings : Settings} (hd : new ds settings = .ok d) (he : new ds' settings = .ok e) :
    d.Resembles e := by
  obtain rfl := Except.ok.inj ((new_eq h settings).symm.trans hd)
  obtain rfl := Except.ok.inj ((new_eq h' settings).symm.trans he)
  exact ⟨rfl, rfl, rfl, h, h'⟩

theorem Resembles.propertiesFor_eq (h : d.Resembles e) (ps : List Property) :
    d.propertiesFor ps = e.propertiesFor ps := by
  rw [propertiesFor, propertiesFor, ownProperties, ownProperties, h.replacesProductId, h.settings]

/-- What comes of adding a card: documents that resemble each other come to the same outcome and the
same warnings, they still resemble each other, and a card makes it into a document just when it
comes to an element. -/
theorem Resembles.add (h : d.Resembles e) (ps : List Property) :
    (d.add ps).2 = (e.add ps).2 ∧ (d.add ps).1.warnings = (e.add ps).1.warnings ∧
      (d.add ps).1.cards = d.cards ++ (e.add ps).2.toOption.toList ∧
      (d.add ps).1.Resembles e := by
  obtain ⟨ds, hds, hplan⟩ := exists_plan_propertiesFor h.left ps
  obtain ⟨ds', -, hplan'⟩ := exists_plan_propertiesFor h.right ps
  rw [← h.propertiesFor_eq] at hplan'
  rw [XCardDocument.add, XCardDocument.add, hplan, hplan', h.registry, h.replacesProductId]
  dsimp only
  rcases cardElements e.registry (grouped (d.propertiesFor ps)).entries with
    ⟨children, omitted, f | -⟩
  · exact ⟨rfl, rfl, (List.append_nil _).symm, rfl, h.settings, rfl, hds, h.right⟩
  · exact ⟨rfl, rfl, rfl, rfl, h.settings, rfl, hds, h.right⟩

end XCardDocument

/-! ### Sessions -/

/-- Properties on a shelf, cards that refer to them, and a document that takes the cards. One
property may stand on several cards, and one card may be added more than once. -/
structure Session where
  shelf : List Property
  cards : List (List PropertyId)
  document : XCardDocument

namespace Session

/-- The properties of the card with a number. -/
def properties (s : Session) (i : Nat) : List Property :=
  Card.properties ⟨none, s.shelf, s.cards.getD i []⟩

/-- Adds the card with a number to the document. -/
def add (s : Session) (i : Nat) : Session × Except Error Element :=
  let (document, outcome) := s.document.add (s.properties i)
  ({ s with document := document }, outcome)

/-- Adds the cards with the numbers, one after the other, whether they are refused or not. -/
def run (s : Session) (calls : List Nat) : Session := calls.foldl (fun s i ↦ (s.add i).1) s

variable {s : Session} {fresh : XCardDocument}

/-- The document goes on to treat cards as it did. -/
theorem resembles_run (h : s.document.Resembles fresh) (calls : List Nat) :
    (s.run calls).document.Resembles fresh := by
  induction calls generalizing s with
  | nil => exact h
  | cons i rest ih => exact ih (h.add (s.properties i)).2.2.2

/-- Adding cards changes neither properties nor cards. -/
theorem shelf_run (s : Session) (calls : List Nat) :
    (s.run calls).shelf = s.shelf ∧ (s.run calls).cards = s.cards := by
  induction calls generalizing s with
  | nil => exact ⟨rfl, rfl⟩
  | cons i rest ih => exact ih (s.add i).1

theorem properties_run (s : Session) (calls : List Nat) (i : Nat) :
    (s.run calls).properties i = s.properties i := by
  rw [properties, properties, (s.shelf_run calls).1, (s.shelf_run calls).2]

/-- The cards of the document are those that a document like it takes when it is given them one at a
time. -/
theorem cards_run (h : s.document.Resembles fresh) (calls : List Nat) :
    (s.run calls).document.cards = s.document.cards ++
      calls.filterMap fun i ↦ (fresh.add (s.properties i)).2.toOption := by
  induction calls generalizing s with
  | nil => exact (List.append_nil _).symm
  | cons i rest ih =>
    obtain ⟨-, -, hcards, hnext⟩ := h.add (s.properties i)
    have hrest := @ih (s.add i).1 hnext
    -- the card that is added first does not change those that are added later
    have hproperties : (s.add i).1.properties = s.properties := rfl
    have hadd : (s.add i).1.document.cards = s.document.cards ++
        (fresh.add (s.properties i)).2.toOption.toList := hcards
    rw [hproperties, hadd] at hrest
    show ((s.add i).1.run rest).document.cards = _
    rw [hrest, List.filterMap_cons]
    cases (fresh.add (s.properties i)).2.toOption <;> simp

/-- A card that is added comes to what it comes to in a document like this one. If it is refused, no
element changes. -/
theorem add_eq (h : s.document.Resembles fresh) (i : Nat) :
    (s.add i).2 = (fresh.add (s.properties i)).2 ∧
      (s.add i).1.document.warnings = (fresh.add (s.properties i)).1.warnings ∧
      ∀ error, (s.add i).2 = .error error → (s.add i).1.document.root = s.document.root := by
  obtain ⟨houtcome, hwarnings, hcards, -⟩ := h.add (s.properties i)
  refine ⟨houtcome, hwarnings, fun error herror ↦ ?_⟩
  have hsame : (s.add i).1.document.cards = s.document.cards := by
    rw [← houtcome, show (s.document.add (s.properties i)).2 = .error error from herror] at hcards
    exact hcards.trans (List.append_nil _)
  rw [XCardDocument.root, hsame, XCardDocument.root]

/-- Cards are added to a document one after the other, and some of them may be refused. Whatever the
calls were, the document holds, after what it held before, the elements of the cards that were not
refused, in the order of the calls, and each of these elements is the one that a new document like
it makes of this card alone. What comes of a further card, and the warnings afterwards, do not
depend on the calls either; if it is refused, the document is left as it was. That no call changes a
card or a property, as the last two parts say, holds by construction here: adding a card only reads
the properties on the shelf. -/
theorem add_run (h : s.document.Resembles fresh) (calls : List Nat) :
    (s.run calls).document.root.children = s.document.root.children ++
      calls.filterMap (fun i ↦ (fresh.add (s.properties i)).2.toOption) ∧
    (∀ i, ((s.run calls).add i).2 = (fresh.add (s.properties i)).2 ∧
      ((s.run calls).add i).1.document.warnings = (fresh.add (s.properties i)).1.warnings ∧
      ∀ error, ((s.run calls).add i).2 = .error error →
        ((s.run calls).add i).1.document.root = (s.run calls).document.root) ∧
    (s.run calls).shelf = s.shelf ∧ (s.run calls).cards = s.cards := by
  refine ⟨cards_run h calls, fun i ↦ ?_, s.shelf_run calls⟩
  have hstep := add_eq (resembles_run h calls) i
  rwa [properties_run] at hstep

/-- A new document takes a card twice and refuses another one with a property in common in between.
The document that it is compared with was made after the name for PRODID properties was read. -/
theorem add_run_club :
    let shelf : List Property :=
      [.ofText .formattedName (some "Club"), .ofExtension "photo" (some "x") none,
        { Property.ofExtension "X-MOTTO" (some "Tea") none with group := some "home" }]
    ∃ d fresh, XCardDocument.new .standard .empty = .ok d ∧
      XCardDocument.new (d.add []).1.definitions .empty = .ok fresh ∧
      let s : Session := ⟨shelf, [[0, 2], [0, 1]], d⟩
      ∃ card, (fresh.add (s.properties 0)).2 = .ok card ∧
        (s.run [0, 1, 0]).document.root.children = [card, card] ∧
        ((s.run [0, 1, 0]).add 1).2 = .error (.fault .missingPart) ∧
        ((s.run [0, 1, 0]).add 1).1.document.root = (s.run [0, 1, 0]).document.root ∧
        ((s.run [0, 1, 0]).add 0).1.document.warnings = [] := by
  intro shelf
  obtain ⟨d, hnew⟩ : ∃ d, XCardDocument.new .standard .empty = .ok d := ⟨_, rfl⟩
  obtain rfl := Except.ok.inj
    ((new_eq Definitions.areStandard_standard .empty).symm.trans hnew)
  refine ⟨_, _, hnew, rfl, ?_⟩
  intro s
  have hlike : s.document.Resembles _ := XCardDocument.resembles_new
    Definitions.areStandard_standard (Definitions.areStandard_standard.remember rfl) hnew rfl
  obtain ⟨hcards, hcalls, -⟩ := add_run hlike [0, 1, 0]
  have hrefused := (hcalls 1).1.trans (rfl : _ = Except.error (Error.fault .missingPart))
  exact ⟨_, rfl, hcards, hrefused, (hcalls 1).2.2 _ hrefused, (hcalls 0).2.1⟩

end Session

end ContactCard
