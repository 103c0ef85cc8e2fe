import ContactCard.Card

/-!
# Refused changes of a card

A change of a card that is refused is to leave the card as it was. All do but one: replacing the
properties of a class takes these off first, and then what is to be put on instead may be refused. So
the card stays as it was exactly if it held nothing of the class that was to be replaced, and
otherwise loses what it held of that class and nothing else (`Card.made_of_refused`). No property
changes its group in any case.
-/

namespace ContactCard.Card

/-- A change of a card. -/
inductive Change where
  | add (item : Item) (group : Option String)
  | remove (item : Item)
  | removeAll (k : ClassItem)
  | set (k : ClassItem) (item : Item)
  /-- Sets the display name or the kind, for which a text may stand. -/
  | setText (k : PropertyClass) (item : Item)

namespace Change

/-- What comes of a change. -/
def made (c : Card) : Change → Card × Except Error Unit
  | .add item group => c.add item group
  | .remove item => c.remove item
  | .removeAll k => c.removeAll k
  | .set k item => c.set k item
  | .setText k item => c.setText k item

/-- The class whose properties the change replaces. -/
def replaced? : Change → Option ClassItem
  | .set k _ => some k
  | .setText k _ => some (.of k)
  | _ => none

end Change

/-- The card holds a property of the class that is put forward. This takes a class: it must be clear
of each property on the card whether it is of it. -/
structure Holds (c : Card) (k : ClassItem) : Prop where
  isClear : ∀ id ∈ c.ids, ∃ isOne, c.accepts k id = .ok isOne
  exists_mem : ∃ id ∈ c.ids, c.accepts k id = .ok true

/-- Whether the number is surely not that of a property of the class. -/
def isOther (c : Card) (k : ClassItem) (id : PropertyId) : Bool :=
  !(c.accepts k id).toOption.getD false

variable {c : Card} {k : ClassItem} {e : Error}

/-! ### Taking a class off -/

/-- It is clear of every property whether it is of a class. -/
theorem accepts_of (c : Card) (cls : PropertyClass) (id : PropertyId) :
    c.accepts (.of cls) id = .ok (c.isOf cls id) := by
  rw [accepts, isOf]
  cases c.shelf[id]? <;> rfl

theorem isOther_of (c : Card) (cls : PropertyClass) :
    c.isOther (.of cls) = fun id ↦ !c.isOf cls id := by
  funext id
  rw [isOther, accepts_of]
  rfl

theorem without_eq {ids : List PropertyId} (h : ∀ id ∈ ids, ∃ isOne, c.accepts k id = .ok isOne) :
    c.without k ids = .ok (ids.filter (c.isOther k)) := by
  induction ids with
  | nil => rfl
  | cons id rest ih =>
    obtain ⟨⟨isOne, hid⟩, hrest⟩ := List.forall_mem_cons.mp h
    rw [without, hid, ih hrest]
    cases isOne with
    | true => rw [List.filter_cons_of_neg (by simp [isOther, hid, Except.toOption])]; rfl
    | false => rw [List.filter_cons_of_pos (by simp [isOther, hid, Except.toOption])]; rfl

theorem isClear_of_without {ids others : List PropertyId} (h : c.without k ids = .ok others) :
    ∀ id ∈ ids, ∃ isOne, c.accepts k id = .ok isOne := by
  induction ids generalizing others with
  | nil => exact nofun
  | cons id rest ih =>
    obtain ⟨isOne, hid, h⟩ := exists_of_bind_eq_ok h
    obtain ⟨others, hrest, -⟩ := exists_of_bind_eq_ok h
    exact List.forall_mem_cons.mpr ⟨⟨isOne, hid⟩, ih hrest⟩

/-- Taking a class off that the card holds nothing of, or that is no class, changes nothing. -/
theorem removeAll_of_not_holds (h : ¬ c.Holds k) : (c.removeAll k).1 = c := by
  rw [removeAll]
  cases hids : c.without k c.ids with
  | error e => rfl
  | ok ids =>
    have hclear := isClear_of_without hids
    have hall : ∀ id ∈ c.ids, c.isOther k id = true := by
      intro id hid
      obtain ⟨isOne, hone⟩ := hclear id hid
      cases isOne with
      | true => exact absurd ⟨hclear, id, hid, hone⟩ h
      | false => rw [isOther, hone]; rfl
    rw [without_eq hclear, List.filter_eq_self.mpr hall] at hids
    obtain rfl := Except.ok.inj hids
    rfl

theorem removeAll_of_isClear (h : ∀ id ∈ c.ids, ∃ isOne, c.accepts k id = .ok isOne) :
    c.removeAll k = ({ c with ids := c.ids.filter (c.isOther k) }, .ok ()) := by
  rw [removeAll, without_eq h]

theorem removeAll_ne_of_holds (h : c.Holds k) : (c.removeAll k).1 ≠ c := by
  obtain ⟨id, hid, hone⟩ := h.exists_mem
  rw [removeAll_of_isClear h.isClear]
  intro heq
  have hids := List.filter_eq_self.mp (congrArg Card.ids heq) id hid
  rw [isOther, hone] at hids
  exact absurd hids nofun

theorem fst_removeAll_of_refused (h : (c.removeAll k).2 = .error e) : (c.removeAll k).1 = c := by
  rw [removeAll] at h ⊢
  cases hids : c.without k c.ids with
  | error e => rfl
  | ok ids => exact absurd (hids ▸ h) nofun

/-! ### Refused changes -/

theorem fst_add_of_refused {item : Item} {group : Option String}
    (h : (c.add item group).2 = .error e) : (c.add item group).1 = c := by
  cases item with
  | property id => exact absurd h nofun
  | _ => rfl

theorem fst_remove_of_refused {item : Item} (h : (c.remove item).2 = .error e) :
    (c.remove item).1 = c := by
  unfold remove at h ⊢
  cases item with
  | property id =>
    dsimp only at h ⊢
    split at h
    · exact absurd h nofun
    · next hid => rw [if_neg hid]
  | _ => rfl

/-- A replacement that is refused has taken the class off. -/
theorem fst_set_of_refused {item : Item} (h : (c.set k item).2 = .error e) :
    (c.set k item).1 = (c.removeAll k).1 := by
  unfold set at h ⊢
  generalize c.removeAll k = taken at h ⊢
  obtain ⟨c', error | done⟩ := taken
  · rfl
  · cases item with
    | nothing => rfl
    | _ => exact fst_add_of_refused h

theorem fst_setText_of_refused {cls : PropertyClass} {item : Item}
    (h : (c.setText cls item).2 = .error e) :
    (c.setText cls item).1 = (c.removeAll (.of cls)).1 := by
  cases item with
  | text s =>
    -- a text becomes a property, which is not refused
    have hadded : ∀ {c' : Card} {id : PropertyId}, (c'.set (.of cls) (.property id)).2 = .ok () := by
      intro c' id
      unfold set
      rw [removeAll_of_isClear fun id _ ↦ ⟨_, c'.accepts_of cls id⟩]
      rfl
    exact absurd (hadded.symm.trans h) nofun
  | _ => exact fst_set_of_refused h

/-- What is left of a card when a change is refused: all of it, but for the properties of the class
that the change was to replace. -/
theorem fst_made_of_refused {change : Change} (h : (change.made c).2 = .error e) :
    (change.made c).1 = change.replaced?.elim c fun k ↦ (c.removeAll k).1 := by
  cases change with
  | add item group => exact fst_add_of_refused h
  | remove item => exact fst_remove_of_refused h
  | removeAll k => exact fst_removeAll_of_refused h
  | set k item => exact fst_set_of_refused h
  | setText cls item => exact fst_setText_of_refused h

/-- A change that is refused leaves all properties in their groups. It leaves the card as it was
exactly if the card holds nothing of a class that the change was to replace, and otherwise takes off
the card what it holds of that class. -/
theorem made_of_refused (c : Card) (change : Change) (e : Error)
    (h : (change.made c).2 = .error e) :
    (change.made c).1.shelf = c.shelf ∧
      ((change.made c).1 = c ↔ ∀ k, change.replaced? = some k → ¬ c.Holds k) ∧
      ∀ k, change.replaced? = some k → c.Holds k →
        (change.made c).1 = { c with ids := c.ids.filter (c.isOther k) } := by
  rw [fst_made_of_refused h]
  cases change.replaced? with
  | none => exact ⟨rfl, iff_of_true rfl nofun, nofun⟩
  | some k =>
    rw [Option.elim_some]
    by_cases hk : c.Holds k
    · refine ⟨by rw [removeAll_of_isClear hk.isClear], ?_, ?_⟩
      · exact iff_of_false (removeAll_ne_of_holds hk) fun hall ↦ hall k rfl hk
      · rintro _ ⟨⟩ -
        rw [removeAll_of_isClear hk.isClear]
    · have hsame := removeAll_of_not_holds hk
      refine ⟨by rw [hsame], iff_of_true hsame ?_, ?_⟩
      · rintro _ ⟨⟩
        exact hk
      · rintro _ ⟨⟩ hholds
        exact absurd hholds hk

/-- A number is put forward as the kind of a card that has a kind, which is lost. -/
theorem made_of_refused_kind :
    let c : Card := ⟨some .v4_0,
      [.ofText .formattedName (some "Club"), .ofText .kind (some "group")], [1, 0, 1]⟩
    let change : Change := .setText .kind (.other (.int 5))
    (change.made c).2 = .error (.propertyRequired "5") ∧
      (change.made c).1.shelf = c.shelf ∧
      ((change.made c).1 = c ↔ ∀ k, change.replaced? = some k → ¬ c.Holds k) ∧
      (∀ k, change.replaced? = some k → c.Holds k →
        (change.made c).1 = { c with ids := c.ids.filter (c.isOther k) }) ∧
      (change.made c).1.ids = [0] := by
  intro c change
  have hrefused : (change.made c).2 = .error (.propertyRequired "5") := rfl
  obtain ⟨hshelf, hiff, hlost⟩ := made_of_refused c change _ hrefused
  exact ⟨hrefused, hshelf, hiff, hlost, rfl⟩

/-- A text is put forward as a property in place of the display name, which is lost. -/
theorem display_name_lost :
    let c : Card := ⟨some .v3_0, [.ofText .formattedName (some "Club")], [0]⟩
    let change : Change := .set (.of .formattedName) (.text "FN:Club")
    (change.made c).2 = .error (.propertyRequired "'FN:Club'") ∧
      (change.made c).1.ids = [] ∧ (change.made c).1 ≠ c := by
  intro c change
  have hids : (change.made c).1.ids = [] := rfl
  exact ⟨rfl, hids, fun h ↦ absurd ((congrArg Card.ids h).symm.trans hids) nofun⟩

end ContactCard.Card
