import ContactCard.Proofs.Card

/-!
# Replacing properties of a card

To set the property of a class takes all that the card holds of the class off it and puts the given
one at the end, whatever class that one is of. So the given property is afterwards the only one of
the class, and stands on the card once, just if it is of the class itself
(`Card.isReplacement_set_iff`): one of another class leaves the card without any of the class, and
stands there twice if it was there before. A text that is given for the property becomes a new one
of the class, so that nothing can go wrong.
-/

namespace ContactCard.Card

variable {c c' : Card} {k : PropertyClass} {id : PropertyId}

/-- In `c'` a property has taken the place of all of its class that `c` holds: it is the one that is
read, there is no other one, it stands on the card once, and those of other classes are left, in
their order. No property changes its class, so that the later card tells the classes for both. -/
structure IsReplacement (c c' : Card) (k : PropertyClass) (id : PropertyId) : Prop where
  get?_eq : c'.get? k = some id
  getAll_eq : c'.getAll k = [id]
  count_eq_one : c'.ids.count id = 1
  others_eq : (c'.ids.filter fun i ↦ !c'.isOf k i) = c.ids.filter fun i ↦ !c'.isOf k i

/-- A property that is put in the place of a class replaces it just if it is of the class. -/
theorem isReplacement_iff (hids : c'.ids = (c.ids.filter fun i ↦ !c'.isOf k i) ++ [id]) :
    c.IsReplacement c' k id ↔ c'.isOf k id = true := by
  constructor
  · intro h
    have hmem : id ∈ c'.getAll k := by simp [h.getAll_eq]
    exact (List.mem_filter.mp hmem).2
  · intro h
    have hnone : (c.ids.filter fun i ↦ !c'.isOf k i).filter (c'.isOf k) = [] := by
      simp [List.filter_filter]
    have hall : c'.getAll k = [id] := by
      rw [getAll, hids, List.filter_append, hnone, List.nil_append]
      exact List.filter_cons_of_pos h
    have hnew : id ∉ c.ids.filter fun i ↦ !c'.isOf k i := by
      simp [List.mem_filter, h]
    exact {
      get?_eq := by
        rw [get?, ← List.head?_filter, ← getAll, hall]
        rfl
      getAll_eq := hall
      count_eq_one := by
        rw [hids, List.count_append, List.count_eq_zero.mpr hnew, List.count_singleton_self]
      others_eq := by simp [hids, List.filter_append, h] }

/-- A property in the place of a class stands at the end, after those of other classes. -/
theorem set_property (c : Card) (k : PropertyClass) (id : PropertyId) :
    c.set (.of k) (.property id) =
      ({ c with ids := (c.ids.filter fun i ↦ !c.isOf k i) ++ [id] }, .ok ()) := by
  unfold set
  rw [removeAll_of_isClear fun i _ ↦ ⟨_, c.accepts_of k i⟩, isOther_of]
  rfl

/-- A new property of a class is of the class. -/
theorem isOf_new (c : Card) (k : PropertyClass) (s : String) :
    isOf { c with shelf := c.shelf ++ [.ofText k (some s)] } k c.shelf.length = true := by
  simp [isOf, Property.isOf, Property.ofText, Property.ofContent, PropertyClass.isWithin,
    PropertyClass.lineage]

/-- To set the property of a class succeeds. It leaves those of other classes as they are and puts
the given one behind them, which replaces those of the class if and only if it is one of them. A
text that is given for it becomes a new property that does. -/
theorem isReplacement_set_iff (c : Card) (k : PropertyClass) :
    (∀ id, ∃ c', c.set (.of k) (.property id) = (c', .ok ()) ∧
        c.setText k (.property id) = (c', .ok ()) ∧ c'.shelf = c.shelf ∧
        c'.ids = (c.ids.filter fun i ↦ !c.isOf k i) ++ [id] ∧
        (c.IsReplacement c' k id ↔ c.isOf k id = true)) ∧
      ∀ s, ∃ c', c.setText k (.text s) = (c', .ok ()) ∧
        c'.shelf = c.shelf ++ [.ofText k (some s)] ∧ c.IsReplacement c' k c.shelf.length := by
  constructor
  · intro id
    have hset := c.set_property k id
    exact ⟨_, hset, hset, rfl, rfl, isReplacement_iff rfl⟩
  · intro s
    have hset := set_property { c with shelf := c.shelf ++ [.ofText k (some s)] } k c.shelf.length
    exact ⟨_, hset, rfl, (isReplacement_iff rfl).mpr (c.isOf_new k s)⟩

/-- A display name that is set as the kind of its card: the card has no kind then, and the display
name twice. -/
theorem display_name_set_as_kind :
    let c : Card := ⟨some .v3_0, [.ofText .formattedName (some "Club")], [0]⟩
    ∃ c', c.set (.of .kind) (.property 0) = (c', .ok ()) ∧ c'.getAll .kind = [] ∧
      c'.ids.count 0 = 2 ∧ c'.get? .kind = none ∧ ¬ c.IsReplacement c' .kind 0 :=
  ⟨_, rfl, rfl, rfl, rfl, fun h ↦ absurd h.getAll_eq nofun⟩

end ContactCard.Card
