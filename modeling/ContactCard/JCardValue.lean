import ContactCard.Value

/-!
# Values in JSON

In the JSON form of a card a property has a list of values, which may be lists themselves.
-/

namespace ContactCard

/-- The values of a property in JSON. -/
structure JCardValue where
  items : List Value

namespace JCardValue

/-- A single text. -/
def single (s : String) : JCardValue := ⟨[.text s]⟩

mutual

/-- The value, or the first value inside nested lists. An empty list counts as null. -/
def first : Value → Value
  | .list items => firstOf items
  | v => v

/-- The first of some values, or the first value inside it. -/
def firstOf : List Value → Value
  | [] => .null
  | v :: _ => first v

end

/-- The values as a single text: that of the first one, where null counts as the empty text. -/
def asSingle (j : JCardValue) : Except Fault String :=
  match firstOf j.items with
  | .null => .ok ""
  | v => v.toText

/-- There is a text just when the first item can be written. -/
theorem asSingle_cases (j : JCardValue) :
    (∃ s, j.asSingle = .ok s) ∧ (firstOf j.items).isWritable = true ∨
      j.asSingle = .error .tooManyDigits ∧ (firstOf j.items).isWritable = false := by
  rw [asSingle]
  split
  · next hnull => exact .inl ⟨⟨_, rfl⟩, by rw [hnull]; rfl⟩
  · exact Value.toText_cases _

/-- Equality, item by item. -/
def same (a b : JCardValue) : Bool := Value.sameItems a.items b.items

/-- The values as messages show them. -/
def shown (j : JCardValue) : Except Fault String :=
  (Value.list j.items).shown.map fun s ↦ "JCardValue(" ++ s ++ ")"

end JCardValue

end ContactCard
