import ContactCard.DataType
import ContactCard.Number.Integer
import ContactCard.Number.Shortest

/-!
# Values

The values that settings and jCard values hold and that parameters are made from. Numbers, truth
values among them, are compared by what they count, so `1`, `1.0` and truth are one value as far as
equality goes; everything else is equal only to its own kind. A map is a list of entries, compared
without regard to their order.

Not every value has a text: an integer of too many digits cannot be written, and neither can a list
or a map that holds one.
-/

namespace ContactCard

open Text

/-- A value of any kind. -/
inductive Value where
  | null
  | bool (b : Bool)
  | int (i : Int)
  | float (x : Double)
  | text (s : String)
  | bytes (bs : List UInt8)
  | list (items : List Value)
  | map (entries : List (Value × Value))
  | dataType (d : DataType)
  | encoding (e : Encoding)
  deriving Inhabited

namespace Value

/-! ### Texts -/

/-- A text as a value, and null where there is none. -/
def ofOption : Option String → Value
  | some s => .text s
  | none => .null

/-- The text that the value is, if it is one. -/
def text? : Value → Option String
  | .text s => some s
  | _ => none

@[simp] theorem text?_text (s : String) : text? (.text s) = some s := rfl

@[simp] theorem text?_ofOption (s : Option String) : (ofOption s).text? = s := by
  cases s <;> rfl

/-! ### Equality -/

/-- Whether the value is a number that counts `i`. -/
def countsInt (i : Int) : Value → Bool
  | .bool b => (if b then 1 else 0) == i
  | .int j => j == i
  | .float x => x.sameInt i
  | _ => false

/-- Whether the value is a number that counts `x`. -/
def countsDouble (x : Double) : Value → Bool
  | .bool b => x.sameInt (if b then 1 else 0)
  | .int j => x.sameInt j
  | .float y => x.same y
  | _ => false

mutual

/-- Equality of values. -/
def same : Value → Value → Bool
  | .null, .null => true
  | .bool a, v => v.countsInt (if a then 1 else 0)
  | .int a, v => v.countsInt a
  | .float a, v => v.countsDouble a
  | .text a, .text b => a == b
  | .bytes a, .bytes b => a == b
  | .list a, .list b => sameItems a b
  | .map a, .map b => a.length == b.length && allIn b a
  | .dataType a, .dataType b => a.same b
  | .encoding a, .encoding b => a.same b
  | _, _ => false

/-- Equality of lists, item by item. -/
def sameItems : List Value → List Value → Bool
  | [], [] => true
  | a :: as, b :: bs => same a b && sameItems as bs
  | _, _ => false

/-- Whether all the entries are entries of the map `b`. -/
def allIn (b : List (Value × Value)) : List (Value × Value) → Bool
  | [] => true
  | (k, v) :: rest => (b.any fun e ↦ same k e.1 && same v e.2) && allIn b rest

end

instance : BEq Value := ⟨same⟩

mutual

theorem same_self : ∀ v : Value, v.same v = true
  | .null => rfl
  | .bool b => by cases b <;> rfl
  | .int i => beq_self_eq_true i
  | .float x => x.same_self
  | .text s => beq_self_eq_true s
  | .bytes bs => beq_self_eq_true bs
  | .list items => sameItems_self items
  | .map entries => by
    rw [same, beq_self_eq_true, Bool.true_and]
    exact allIn_of_subset entries entries fun _ he ↦ he
  | .dataType d => d.named.same_self
  | .encoding e => e.named.same_self

theorem sameItems_self : ∀ items : List Value, sameItems items items = true
  | [] => rfl
  | v :: rest => by rw [sameItems, same_self v, sameItems_self rest, Bool.and_self]

theorem allIn_of_subset (b : List (Value × Value)) :
    ∀ es : List (Value × Value), (∀ e ∈ es, e ∈ b) → allIn b es = true
  | [], _ => rfl
  | (k, v) :: rest, h => by
    obtain ⟨hmem, hrest⟩ := List.forall_mem_cons.mp h
    rw [allIn, allIn_of_subset b rest hrest, Bool.and_true, List.any_eq_true]
    exact ⟨(k, v), hmem, by rw [same_self k, same_self v, Bool.and_self]⟩

end

/-- Whether the value is a double that is not a number. -/
def isNotANumber : Value → Bool
  | .float (.nan _) => true
  | _ => false

/-- Whether a comparison of two values says that they differ. What is not a number is found again in
what holds it, but compared on its own it differs from everything. -/
def differs (v w : Value) : Bool := v.isNotANumber || !v.same w

theorem differs_self (v : Value) : v.differs v = v.isNotANumber := by
  rw [differs, same_self, Bool.not_true, Bool.or_false]

theorem differs_null {v : Value} (h : v ≠ .null) : v.differs .null = true := by
  have hsame : v.same .null = false := by
    cases v with
    | null => exact absurd rfl h
    | _ => rfl
  rw [differs, hsame, Bool.not_false, Bool.or_true]

/-- Whether the value can be the key of a map. -/
def isHashable : Value → Bool
  | .list _ | .map _ => false
  | _ => true

/-! ### Text -/

mutual

/-- Whether the value can be written: all integers in it can. -/
def isWritable : Value → Bool
  | .int i => Integer.isWritable i
  | .list items => itemsAreWritable items
  | .map entries => entriesAreWritable entries
  | _ => true

/-- Whether all items of a list can be written. -/
def itemsAreWritable : List Value → Bool
  | [] => true
  | v :: rest => isWritable v && itemsAreWritable rest

/-- Whether all entries of a map can be written. -/
def entriesAreWritable : List (Value × Value) → Bool
  | [] => true
  | (k, v) :: rest => isWritable k && isWritable v && entriesAreWritable rest

end

mutual

/-- The value as messages spell it, however many digits it takes. -/
def spelling : Value → String
  | .null => "None"
  | .bool b => if b then "True" else "False"
  | .int i => toString i
  | .float x => x.toText
  | .text s => quoted s
  | .bytes bs => quotedBytes bs
  | .list items => "[" ++ ", ".intercalate (spellingItems items) ++ "]"
  | .map entries => "\x7b" ++ ", ".intercalate (spellingEntries entries) ++ "\x7d"
  | .dataType d => d.named.shown
  | .encoding e => e.named.shown

/-- The items of a list as messages spell them. -/
def spellingItems : List Value → List String
  | [] => []
  | v :: rest => spelling v :: spellingItems rest

/-- The entries of a map as messages spell them. -/
def spellingEntries : List (Value × Value) → List String
  | [] => []
  | (k, v) :: rest => (spelling k ++ ": " ++ spelling v) :: spellingEntries rest

end

/-- The value as messages show it. -/
def shown (v : Value) : Except Fault String :=
  if v.isWritable then .ok v.spelling else .error .tooManyDigits

/-- The value as text: a text is itself, a name its spelling, anything else what messages show. -/
def toText : Value → Except Fault String
  | .text s => .ok s
  | .dataType d => .ok d.name
  | .encoding e => .ok e.name
  | v => v.shown

@[simp] theorem toText_text (s : String) : toText (.text s) = .ok s := rfl

theorem toText_int_of_isWritable_eq_false {i : Int} (h : Integer.isWritable i = false) :
    toText (.int i) = .error .tooManyDigits :=
  if_neg (ne_true_of_eq_false h)

/-- A value has a text if it can be written, and is refused if not. -/
theorem toText_cases (v : Value) :
    (∃ s, v.toText = .ok s) ∧ v.isWritable = true ∨
      v.toText = .error .tooManyDigits ∧ v.isWritable = false := by
  have hshown : (∃ s, v.shown = .ok s) ∧ v.isWritable = true ∨
      v.shown = .error .tooManyDigits ∧ v.isWritable = false := by
    rw [shown]
    cases hv : v.isWritable with
    | true => exact .inl ⟨⟨_, rfl⟩, rfl⟩
    | false => exact .inr ⟨rfl, rfl⟩
  cases v with
  | text s => exact .inl ⟨⟨s, rfl⟩, rfl⟩
  | dataType d => exact .inl ⟨⟨d.name, rfl⟩, rfl⟩
  | encoding e => exact .inl ⟨⟨e.name, rfl⟩, rfl⟩
  | _ => exact hshown

theorem exists_toText {v : Value} (h : v.isWritable = true) : ∃ s, v.toText = .ok s := by
  rcases v.toText_cases with ⟨hs, -⟩ | ⟨-, hnot⟩
  · exact hs
  · exact absurd (h.symm.trans hnot) nofun

/-! ### Conversions -/

/-- Whether the value counts as true: it is not null, zero or empty. -/
def isTruthy : Value → Bool
  | .null => false
  | .bool b => b
  | .int i => i != 0
  | .float x => !x.isZero
  | .text s => !s.isEmpty
  | .bytes bs => !bs.isEmpty
  | .list items => !items.isEmpty
  | .map entries => !entries.isEmpty
  | .dataType _ | .encoding _ => true

/-- The value as an integer. A double loses its fraction; a text or bytes must spell an integer. -/
def toInt : Value → Except Fault Int
  | .bool b => .ok (if b then 1 else 0)
  | .int i => .ok i
  | .float (.infinite _) => .error .unboundedNumber
  | .float x => x.truncate?.elim (.error .badNumber) .ok
  | .text s => (Integer.ofText? s).elim (.error .badNumber) .ok
  | .bytes bs => (Integer.ofBytes? bs).elim (.error .badNumber) .ok
  | .null | .list _ | .map _ | .dataType _ | .encoding _ => .error .wrongKind

/-- The value as one byte of a sequence. -/
def toByte : Value → Except Fault UInt8
  | .bool b => .ok (if b then 1 else 0)
  | .int i => if 0 ≤ i ∧ i < 256 then .ok (UInt8.ofNat i.toNat) else .error .badNumber
  | _ => .error .wrongKind

/-- The length of the longest sequence of bytes that can be asked for. -/
def maxByteCount : Int := Int.pow 2 63 - 34

/-- The length of the longest sequence of bytes that is ever made. -/
def maxMemory : Int := Int.pow 2 32

/-- That many zeros. -/
def zeros (i : Int) : Except Fault (List UInt8) :=
  if i < -Int.pow 2 63 ∨ maxByteCount < i then .error .unboundedNumber
  else if i < 0 then .error .badNumber
  else if maxMemory < i then .error .outOfMemory
  else .ok (List.replicate i.toNat 0)

/-- The value as a sequence of bytes. A number stands for that many zeros, a map for its keys. -/
def toBytes : Value → Except Fault (List UInt8)
  | .bytes bs => .ok bs
  | .bool b => .ok (if b then [0] else [])
  | .int i => zeros i
  | .list items => items.mapM toByte
  | .map entries => (entries.map Prod.fst).mapM toByte
  | .null | .float _ | .text _ | .dataType _ | .encoding _ => .error .wrongKind

end Value

end ContactCard
