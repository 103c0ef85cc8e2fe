import ContactCard.Error

/-!
# Property parameters

The parameters of a property: lists of texts under names that are compared in lower case, in the
order in which the names were first added. Whatever is put under a name is kept as text; the typed
accessors read it back as an encoding, a data type or a number.

A change hands back the parameters along with its outcome, also when it is refused. Whether a value
has a text is found only after its name was given a place, or after the values that it is to replace
were removed; so what is refused for this has done a part of its work.
-/

namespace ContactCard

open Text

/-- The parameters of a property. -/
structure Parameters where
  table : OrderedMap String (List String)
  deriving DecidableEq

namespace Parameters

def empty : Parameters := ⟨∅⟩

instance : Inhabited Parameters := ⟨empty⟩

/-! ### Looking up -/

/-- All values of a parameter. -/
def getAll (p : Parameters) (name : String) : List String := (p.table.get? (toLower name)).getD []

/-- The first value of a parameter. -/
def get? (p : Parameters) (name : String) : Option String := (p.getAll name).head?

def contains (p : Parameters) (name : String) : Bool := p.table.contains (toLower name)

def names (p : Parameters) : List String := p.table.keys

def isEmpty (p : Parameters) : Bool := p.table.isEmpty

def size (p : Parameters) : Nat := p.table.size

/-! ### Changing -/

/-- Adds a text after the values a parameter has. -/
def add (p : Parameters) (name value : String) : Parameters :=
  ⟨p.table.insert (toLower name) (p.getAll name ++ [value])⟩

/-- Gives a parameter a place: a new one comes last and has no values yet. -/
def reserve (p : Parameters) (name : String) : Parameters :=
  ⟨p.table.insert (toLower name) (p.getAll name)⟩

/-- Adds a value, as text, after the values a parameter has. The parameter is there also if the value
has no text. -/
def put (p : Parameters) (name : String) : Value → Parameters × Except Error Unit
  | .null => (p, .error .noParameterValue)
  | v =>
    match v.toText with
    | .ok s => (p.add name s, .ok ())
    | .error f => (p.reserve name, .error (.fault f))

/-- Removes a parameter. -/
def remove (p : Parameters) (name : String) : Parameters := ⟨p.table.erase (toLower name)⟩

/-- Makes a text the only value of a parameter, which moves to the end. -/
def set (p : Parameters) (name value : String) : Parameters :=
  ⟨(p.remove name).table.insert (toLower name) [value]⟩

/-- Makes a text the only value of a parameter, or removes the parameter. -/
def assign (p : Parameters) (name : String) : Option String → Parameters
  | some value => p.set name value
  | none => p.remove name

/-- Makes a value, as text, the only one of a parameter; null removes the parameter, and so does a
value that has no text. -/
def replace (p : Parameters) (name : String) : Value → Parameters × Except Error Unit
  | .null => (p.remove name, .ok ())
  | v =>
    match v.toText with
    | .ok s => (p.set name s, .ok ())
    | .error f => (p.remove name, .error (.fault f))

/-- Removes one value of a parameter, and the parameter with its last value. Nothing happens if the
parameter does not hold a text equal to the value. -/
def removeValue? (p : Parameters) (name : String) (v : Value) : Option Parameters :=
  let values := p.getAll name
  if values.any fun s ↦ v.same (.text s) then
    match values.eraseP fun s ↦ v.same (.text s) with
    | [] => some (p.remove name)
    | rest => some ⟨p.table.insert (toLower name) rest⟩
  else none

/-! ### Making -/

/-- Parameters that are kept only if the change that made them is not refused. -/
def unlessRefused : Parameters × Except Error Unit → Except Error Parameters
  | (p, .ok ()) => .ok p
  | (_, .error e) => .error e

/-- Adds a value, or every item of a list. -/
def putAll (p : Parameters) (name : String) : Value → Except Error Parameters
  | .list items => items.foldlM (fun p v ↦ unlessRefused (p.put name v)) p
  | v => unlessRefused (p.put name v)

/-- The parameters with the given names and values, added one after the other. -/
def ofPairs (pairs : List (String × Value)) : Except Error Parameters :=
  pairs.foldlM (fun p e ↦ p.putAll e.1 e.2) empty

/-- The names, each with the list of its values. -/
def items (p : Parameters) : List (String × Value) :=
  p.table.entries.map fun (name, values) ↦ (name, .list (values.map .text))

/-- The parameters made again from their entries. -/
def copy (p : Parameters) : Parameters := ⟨.ofList p.table.entries⟩

/-! ### Comparing and showing -/

/-- Equality of parameters, order included. -/
def same (p q : Parameters) : Bool := p.table.entries == q.table.entries

/-- The parameters as messages show them. -/
def shown (p : Parameters) : String :=
  let entries := p.table.entries.map fun (name, values) ↦
    (Value.text name, Value.list (values.map .text))
  "VCardParameters(" ++ (Value.map entries).spelling ++ ")"

/-! ### Typed accessors -/

/-- The value of the ENCODING parameter. -/
def encoding? (p : Parameters) : Option Encoding := (p.get? "encoding").map .ofName

/-- The value of the VALUE parameter. -/
def valueType? (p : Parameters) : Option DataType := (p.get? "value").map .ofName

/-- The value of the PREF parameter, if it spells an integer. -/
def preference? (p : Parameters) : Option Int := (p.get? "pref").bind Integer.ofText?

/-- Makes a preference between 1 and 100 the value of the PREF parameter; null removes it. -/
def setPreference (p : Parameters) : Value → Except Error Parameters
  | .null => .ok (p.remove "pref")
  | v => do
    let i ← Fault.lift v.toInt
    if i < 1 ∨ 100 < i then throw .preferenceRange
    return p.set "pref" (toString i)

/-- The typed accessors. -/
inductive Accessor where
  | encoding
  | value
  | mediaType
  | type
  | types
  | preference
  | language
  | charset
  | alternativeId
  | label
  deriving DecidableEq

/-- The parameter that an accessor is for. -/
def Accessor.name : Accessor → String
  | .encoding => "encoding"
  | .value => "value"
  | .mediaType => "mediatype"
  | .type | .types => "type"
  | .preference => "pref"
  | .language => "language"
  | .charset => "charset"
  | .alternativeId => "altid"
  | .label => "label"

/-- What comes of a change that is made as a whole or not at all. -/
def attempt (p : Parameters) : Except Error Parameters → Parameters × Except Error Unit
  | .ok q => (q, .ok ())
  | .error e => (p, .error e)

/-- Assigns a value to a typed accessor. The values of the TYPE parameter can only be read together,
and a preference must be one; the others take any value that has a text. -/
def assignTo (p : Parameters) : Accessor → Value → Parameters × Except Error Unit
  | .types, _ => (p, .error (.fault .missingPart))
  | .preference, v => p.attempt (p.setPreference v)
  | a, v => p.replace a.name v

end Parameters

end ContactCard
