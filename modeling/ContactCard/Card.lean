import ContactCard.Error
import ContactCard.Property

/-!
# Cards

A card is an ordered collection of properties. It refers to its properties rather than holding them:
one property may stand on a card more than once, keeps the group it was given when it is taken off,
and is told from another one that looks alike. So the properties lie on a shelf, where each has a
number for good, and a card is a list of numbers.

Every operation hands back the shelf and the card along with its result, also when it is refused,
because a refused operation may have done a part of its work.
-/

namespace ContactCard

open Text

/-- The number of a property on the shelf. -/
abbrev PropertyId := Nat

/-- Something that is put forward as a property. -/
inductive Item where
  | property (id : PropertyId)
  | text (s : String)
  | nothing
  /-- A value that is neither a text nor null. -/
  | other (v : Value)

/-- Something that is put forward as a class of properties: a class, a choice of such, or anything
else, which is refused once a property is held against it. -/
inductive ClassItem where
  | of (k : PropertyClass)
  | anyOf (choices : List ClassItem)
  | other

mutual

/-- Whether a property is of the class that is put forward. -/
def ClassItem.accepts (p : Property) : ClassItem → Except Error Bool
  | .of k => .ok (p.isOf k)
  | .anyOf choices => ClassItem.anyAccepts p choices
  | .other => .error Fault.wrongKind

/-- Whether a property is of one of the classes, tried up to the first that it is of. -/
def ClassItem.anyAccepts (p : Property) : List ClassItem → Except Error Bool
  | [] => .ok false
  | k :: rest => do if ← k.accepts p then return true else ClassItem.anyAccepts p rest

end

/-- A card and the shelf its properties lie on. -/
structure Card where
  version : Option Version
  shelf : List Property
  ids : List PropertyId

namespace Card

/-- The card without properties. -/
def empty (version : Option Version) (shelf : List Property) : Card := ⟨version, shelf, []⟩

/-! ### Looking at a card -/

/-- The properties on the card, in order. -/
def properties (c : Card) : List Property := c.ids.filterMap fun id ↦ c.shelf[id]?

def size (c : Card) : Nat := c.ids.length

/-- Whether the number is that of a property of the class. -/
def isOf (c : Card) (k : PropertyClass) (id : PropertyId) : Bool :=
  c.shelf[id]?.elim false fun p ↦ p.isOf k

/-- The properties of a class. -/
def getAll (c : Card) (k : PropertyClass) : List PropertyId := c.ids.filter (c.isOf k)

/-- The first property of a class. -/
def get? (c : Card) (k : PropertyClass) : Option PropertyId := c.ids.find? (c.isOf k)

/-- The groups of the properties, in order. -/
def groups (c : Card) : List (Option String) := c.properties.map Property.group

/-- Whether the properties make up a card about a group: its first KIND property says so. -/
def describesGroup (ps : List Property) : Bool :=
  match ps.find? fun p ↦ p.isOf .kind with
  | none => false
  | some p => (p.isKind "group").toOption.getD false

/-- Whether the card is about a group. -/
def isGroup (c : Card) : Bool := describesGroup c.properties

/-- The card as messages show it. -/
def shown (c : Card) : Except Fault String :=
  (c.properties.mapM Property.shown).map fun ss ↦ "<VCard [" ++ ", ".intercalate ss ++ "]>"

/-! ### Changing a card -/

/-- The refusal of a value that is no property. It tells what the value is, if that can be written. -/
def refusal (v : Value) : Error :=
  match v.shown with
  | .ok s => .propertyRequired s
  | .error f => .fault f

/-- Puts a property at the end of the card, and into a group if one is named. -/
def add (c : Card) (item : Item) (group : Option String) : Card × Except Error Unit :=
  match item with
  | .property id =>
    let shelf := match group with
      | none => c.shelf
      | some _ => c.shelf.modify id fun p ↦ { p with group := group }
    ({ c with shelf := shelf, ids := c.ids ++ [id] }, .ok ())
  | .text s => (c, .error (.propertyRequired (quoted s)))
  | .nothing => (c, .error (.propertyRequired "None"))
  | .other v => (c, .error (refusal v))

/-- Puts properties on the card up to the first that is refused. -/
def addAll (c : Card) : List Item → Card × Except Error Unit
  | [] => (c, .ok ())
  | item :: rest =>
    match c.add item none with
    | (c, .ok _) => c.addAll rest
    | (c, .error e) => (c, .error e)

/-- Takes a property off the card, where it stands first. -/
def remove (c : Card) (item : Item) : Card × Except Error Unit :=
  match item with
  | .property id =>
    if id ∈ c.ids then ({ c with ids := c.ids.erase id }, .ok ())
    else (c, .error (.fault .absentItem))
  | _ => (c, .error (.fault .absentItem))

/-- Whether the number is that of a property of the class that is put forward. -/
def accepts (c : Card) (k : ClassItem) (id : PropertyId) : Except Error Bool :=
  c.shelf[id]?.elim (.ok false) k.accepts

/-- The properties that are not of the class. -/
def without (c : Card) (k : ClassItem) : List PropertyId → Except Error (List PropertyId)
  | [] => .ok []
  | id :: rest => do
    let isOne ← c.accepts k id
    let others ← c.without k rest
    return if isOne then others else id :: others

/-- Takes all properties of a class off the card. -/
def removeAll (c : Card) (k : ClassItem) : Card × Except Error Unit :=
  match c.without k c.ids with
  | .ok ids => ({ c with ids := ids }, .ok ())
  | .error e => (c, .error e)

/-- Takes all properties of a class off the card and puts one on instead, or none. -/
def set (c : Card) (k : ClassItem) (item : Item) : Card × Except Error Unit :=
  match c.removeAll k, item with
  | (c, .error e), _ => (c, .error e)
  | (c, .ok _), .nothing => (c, .ok ())
  | (c, .ok _), item => c.add item none

/-- As `set`, where a text stands for a new property of the class. -/
def setText (c : Card) (k : PropertyClass) (item : Item) : Card × Except Error Unit :=
  match item with
  | .text s =>
    let c' := { c with shelf := c.shelf ++ [Property.ofText k (some s)] }
    c'.set (.of k) (.property c.shelf.length)
  | item => c.set (.of k) item

end Card

end ContactCard
