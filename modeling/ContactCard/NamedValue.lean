import ContactCard.Fault
import ContactCard.OrderedMap
import ContactCard.Text.Case
import ContactCard.Text.Quoted

/-!
# Named values

Names that are compared without regard to case and keep one canonical spelling for output. They come
in classes; a class may specialise another one, and each class has a table of well-known values of
its own, which its specialisations do not share.

Two named values are equal if the class of the second lies within the class of the first and the
names agree up to case. Of two values the one whose class is the more special is asked first, so
values of different classes are never equal.
-/

namespace ContactCard

open Text

/-- A class of named values, with the classes it specialises, the nearest first. -/
structure NamedClass where
  label : String
  ancestors : List String
  deriving DecidableEq

namespace NamedClass

/-- The class that all others specialise. -/
def base : NamedClass := ⟨"NamedValue", []⟩

/-- A new class within `c`. -/
def specialise (c : NamedClass) (label : String) : NamedClass := ⟨label, c.label :: c.ancestors⟩

/-- The classes of the data types of values. -/
def dataType : NamedClass := base.specialise "VCardDataType"

/-- The classes of the encodings of values. -/
def encoding : NamedClass := base.specialise "Encoding"

/-- Whether `c` is `d` or specialises it. -/
def isWithin (c d : NamedClass) : Bool :=
  (d.label :: d.ancestors).isSuffixOf (c.label :: c.ancestors)

end NamedClass

/-- A name of some class. -/
structure NamedValue where
  cls : NamedClass
  name : String
  deriving DecidableEq

namespace NamedValue

/-- The answer of `a` to the question whether it equals `b`. -/
def accepts (a b : NamedValue) : Bool :=
  b.cls.isWithin a.cls && toLower a.name == toLower b.name

/-- Equality of named values. -/
def same (a b : NamedValue) : Bool :=
  if a.cls ≠ b.cls && b.cls.isWithin a.cls then b.accepts a else a.accepts b

@[simp] theorem same_self (a : NamedValue) : a.same a = true := by
  simp [same, accepts, NamedClass.isWithin]

/-- Inequality of named values: the one that is asked whether they are equal is asked whether they
differ, and says the opposite. -/
def differs (a b : NamedValue) : Bool :=
  if a.cls ≠ b.cls && b.cls.isWithin a.cls then !b.accepts a else !a.accepts b

/-- What equal values have in common, so that collections can find them. -/
def key (a : NamedValue) : String := toLower a.name

/-- The value as messages show it. -/
def shown (a : NamedValue) : String := "<" ++ a.cls.label ++ " " ++ quoted a.name ++ ">"

end NamedValue

/-- The well-known values of every class, by name in lower case. -/
structure NamedRegistry where
  tables : OrderedMap NamedClass (OrderedMap String NamedValue)

namespace NamedRegistry

/-- The values registered on exactly this class. -/
def table (r : NamedRegistry) (c : NamedClass) : OrderedMap String NamedValue :=
  (r.tables.get? c).getD ∅

/-- Makes a name well known in a class. -/
def register (r : NamedRegistry) (c : NamedClass) (name : String) : NamedRegistry :=
  ⟨r.tables.insert c ((r.table c).insert (toLower name) ⟨c, name⟩)⟩

/-- The well-known value of a name. -/
def find? (r : NamedRegistry) (c : NamedClass) (name : String) : Option NamedValue :=
  (r.table c).get? (toLower name)

/-- The well-known value of a name, or else a new value. -/
def get (r : NamedRegistry) (c : NamedClass) (name : String) : NamedValue :=
  (r.find? c name).getD ⟨c, name⟩

/-- Whether the value is the well-known one of its name. -/
def knows (r : NamedRegistry) (v : NamedValue) : Bool := r.find? v.cls v.name == some v

/-- All well-known values of a class, which the base class cannot list before it has some. -/
def all (r : NamedRegistry) (c : NamedClass) : Except Fault (List NamedValue) :=
  if c = .base && !r.tables.contains c then .error .missingPart else .ok (r.table c).values

/-- The names that every card may use. -/
def standard : NamedRegistry :=
  let dataTypes := ["binary", "boolean", "content-id", "date", "date-time", "date-and-or-time",
    "float", "integer", "language-tag", "text", "time", "timestamp", "uri", "url", "utc-offset"]
  let encodings := ["BASE64", "b", "QUOTED-PRINTABLE", "7BIT", "8BIT"]
  let r := dataTypes.foldl (fun r n ↦ r.register .dataType n) ⟨∅⟩
  encodings.foldl (fun r n ↦ r.register .encoding n) r

end NamedRegistry

end ContactCard
