import ContactCard.Html.PropertyNode
import ContactCard.JCardValue
import ContactCard.Property
import ContactCard.Text.Escape
import ContactCard.XCard.PropertyElement

/-!
# Codecs

A codec writes and reads the properties of one name in every form a card has: plain text, XML, JSON
and HTML. What it does in each form makes up its format. A format may be given by what it does in
plain text alone; the other forms then hold the plain text, and reading escapes what they hold
before it is read as plain text.

Reading gives a property and warnings. The property carries exactly the parameters that came with
the text, the element or the JSON value; an HTML element brings none.
-/

namespace ContactCard

open Text Xml

/-- What comes of writing a property as XML. -/
inductive Outcome where
  | emit (element : Element)
  /-- The property is to be left out. -/
  | omit (reason : String)
  /-- XML has no form for the property. -/
  | unsupported (reason : String)

/-- A property that was read, and what was noticed on the way. -/
structure Reading where
  property : Property
  warnings : List String

/-- What a codec is for: the class of the properties that it makes, and their name. -/
structure Subject where
  target : PropertyClass
  name : Option String

/-- How properties are written and read in plain text. -/
structure TextFormat where
  /-- The data type that a value has if nothing is said about it. -/
  defaultDataType : Version → Option DataType
  /-- The data type of the value of a property. -/
  dataType : Property → Version → Except Fault (Option DataType)
  encode : Property → Version → Except Fault String
  decode : Subject → String → Option DataType → Version → Parameters → Except Error Reading

/-- How properties are written and read in all forms. -/
structure Format extends TextFormat where
  /-- Whether there is a codec for each single name and none for a class. -/
  perName : Bool
  /-- The parameters of a property as they are written, the data type of the value apart. -/
  adjust : Property → Version → Parameters → Except Fault Parameters
  encodeXml : Property → PropertyElement → Except Fault Outcome
  decodeXml : Subject → PropertyElement → Parameters → Except Error Reading
  encodeJson : Property → Except Fault JCardValue
  decodeJson : Subject → JCardValue → Option DataType → Parameters → Except Error Reading
  decodeHtml : Subject → PropertyNode → Except Error Reading

namespace TextFormat

variable (f : TextFormat)

/-- The element with the plain text as a value. -/
def encodeXml (p : Property) (e : PropertyElement) : Except Fault Outcome := do
  let d ← f.dataType p e.version
  let s ← f.encode p e.version
  return .emit (e.append d (.text s)).element

/-- Reads the first value of the default data type. -/
def decodeXml (subject : Subject) (e : PropertyElement) (ps : Parameters) :
    Except Error Reading :=
  let d := f.defaultDataType e.version
  match e.first? d with
  | none => .error (.missingValueElement [d])
  | some s => f.decode subject (escape s) d e.version ps

/-- The plain text of the last version. -/
def encodeJson (p : Property) : Except Fault JCardValue :=
  (f.encode p .v4_0).map .single

/-- Reads the first item. -/
def decodeJson (subject : Subject) (j : JCardValue) (d : Option DataType) (ps : Parameters) :
    Except Error Reading := do
  let s ← Fault.lift j.asSingle
  f.decode subject (escape s) d .v4_0 ps

/-- Reads the text of an HTML element. -/
def decodeHtml (subject : Subject) (n : PropertyNode) : Except Error Reading :=
  f.decode subject (escape n.value) none .v3_0 .empty

/-- The format in which the other forms hold the plain text. -/
def toFormat : Format :=
  { f with
    perName := false
    adjust := fun _ _ ps ↦ .ok ps
    encodeXml := f.encodeXml
    decodeXml := f.decodeXml
    encodeJson := f.encodeJson
    decodeJson := f.decodeJson
    decodeHtml := f.decodeHtml }

end TextFormat

/-- A codec; its label tells it from others. -/
structure Codec where
  label : String
  subject : Subject
  format : Format

namespace Codec

/-- The parameters of a property as they are written. The VALUE parameter names the data type of the
value unless it is the default one. -/
def prepareParameters (c : Codec) (p : Property) (v : Version) : Except Fault Parameters := do
  let ps ← c.format.adjust p v p.parameters
  let d ← c.format.dataType p v
  let named := if DataType.sameOption d (c.format.defaultDataType v) then none else d
  return ps.assign "value" (named.map DataType.name)

/-- As `prepareParameters`, where the property may be missing. -/
def prepareParametersOf (c : Codec) (p : Option Property) (v : Version) :
    Except Fault Parameters :=
  p.elim (.error .missingPart) fun p ↦ c.prepareParameters p v

/-- What was read, with the parameters given to the property. -/
def withParameters (ps : Parameters) (r : Reading) : Reading :=
  { r with property := { r.property with parameters := ps } }

/-- The default data type of the values. -/
def defaultDataType (c : Codec) (v : Version) : Option DataType := c.format.defaultDataType v

/-- The data type of the value of a property. -/
def dataType (c : Codec) (p : Property) (v : Version) : Except Fault (Option DataType) :=
  c.format.dataType p v

/-- Writes the value of a property as plain text. -/
def writeText (c : Codec) (p : Property) (v : Version) : Except Fault String :=
  c.format.encode p v

/-- Reads a plain text, whose data type is the one that its VALUE parameter names. -/
def readText (c : Codec) (s : String) (d : Option DataType) (v : Version) (ps : Parameters) :
    Except Error Reading :=
  (c.format.decode c.subject s d v ps).map (withParameters ps)

/-- Writes the value of a property into an XML element. -/
def writeXml (c : Codec) (p : Property) (e : PropertyElement) : Except Fault Outcome :=
  c.format.encodeXml p e

/-- Reads an XML element. -/
def readXml (c : Codec) (e : PropertyElement) (ps : Parameters) : Except Error Reading :=
  (c.format.decodeXml c.subject e ps).map (withParameters ps)

/-- Writes the value of a property as JSON. -/
def writeJson (c : Codec) (p : Property) : Except Fault JCardValue := c.format.encodeJson p

/-- Reads a JSON value. -/
def readJson (c : Codec) (j : JCardValue) (d : Option DataType) (ps : Parameters) :
    Except Error Reading :=
  (c.format.decodeJson c.subject j d ps).map (withParameters ps)

/-- Reads an HTML element. -/
def readHtml (c : Codec) (n : PropertyNode) : Except Error Reading :=
  c.format.decodeHtml c.subject n

end Codec

end ContactCard
