import ContactCard.Codec.Basic

/-!
# Codecs of text properties

The codecs of properties that hold a text, and of extension properties. Plain text escapes the text
of a property of a known name; XML and JSON hold it as it is. A property that holds nothing is left
out of XML.

The text of an extension property is never escaped when it is written. It is read back as it stands
from plain text and XML, while from JSON and HTML it is read as the other text properties are.
-/

namespace ContactCard

open Text Xml

namespace Format

/-- The XML form of a text property, and what is left of it in JSON: the text as it is. A value that
is no text goes into XML as it is, too. -/
def withVerbatimText (f : Format) : Format :=
  { f with
    encodeXml := fun p e ↦ do
      match ← p.heldValue with
      | .null => return .omit "Property has no value."
      | v =>
        let d ← f.dataType p e.version
        return .emit (e.append d v).element
    encodeJson := fun p ↦ p.value.map fun v ↦ .single (v.getD "") }

/-- Reads an escaped text. -/
def decodeEscaped (subject : Subject) (s : String) (_ : Option DataType) (_ : Version)
    (_ : Parameters) : Except Error Reading :=
  .ok ⟨Property.ofTextLike subject.target (unescape s), []⟩

/-- The format of text properties whose values all have one data type. -/
def text (d : DataType) : Format :=
  (TextFormat.toFormat
    { defaultDataType := fun _ ↦ some d
      dataType := fun _ _ ↦ .ok (some d)
      encode := fun p _ ↦ p.value.map fun v ↦ escape (v.getD "")
      decode := decodeEscaped }).withVerbatimText

/-! ### Extension properties -/

/-- The extension property that a value makes. -/
def extensionReading (subject : Subject) (s : String) (d : Option DataType) : Reading :=
  ⟨Property.ofExtension (subject.name.getD "") (some s) d, []⟩

/-- The local part of a tag: what follows its first closing brace. -/
def localName (tag : String) : String :=
  match cut '\x7d' tag.toList with
  | (_, some name) => String.ofList name
  | (_, none) => tag

/-- Whether a child of a property element holds the parameters. -/
def isParametersTag (tag : String) : Bool := "\x7dparameters".toList.isSuffixOf tag.toList

/-- The data type that the tag of a value element names. -/
def taggedDataType (tag : String) : Option DataType :=
  let name := localName tag
  if name = PropertyElement.unknownName then none else some (.ofName name)

/-- Reads the first value element, whatever its data type; without any, the text of the element
itself is the value. -/
def decodeExtensionXml (subject : Subject) (e : PropertyElement) (_ : Parameters) :
    Except Error Reading :=
  match e.element.children.find? fun child ↦ !isParametersTag child.tag with
  | some child => .ok (extensionReading subject child.ownText (taggedDataType child.tag))
  | none => .ok (extensionReading subject e.element.ownText none)

/-- The format of extension properties. -/
def extension : Format :=
  { (TextFormat.toFormat
      { defaultDataType := fun _ ↦ none
        dataType := fun p _ ↦ p.dataType
        encode := fun p _ ↦ p.value.map fun v ↦ v.getD ""
        decode := fun subject s d _ _ ↦ .ok (extensionReading subject s d) }).withVerbatimText with
    perName := true
    decodeXml := decodeExtensionXml }

end Format

namespace Codec

/-- A codec for the properties of a class. -/
def ofClass (label : String) (c : PropertyClass) (f : Format) : Codec := ⟨label, ⟨c, c.name⟩, f⟩

def formattedName : Codec := ofClass "FormattedName" .formattedName (.text .text)

def productId : Codec := ofClass "ProductId" .productId (.text .text)

def mailer : Codec := ofClass "Mailer" .mailer (.text .text)

def kind : Codec := ofClass "Kind" .kind (.text .text)

def member : Codec := ofClass "Member" .member (.text .uri)

/-- The codec of the extension properties of a name, in upper case. -/
def extension (name : String) : Codec :=
  ⟨"RawProperty", ⟨.extension, some (toUpper name)⟩, .extension⟩

end Codec

end ContactCard
