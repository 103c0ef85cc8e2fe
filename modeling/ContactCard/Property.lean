import ContactCard.MediaType
import ContactCard.Parameters
import ContactCard.Version

/-!
# Properties

A property of a card: its class, its parameters, the group it belongs to, the name of its XML element
where that is given, and what it holds. A binary property holds a resource, which is linked by a URL
or embedded as bytes but never both; a text property holds a text; an extension property holds a text
and its data type, and brings its name along. Where a setting says what a text property holds, that
may be a value of another kind.

Property classes form a hierarchy that may be extended: a class knows the classes it specialises.
-/

namespace ContactCard

open Text

/-- What kind of thing the properties of a class hold. -/
inductive Shape where
  | plain
  | binary
  | text
  | extension
  deriving DecidableEq

/-- A class of properties. Extension properties have names of their own, so their class has none. -/
structure PropertyClass where
  label : String
  /-- The labels of the classes it specialises, the nearest first. -/
  ancestors : List String
  shape : Shape
  name : Option String
  versions : List Version
  /-- Whether the properties name members of a group. -/
  membership : Bool
  deriving DecidableEq

namespace PropertyClass

/-- The labels of the class and of the classes it specialises, the nearest first. -/
def lineage (c : PropertyClass) : List String := c.label :: c.ancestors

/-- Whether `c` is `d` or specialises it. -/
def isWithin (c d : PropertyClass) : Bool := c.lineage.contains d.label

/-- A class within `c` that differs from it in its name. -/
def specialise (c : PropertyClass) (label : String) (name : Option String) : PropertyClass :=
  { c with label := label, ancestors := c.lineage, name := name }

def base : PropertyClass := ⟨"VCardProperty", [], .plain, none, Version.all, false⟩

def binary : PropertyClass := { base.specialise "BinaryProperty" none with shape := .binary }

def photo : PropertyClass := binary.specialise "Photo" (some "PHOTO")

def logo : PropertyClass := binary.specialise "Logo" (some "LOGO")

def sound : PropertyClass := binary.specialise "Sound" (some "SOUND")

def text : PropertyClass := { base.specialise "TextProperty" none with shape := .text }

/-- The display name. -/
def formattedName : PropertyClass := text.specialise "FormattedName" (some "FN")

/-- The software that made the card. -/
def productId : PropertyClass :=
  { text.specialise "ProductId" (some "PRODID") with versions := [.v3_0, .v4_0] }

/-- The e-mail software of the person. -/
def mailer : PropertyClass :=
  { text.specialise "Mailer" (some "MAILER") with versions := [.v2_1, .v3_0] }

/-- The kind of thing that the card is about. -/
def kind : PropertyClass := { text.specialise "Kind" (some "KIND") with versions := [.v4_0] }

/-- A member of the group that the card is about. -/
def member : PropertyClass :=
  { text.specialise "Member" (some "MEMBER") with versions := [.v4_0], membership := true }

/-- Properties of any name. -/
def extension : PropertyClass :=
  { text.specialise "RawProperty" none with shape := .extension }

end PropertyClass

/-- A resource: nothing, a URL or bytes. -/
inductive Resource where
  | absent
  | url (s : String)
  | data (bytes : List UInt8)
  deriving DecidableEq

namespace Resource

def url? : Resource → Option String
  | .url s => some s
  | _ => none

def data? : Resource → Option (List UInt8)
  | .data bytes => some bytes
  | _ => none

/-- Links to a URL, which drops the bytes; with no URL given, only a link is dropped. -/
def setUrl (r : Resource) : Option String → Resource
  | some s => .url s
  | none => if r.url?.isSome then .absent else r

/-- Embeds what a value has for bytes, which drops the URL; with null given, only bytes are
dropped. -/
def setData (r : Resource) : Value → Except Fault Resource
  | .null => .ok (if r.data?.isSome then .absent else r)
  | v => v.toBytes.map .data

end Resource

/-- What a property holds. -/
inductive Content where
  | plain
  | binary (resource : Resource) (contentType : Option MediaType)
  | text (value : Option String)
  | extension (value : Option String) (dataType : Option DataType)
  /-- A value that is no text in the place of one. -/
  | foreign (value : Value)

/-- A property of a card. -/
structure Property where
  cls : PropertyClass
  name : Option String
  group : Option String
  qname : Option String
  parameters : Parameters
  content : Content

namespace Property

/-! ### Making properties -/

/-- A property with the given content and nothing else. -/
def ofContent (c : PropertyClass) (content : Content) : Property :=
  ⟨c, c.name, none, none, .empty, content⟩

/-- A binary property. -/
def ofResource (c : PropertyClass) (r : Resource) (contentType : Option MediaType) : Property :=
  ofContent c (.binary r contentType)

/-- A text property. -/
def ofText (c : PropertyClass) (value : Option String) : Property := ofContent c (.text value)

/-- A text property that holds what a setting says. -/
def ofValue (c : PropertyClass) : Value → Property
  | .null => ofText c none
  | .text s => ofText c (some s)
  | v => ofContent c (.foreign v)

/-- An extension property, whose name is kept in upper case. -/
def ofExtension (name : String) (value : Option String) (dataType : Option DataType) : Property :=
  { ofContent .extension (.extension value dataType) with name := some (toUpper name) }

/-- A property of class `c` that holds `value`: the constructor that suits the shape of the class,
if it is one that holds a text. -/
def ofTextLike (c : PropertyClass) (value : String) : Property :=
  match c.shape with
  | .plain | .binary => ofContent c .plain
  | .text => ofText c (some value)
  | .extension => ofContent c (.extension (some value) none)

/-! ### Parts, which not every property has -/

/-- The URL of a resource. -/
def url (p : Property) : Except Fault (Option String) :=
  match p.content with
  | .binary r _ => .ok r.url?
  | _ => .error .missingPart

/-- The bytes of a resource. -/
def data (p : Property) : Except Fault (Option (List UInt8)) :=
  match p.content with
  | .binary r _ => .ok r.data?
  | _ => .error .missingPart

/-- The resource. -/
def resource (p : Property) : Except Fault Resource :=
  match p.content with
  | .binary r _ => .ok r
  | _ => .error .missingPart

/-- The content type of a resource. -/
def contentType (p : Property) : Except Fault (Option MediaType) :=
  match p.content with
  | .binary _ t => .ok t
  | _ => .error .missingPart

/-- The text that the property holds. -/
def value (p : Property) : Except Fault (Option String) :=
  match p.content with
  | .text v | .extension v _ => .ok v
  | .foreign _ => .error .wrongKind
  | _ => .error .missingPart

/-- What the property holds in the place of a text. -/
def heldValue (p : Property) : Except Fault Value :=
  match p.content with
  | .text v | .extension v _ => .ok (.ofOption v)
  | .foreign v => .ok v
  | _ => .error .missingPart

/-- The data type that an extension property brings along. -/
def dataType (p : Property) : Except Fault (Option DataType) :=
  match p.content with
  | .extension _ d => .ok d
  | _ => .error .missingPart

/-! ### Changing parts -/

/-- Links a binary property to a URL. -/
def setUrl (p : Property) (s : Option String) : Property :=
  match p.content with
  | .binary r t => { p with content := .binary (r.setUrl s) t }
  | _ => p

/-- Embeds bytes in a binary property. -/
def setData (p : Property) (v : Value) : Except Fault Property :=
  match p.content with
  | .binary r t => (r.setData v).map fun r ↦ { p with content := .binary r t }
  | _ => .ok p

def setContentType (p : Property) (t : Option MediaType) : Property :=
  match p.content with
  | .binary r _ => { p with content := .binary r t }
  | _ => p

def setValue (p : Property) (v : Option String) : Property :=
  match p.content with
  | .text _ => { p with content := .text v }
  | .extension _ d => { p with content := .extension v d }
  | _ => p

/-! ### Questions -/

/-- Whether the property may stand on a card of this version. -/
def isSupportedBy (p : Property) (v : Version) : Bool := p.cls.versions.contains v

/-- Whether the property is one of the class. -/
def isOf (p : Property) (c : PropertyClass) : Bool := p.cls.isWithin c

/-- Whether a KIND property says that the card is about `what`. -/
def isKind (p : Property) (what : String) : Except Fault Bool :=
  if p.isOf .kind then p.value.map fun v ↦ v.elim false fun s ↦ toLower s == what
  else .error .missingPart

/-- The URI of a member. -/
def uri (p : Property) : Except Fault (Option String) :=
  if p.isOf .member then p.value else .error .missingPart

/-- The property as messages show it. -/
def shown (p : Property) : Except Fault String :=
  match p.content with
  | .plain => .ok ("<" ++ p.cls.label ++ ">")
  | .binary r t =>
    let what := match r with
      | .absent => "empty"
      | .url s => "url=" ++ quoted s
      | .data bytes => toString bytes.length ++ " bytes"
    .ok ("<" ++ p.cls.label ++ " " ++ what ++ " content_type=" ++
      t.elim "None" MediaType.shown ++ ">")
  | .text v => .ok ("<" ++ p.cls.label ++ " " ++ quotedOption v ++ ">")
  | .extension v _ =>
    .ok ("<" ++ p.cls.label ++ " " ++ p.name.getD "None" ++ " " ++ quotedOption v ++ ">")
  | .foreign v => v.shown.map fun s ↦ "<" ++ p.cls.label ++ " " ++ s ++ ">"

end Property

end ContactCard
