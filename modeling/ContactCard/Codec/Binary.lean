import ContactCard.Codec.Basic
import ContactCard.DataUri

/-!
# Codecs of binary properties

The codecs of properties that hold a resource. How a resource is written depends on the version: the
old versions embed it in base64, with the ENCODING parameter and the content type in the TYPE
parameter, and the last one as a data URI, of which the content type is a part. A URL is written as
it is, with the content type in the TYPE or the MEDIATYPE parameter.

Reading a text never fails: what is not marked as base64 in an old version is taken for a URL if it
looks like one and decoded as base64 otherwise, with a warning. A value in JSON is read if it has a
text.
-/

namespace ContactCard

open Text Xml

/-- How a version writes binary values. -/
structure BinaryPolicy where
  urlDataType : Option DataType
  embeddedDataType : Option DataType
  defaultDataType : Option DataType
  encoding : Option Encoding
  /-- Whether values are described by the TYPE and ENCODING parameters. -/
  isLegacy : Bool

namespace BinaryPolicy

/-- The policy of each version. -/
def of : Version → BinaryPolicy
  | .v2_1 => ⟨some .url, none, none, some .base64, true⟩
  | .v3_0 => ⟨some .uri, none, none, some .b, true⟩
  | .v4_0 => ⟨some .uri, some .uri, some .uri, none, false⟩

/-- The data type of a resource. -/
def dataType (b : BinaryPolicy) : Resource → Option DataType
  | .url _ => b.urlDataType
  | .data _ => b.embeddedDataType
  | .absent => b.defaultDataType

/-- The parameters that describe a resource: those that say something about another form of it are
removed, and those of its own form are set. -/
def describe (b : BinaryPolicy) (r : Resource) (t : Option MediaType) (ps : Parameters) :
    Parameters :=
  match r with
  | .absent => ps
  | .url _ =>
    let ps := ps.remove "encoding"
    if b.isLegacy then (ps.assign "type" (t.bind MediaType.token)).remove "mediatype"
    else ps.assign "mediatype" (t.bind MediaType.mediaType)
  | .data _ =>
    let ps := (ps.remove "mediatype").assign "encoding" (b.encoding.map Encoding.name)
    if b.isLegacy then ps.assign "type" (t.bind MediaType.token) else ps

end BinaryPolicy

/-- The media type of bytes of which nothing else is known. -/
def unknownMediaType : String := "application/octet-stream"

/-- The media type that a data URI names for a content type. -/
def embeddedMediaType (t : Option MediaType) : String :=
  match t.bind MediaType.mediaType with
  | none => unknownMediaType
  | some s => if s.isEmpty then unknownMediaType else s

/-- The text of a resource. -/
def encodeResource (b : BinaryPolicy) (t : Option MediaType) : Resource → String
  | .absent => ""
  | .url s => s
  | .data bytes =>
    if b.isLegacy then Base64.encode bytes else DataUri.toText ⟨embeddedMediaType t, bytes⟩

/-- The content type that the parameters name. -/
def describedContentType (b : BinaryPolicy) (k : MediaClass) (ps : Parameters) :
    Option MediaType :=
  if b.isLegacy then (ps.get? "type").map fun s ↦ Catalogs.standard.ofToken k (some s)
  else (ps.get? "mediatype").map fun s ↦ Catalogs.standard.ofMediaType k (some s)

/-- The content type of a media type. -/
def namedContentType (k : MediaClass) (mediaType : String) : MediaType :=
  Catalogs.standard.ofMediaType k (some mediaType)

/-- Whether a data type says that the value is a URL. -/
def isUrlDataType (d : Option DataType) : Bool := d.elim false fun d ↦ d.same .url || d.same .uri

/-- Whether a text looks like a URL. -/
def looksLikeUrl (s : String) : Bool := "http".toList.isPrefixOf s.toList

/-- The warning about a value that is decoded though nothing says that it is encoded. -/
def noEncodingWarning (name : Option String) : String :=
  name.getD "None" ++ " value has no base64 ENCODING parameter, decoding it as base64 anyway."

/-- Reads a value in one of the old versions. -/
def decodeLegacy (subject : Subject) (t : Option MediaType) (s : String) (d : Option DataType)
    (ps : Parameters) : Reading :=
  let make (r : Resource) : Property := .ofResource subject.target r t
  if isUrlDataType d then ⟨make (.url s), []⟩
  else if ps.encoding?.elim false Encoding.isBase64 then ⟨make (.data (Base64.decode s)), []⟩
  else if looksLikeUrl s then ⟨make (.url s), []⟩
  else ⟨make (.data (Base64.decode s)), [noEncodingWarning subject.name]⟩

/-- Reads a value in the last version: a data URI, or else a URL. -/
def decodeCurrent (subject : Subject) (k : MediaClass) (t : Option MediaType) (s : String) :
    Reading :=
  match DataUri.ofText s with
  | .ok uri =>
    ⟨.ofResource subject.target (.data uri.data) (some (namedContentType k uri.contentType)), []⟩
  | .error _ => ⟨.ofResource subject.target (.url s) t, []⟩

/-- Reads a value. -/
def decodeResource (k : MediaClass) (subject : Subject) (s : String) (d : Option DataType)
    (v : Version) (ps : Parameters) : Reading :=
  let b := BinaryPolicy.of v
  let t := describedContentType b k ps
  if b.isLegacy then decodeLegacy subject t s d ps else decodeCurrent subject k t s

/-- Reads an HTML element, which must be an object with data. -/
def decodeObject (k : MediaClass) (subject : Subject) (n : PropertyNode) :
    Except Error Reading := do
  if n.tagName ≠ "object" then throw (.objectRequired n.tagName)
  let s ← Fault.lift (n.absoluteUrl "data")
  if s.isEmpty then throw .noDataAttribute
  match DataUri.ofText s with
  | .ok uri =>
    let t := namedContentType k uri.contentType
    return ⟨.ofResource subject.target (.data uri.data) (some t), []⟩
  | .error _ =>
    let type := n.attr "type"
    let t := if type.isEmpty then none else some (namedContentType k type)
    return ⟨.ofResource subject.target (.url s) t, []⟩

namespace Format

/-- Writes the resource of a property. -/
def encodeBinary (p : Property) (v : Version) : Except Fault String := do
  let r ← p.resource
  let t ← p.contentType
  return encodeResource (.of v) t r

/-- The format of binary properties whose content types are of a class. In XML, the value is a URI in
every version. -/
def binary (k : MediaClass) : Format :=
  { perName := false
    defaultDataType := fun v ↦ (BinaryPolicy.of v).defaultDataType
    dataType := fun p v ↦ p.resource.map (BinaryPolicy.of v).dataType
    adjust := fun p v ps ↦ do
      let r ← p.resource
      let t ← p.contentType
      return (BinaryPolicy.of v).describe r t ps
    encode := encodeBinary
    decode := fun subject s d v ps ↦ .ok (decodeResource k subject (unescape s) d v ps)
    encodeXml := fun p e ↦ do
      let s ← encodeBinary p e.version
      return .emit (e.append (some .uri) (.text s)).element
    decodeXml := fun subject e ps ↦
      match e.first? (some .uri) with
      | none => .error (.missingValueElement [some .uri])
      | some s => .ok (decodeResource k subject s (some .uri) e.version ps)
    encodeJson := fun p ↦ (encodeBinary p .v4_0).map .single
    decodeJson := fun subject j d ps ↦
      (Fault.lift j.asSingle).map fun s ↦ decodeResource k subject s d .v4_0 ps
    decodeHtml := decodeObject k }

end Format

namespace Codec

/-- A codec for binary properties of a class. -/
def binary (label : String) (c : PropertyClass) (k : MediaClass) : Codec :=
  ⟨label, ⟨c, c.name⟩, .binary k⟩

def photo : Codec := binary "Photo" .photo .image

def logo : Codec := binary "Logo" .logo .image

def sound : Codec := binary "Sound" .sound .sound

end Codec

end ContactCard
