import ContactCard.OrderedMap
import ContactCard.Text.Case
import ContactCard.Text.Quoted

/-!
# Content types

What kind of resource a binary property holds. vCard 2.1 and 3.0 name it by a short token such as
`JPEG`, vCard 4.0 by a media type such as `image/jpeg`; a content type carries both, and the usual
file extension. The well-known content types of a class stand in the catalog of that class, which
its specialisations do not share, and are found by any of the three parts without regard to case.
-/

namespace ContactCard

open Text

/-- A class of content types. -/
structure MediaClass where
  label : String
  deriving DecidableEq

namespace MediaClass

def base : MediaClass := ⟨"MediaTypeParameter"⟩

/-- The content types of photographs and logos. -/
def image : MediaClass := ⟨"ImageType"⟩

/-- The content types of sounds. -/
def sound : MediaClass := ⟨"SoundType"⟩

end MediaClass

/-- A content type. `catalogued` tells an entry of the catalog from a content type that was made for
one property. -/
structure MediaType where
  cls : MediaClass
  token : Option String
  mediaType : Option String
  extension : Option String
  catalogued : Bool
  deriving DecidableEq

namespace MediaType

/-- A content type outside the catalog. -/
def new (c : MediaClass) (token mediaType extension : Option String) : MediaType :=
  ⟨c, token, mediaType, extension, false⟩

/-- The part of the media type before the first slash. -/
def mainType? (m : MediaType) : Option String :=
  match m.mediaType with
  | none => none
  | some s =>
    if s.isEmpty then none else some (String.ofList (s.toList.takeWhile (· != '/')))

/-- The part of the media type after the first slash. -/
def subtype? (m : MediaType) : Option String :=
  match m.mediaType with
  | none => none
  | some s =>
    match s.toList.dropWhile (· != '/') with
    | [] => none
    | _ :: rest => some (String.ofList rest)

/-- Equality of content types: the three parts agree, whatever the classes. -/
def same (a b : MediaType) : Bool :=
  a.token == b.token && a.mediaType == b.mediaType && a.extension == b.extension

/-- The content type as messages show it. -/
def shown (m : MediaType) : String :=
  "<" ++ m.cls.label ++ " value=" ++ quotedOption m.token ++ " media_type=" ++
    quotedOption m.mediaType ++ ">"

/-- Whether a part is the wanted one; nothing wanted is met by any part. -/
def matchesPart : Option String → Option String → Bool
  | none, _ => true
  | some _, none => false
  | some wanted, some actual => toLower wanted == toLower actual

/-- Whether all wanted parts are those of `m`. -/
def meets (token mediaType extension : Option String) (m : MediaType) : Bool :=
  matchesPart token m.token && matchesPart mediaType m.mediaType &&
    matchesPart extension m.extension

end MediaType

/-- The catalogs of all classes. -/
structure Catalogs where
  entries : OrderedMap MediaClass (List MediaType)

namespace Catalogs

/-- The content types registered on exactly this class, the earliest first. -/
def catalog (c : Catalogs) (k : MediaClass) : List MediaType := (c.entries.get? k).getD []

/-- The catalog entry with the given parts. -/
def entry (k : MediaClass) (token mediaType extension : Option String) : MediaType :=
  ⟨k, token, mediaType, extension, true⟩

/-- Puts a content type at the end of the catalog of its class. -/
def register (c : Catalogs) (k : MediaClass) (token mediaType extension : Option String) :
    Catalogs :=
  ⟨c.entries.insert k (c.catalog k ++ [entry k token mediaType extension])⟩

/-- The earliest entry of the class that has all the wanted parts. Nothing is found if no part is
wanted. -/
def find? (c : Catalogs) (k : MediaClass) (token mediaType extension : Option String) :
    Option MediaType :=
  if token = none ∧ mediaType = none ∧ extension = none then none
  else (c.catalog k).find? (MediaType.meets token mediaType extension)

/-- The entry with the wanted parts, or else a new content type with just these. -/
def get (c : Catalogs) (k : MediaClass) (token mediaType extension : Option String) : MediaType :=
  (c.find? k token mediaType extension).getD (.new k token mediaType extension)

/-- The content type that a TYPE parameter names: the entry with this token; else, for a token with
a slash, the entry with this media type; else a new content type. -/
def ofToken (c : Catalogs) (k : MediaClass) (token : Option String) : MediaType :=
  let byMediaType :=
    if (token.getD "").toList.contains '/' then c.find? k none token none else none
  ((c.find? k token none none).or byMediaType).getD (.new k token none none)

/-- The content type that a MEDIATYPE parameter or a data URI names. -/
def ofMediaType (c : Catalogs) (k : MediaClass) (mediaType : Option String) : MediaType :=
  c.get k none mediaType none

/-- The content types that every card may use. -/
def standard : Catalogs :=
  let add (c : Catalogs) (k : MediaClass) (token mediaType extension : String) : Catalogs :=
    c.register k (some token) (some mediaType) (some extension)
  let images := [("GIF", "image/gif", "gif"), ("JPEG", "image/jpeg", "jpg"),
    ("PNG", "image/png", "png")]
  let sounds := [("AAC", "audio/aac", "aac"), ("MIDI", "audio/midi", "mid"),
    ("MP3", "audio/mp3", "mp3"), ("MPEG", "audio/mpeg", "mpeg"), ("MPEG4", "audio/mp4", "mp4"),
    ("OGG", "audio/ogg", "ogg"), ("WAV", "audio/wav", "wav")]
  let c := images.foldl (fun c (t, m, e) ↦ add c .image t m e) ⟨∅⟩
  sounds.foldl (fun c (t, m, e) ↦ add c .sound t m e) c

end Catalogs

end ContactCard
