import ContactCard.Base64
import ContactCard.Error

/-!
# Data URIs

A URI that holds its resource: `data:`, the media type, `;base64,` and the bytes in base64. The two
fixed parts are read without regard to case, the long s counting as an s; the media type ends at the
first marker, and whatever follows is decoded leniently.
-/

namespace ContactCard

open Text

/-- A resource with its media type. -/
structure DataUri where
  contentType : String
  data : List UInt8
  deriving DecidableEq

namespace DataUri

/-- Whether `c` stands for the lower-case character `p` of a fixed part. -/
def matchesLetter (p c : Char) : Bool := c == p || c == p.toUpper || (p == 's' && c == 'ſ')

/-- The rest of `cs` after a fixed part, if it begins with one. -/
def afterPart? : List Char → List Char → Option (List Char)
  | [], cs => some cs
  | _ :: _, [] => none
  | p :: ps, c :: cs => if matchesLetter p c then afterPart? ps cs else none

/-- What stands before the media type. -/
def scheme : List Char := "data:".toList

/-- What stands between the media type and the bytes. -/
def marker : List Char := ";base64,".toList

/-- The characters before the first marker and those after it. -/
def splitAtMarker? : List Char → Option (List Char × List Char)
  | [] => none
  | c :: cs =>
    match afterPart? marker (c :: cs) with
    | some rest => some ([], rest)
    | none => (splitAtMarker? cs).map fun (before, rest) ↦ (c :: before, rest)

/-- The data URI that the characters spell. -/
def ofChars? (cs : List Char) : Option DataUri := do
  let body ← afterPart? scheme cs
  let (contentType, payload) ← splitAtMarker? body
  return ⟨String.ofList contentType, Base64.decode (String.ofList payload)⟩

/-- Reads a data URI. The error shows the first forty characters. -/
def ofText (s : String) : Except Error DataUri :=
  match ofChars? s.toList with
  | some uri => .ok uri
  | none => .error (.notDataUri (quoted (String.ofList (s.toList.take 40))))

/-- Reads a data URI where there may be none. -/
def ofOption : Option String → Except Error DataUri
  | some s => ofText s
  | none => .error (.notDataUri "None")

/-- Writes a data URI. -/
def toText (uri : DataUri) : String :=
  "data:" ++ uri.contentType ++ ";base64," ++ Base64.encode uri.data

/-- The data URI as messages show it. -/
def shown (uri : DataUri) : String :=
  "<DataUri " ++ uri.contentType ++ " (" ++ toString uri.data.length ++ " bytes)>"

end DataUri

end ContactCard
