import ContactCard.Text.Blank

/-!
# Versions of the vCard format

The three versions. Only the last one has an XML form, and only its predecessors describe binary
values by the TYPE and ENCODING parameters.
-/

namespace ContactCard

/-- A version of the vCard format. -/
inductive Version where
  | v2_1
  | v3_0
  | v4_0
  deriving DecidableEq

namespace Version

/-- All versions, the oldest first. -/
def all : List Version := [.v2_1, .v3_0, .v4_0]

/-- The version as the VERSION property names it. -/
def toText : Version → String
  | .v2_1 => "2.1"
  | .v3_0 => "3.0"
  | .v4_0 => "4.0"

/-- The version that a text names, blanks around it apart. -/
def ofText? (s : String) : Option Version :=
  all.find? fun v ↦ v.toText == Text.strip s

/-- The versions that describe binary values by the TYPE and ENCODING parameters. -/
def isLegacy (v : Version) : Bool := v != .v4_0

/-- The namespace of the XML form. -/
def xmlNamespace? : Version → Option String
  | .v4_0 => some "urn:ietf:params:xml:ns:vcard-4.0"
  | _ => none

/-- The version as messages show it. -/
def shown (v : Version) : String := "<VCardVersion " ++ v.toText ++ ">"

end Version

end ContactCard
