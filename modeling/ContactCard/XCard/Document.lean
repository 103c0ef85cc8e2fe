import ContactCard.Card
import ContactCard.Codec.Registry
import ContactCard.Settings.Basic
import ContactCard.XCard.ParametersElement
import ContactCard.Xml.Writer

/-!
# xCard documents

An xCard document holds any number of cards, each as an element below a common root. A property of a
card goes through three stages: it may be dropped, it is put with the properties of its group, and
it is written as an element. Whenever a property does not make it into the document there is a
warning, but for a PRODID property that one of the document's own stands in for.

A card that cannot be written leaves the root as it was; the warnings up to the failure are kept.
-/

namespace ContactCard

open Text Xml

/-- An xCard document under construction. -/
structure XCardDocument where
  registry : Registry
  definitions : Definitions
  settings : Settings
  /-- Whether the PRODID properties of cards are replaced by one that names this library. -/
  replacesProductId : Bool
  /-- The elements of the cards, in the order in which they were added. -/
  cards : List Element
  /-- The warnings about the card that was added last. -/
  warnings : List String

namespace XCardDocument

/-- The version of all cards in xCard documents. -/
def version : Version := .v4_0

/-- A name in the namespace of xCard. -/
def qualified (name : String) : String := PropertyElement.qualified version name

/-- A document without cards. -/
def new (definitions : Definitions) (settings : Settings) : Except Error XCardDocument := do
  let (definitions, v) ← settings.read definitions (.text "add_prodid")
  return ⟨.standard, definitions, settings, v.isTruthy, [], []⟩

/-- The root element. -/
def root (d : XCardDocument) : Element :=
  { Element.bare (qualified "vcards") [] with children := d.cards }

/-! ### Dropping properties -/

/-- The properties of groups, in the order of the first property of each. -/
abbrev Groups := OrderedMap (Option String) (List Property)

/-- Adds a property to its group. -/
def putInGroup (groups : Groups) (group : Option String) (p : Property) : Groups :=
  groups.insert group ((groups.get? group).getD [] ++ [p])

/-- The warning about a card without a name. -/
def noNameWarning : String :=
  "vCard version " ++ version.toText ++ " requires that a formatted name be defined."

/-- The warning about a property that the version does not have. -/
def unsupportedWarning (p : Property) : String :=
  "The " ++ p.name.getD "None" ++ " property is not supported by xCard (vCard version " ++
    version.toText ++ ") and will not be added to the xCard. Supported versions are [" ++
    ", ".intercalate (p.cls.versions.map Version.toText) ++ "]"

/-- The warning about a member of something that is no group. -/
def strayMemberWarning : String :=
  "The value of KIND must be set to \"group\" in order to add MEMBERs to the vCard."

/-- What becomes of a property before it is written. -/
inductive Fate where
  | kept
  | replaced
  | dropped (warning : String)
  deriving DecidableEq

/-- What becomes of a property of a card that is about a group or not. -/
def fate (replacesProductId isGroup : Bool) (p : Property) : Fate :=
  if replacesProductId && p.isOf .productId then .replaced
  else if !p.isSupportedBy version then .dropped (unsupportedWarning p)
  else if p.cls.membership && !isGroup then .dropped strayMemberWarning
  else .kept

/-- The warning that goes with a fate. -/
def Fate.warning? : Fate → Option String
  | .dropped w => some w
  | _ => none

/-- The warnings about the properties of a card before they are written. -/
def filterWarnings (replacesProductId : Bool) (ps : List Property) : List String :=
  let missing := if ps.any fun p ↦ p.isOf .formattedName then [] else [noNameWarning]
  let isGroup := Card.describesGroup ps
  missing ++ ps.filterMap fun p ↦ (fate replacesProductId isGroup p).warning?

/-- The properties of a card that are to be written. -/
def keptProperties (replacesProductId : Bool) (ps : List Property) : List Property :=
  let isGroup := Card.describesGroup ps
  ps.filter fun p ↦ fate replacesProductId isGroup p = .kept

/-- The properties in their groups. -/
def grouped (ps : List Property) : Groups :=
  ps.foldl (fun groups p ↦ putInGroup groups p.group p) ∅

/-! ### Writing properties -/

/-- The tag of the element of a property. -/
def propertyTag (p : Property) : Except Fault String :=
  match p.qname, p.name with
  | some q, name =>
    if q.isEmpty then name.elim (.error .missingPart) fun n ↦ .ok (qualified (toLower n))
    else .ok q
  | none, some n => .ok (qualified (toLower n))
  | none, none => .error .missingPart

/-- The warning about a property that is left out. -/
def omittedWarning (p : Property) (reason : String) : String :=
  p.name.getD "None" ++ " property will not be marshalled: " ++ reason

/-- The warning about a property that holds a card. -/
def embeddedWarning (p : Property) : String :=
  omittedWarning p "xCard does not support embedded vCards."

/-- The element of a property, or else the warning about it. -/
def propertyElement (r : Registry) (p : Property) : Except Fault (Except String Element) := do
  let codec ← r.codecOfProperty p
  let tag ← propertyTag p
  let ps := (← codec.prepareParameters p version).remove "value"
  let bare := Element.bare tag []
  let element := if ps.isEmpty then bare else bare.append (ps.toElement version)
  match ← codec.writeXml p ⟨element, version⟩ with
  | .emit e => return .ok e
  | .omit reason => return .error (omittedWarning p reason)
  | .unsupported _ => return .error (embeddedWarning p)

/-- The elements of properties and the warnings about them, up to the first that cannot be
written. -/
def propertyElements (r : Registry) :
    List Property → List Element × List String × Except Fault Unit
  | [] => ([], [], .ok ())
  | p :: rest =>
    match propertyElement r p with
    | .error f => ([], [], .error f)
    | .ok outcome =>
      let (elements, warnings, result) := propertyElements r rest
      match outcome with
      | .ok e => (e :: elements, warnings, result)
      | .error w => (elements, w :: warnings, result)

/-- The element of a group with the given children. -/
def groupElement (name : String) (children : List Element) : Element :=
  { Element.bare (qualified "group") [("name", name)] with children := children }

/-- What stands in the element of a card for a group: the element of the group, or the elements of
properties without one. -/
def groupElements (group : Option String) (children : List Element) : List Element :=
  match group with
  | none => children
  | some name => [groupElement name children]

/-- The children of the element of a card and the warnings about its properties, up to the first that
cannot be written. The elements of properties without a group and those of groups stand in the order
of the groups. -/
def cardElements (r : Registry) :
    List (Option String × List Property) → List Element × List String × Except Fault Unit
  | [] => ([], [], .ok ())
  | (group, ps) :: rest =>
    let (children, warnings, result) := propertyElements r ps
    match result with
    | .error f => ([], warnings, .error f)
    | .ok () =>
      let (elements, moreWarnings, result) := cardElements r rest
      (groupElements group children ++ elements, warnings ++ moreWarnings, result)

/-! ### Adding cards -/

/-- The properties that are written for a card, in their groups. -/
def plan (d : XCardDocument) (ps : List Property) : Except Error (Definitions × Groups) := do
  let groups := grouped (keptProperties d.replacesProductId ps)
  if d.replacesProductId then
    let (definitions, v) ← d.settings.read d.definitions (.text "prodid_name")
    return (definitions, putInGroup groups none (.ofValue .productId v))
  return (d.definitions, groups)

/-- Adds the card with these properties to the document and gives its element. -/
def add (d : XCardDocument) (ps : List Property) : XCardDocument × Except Error Element :=
  let dropped := filterWarnings d.replacesProductId ps
  match d.plan ps with
  | .error e => ({ d with warnings := dropped }, .error e)
  | .ok (definitions, groups) =>
    let (children, omitted, result) := cardElements d.registry groups.entries
    let d := { d with definitions := definitions, warnings := dropped ++ omitted }
    match result with
    | .error f => (d, .error (.fault f))
    | .ok () =>
      let e := { Element.bare (qualified "vcard") [] with children := children }
      ({ d with cards := d.cards ++ [e] }, .ok e)

/-! ### Writing documents -/

/-- The indentation that a value describes. -/
def indentationOf : Value → Except Fault Int
  | .int i => .ok i
  | .bool b => .ok (if b then 1 else 0)
  | _ => .error .wrongKind

/-- The indentation that is asked for, or else that of the settings. -/
def indentation (d : XCardDocument) : Option Int → Except Error (Definitions × Int)
  | some i => .ok (d.definitions, i)
  | none => do
    let (definitions, v) ← d.settings.read d.definitions (.text "xml_indent")
    return (definitions, ← Fault.lift (indentationOf v))

/-- A writer that knows the prefixes of the settings. -/
def writer (d : XCardDocument) (definitions : Definitions) :
    Except Error (Definitions × Writer) := do
  let (definitions, v) ← d.settings.read definitions (.text "xml_extra_prefixes")
  return (definitions, ← Writer.ofValue version.xmlNamespace? v)

/-- The text of the document, and what is known about the settings after it was written. -/
def text (d : XCardDocument) (indent : Option Int) : Except Error (Definitions × String) := do
  let (definitions, indent) ← d.indentation indent
  let (definitions, writer) ← d.writer definitions
  return (definitions, ← (writer.writeDocument d.root indent "utf-8").1)

/-- Writes the document, with the indentation of the settings if none is given. -/
def write (d : XCardDocument) (indent : Option Int) : XCardDocument × Except Error String :=
  match d.text indent with
  | .ok (definitions, s) => ({ d with definitions := definitions }, .ok s)
  | .error e => (d, .error e)

/-- Writes the document as bytes. -/
def writeBytes (d : XCardDocument) (indent : Option Int) :
    XCardDocument × Except Error (List UInt8) :=
  let (d, s) := d.write indent
  (d, s.map fun s ↦ s.toUTF8.toList)

/-- Writes the document as the bytes of a file, whose directory must exist. -/
def writeFile (d : XCardDocument) (indent : Option Int) (directoryExists : Bool) :
    XCardDocument × Except Error (List UInt8) :=
  let (d, bytes) := d.writeBytes indent
  (d, if directoryExists then bytes else bytes.bind fun _ ↦ .error (.fault .noDirectory))

/-- Sets a setting. -/
def set (d : XCardDocument) (key v : Value) : XCardDocument × Except Error Unit :=
  match d.settings.set d.definitions key v with
  | .ok s => ({ d with settings := s }, .ok ())
  | .error e => (d, .error e)

end XCardDocument

end ContactCard
