import ContactCard.Value

/-!
# Errors

Why an operation of the library is refused. An error is its cause; `Error.message?` is the one place
where causes are put into words. A fault of a basic operation is passed on without words, and so is a
cause that names something which cannot be written.
-/

namespace ContactCard

open Text

/-- What differs between two definitions of one setting. -/
inductive SettingAspect where
  | kind
  | default
  | factory
  deriving DecidableEq

/-- The cause of a refusal. -/
inductive Error where
  /-- A basic operation failed. -/
  | fault (f : Fault)
  /-- Not a base64 data URI; `shown` is its beginning as messages show it. -/
  | notDataUri (shown : String)
  /-- A parameter without a value. -/
  | noParameterValue
  /-- A preference outside 1 to 100. -/
  | preferenceRange
  /-- A setting that is neither set nor defined. -/
  | unknownSetting (key : Value)
  /-- A setting is defined a second time and differs from the first. -/
  | conflictingSetting (aspect : SettingAspect)
  | badStringList
  | positiveRequired
  | badBoolean (s : String)
  /-- An integer that is not in the half-open range. -/
  | outsideRange (start stop : Int)
  /-- Something that is not a property was to be put on a card. -/
  | propertyRequired (shown : String)
  /-- Something that is not an XML element was to be read as one. -/
  | elementRequired
  /-- Something that is not an HTML element was to be read as one. -/
  | htmlElementRequired
  | noHtmlElement
  /-- An HTML element other than an object where one is needed. -/
  | objectRequired (tag : String)
  | noDataAttribute
  /-- None of the value elements of these data types is there. -/
  | missingValueElement (expected : List (Option DataType))
  /-- An element whose name has no namespace. -/
  | unqualifiedElement (name : String)
  /-- Another namespace was to get the prefix reserved for that of XML. -/
  | reservedPrefix
  /-- Something that is not a codec was to be registered as one. -/
  | codecRequired

instance : Coe Fault Error := ⟨Error.fault⟩

namespace Error

/-- A data type inside a message, in angle brackets. -/
def bracketed (d : Option DataType) : String := "<" ++ d.elim "None" DataType.name ++ ">"

/-- The words for an error. -/
def message? : Error → Option String
  | .fault _ => none
  | .notDataUri shown => some ("Not a data URI: " ++ shown)
  | .noParameterValue => some "Parameter value cannot be None"
  | .preferenceRange => some "PREF must be in the 1-100 range"
  | .unknownSetting key => key.shown.toOption
  | .conflictingSetting .kind => some "Setting duplicate, with a different type"
  | .conflictingSetting .default => some "Setting duplicate, with a different default"
  | .conflictingSetting .factory => some "Setting duplicate, with a different factory"
  | .badStringList => some "Bad string list"
  | .positiveRequired => some "Positive number required"
  | .badBoolean s => some ("Bad boolean value: " ++ quoted s)
  | .outsideRange start stop =>
    if Integer.isWritable start && Integer.isWritable stop then
      some ("Not in <" ++ toString start ++ "," ++ toString stop ++ ") range")
    else none
  | .propertyRequired shown => some ("VCardProperty required, got " ++ shown)
  | .elementRequired => some "ElementTree.Element required"
  | .htmlElementRequired => some "bs4 Tag required"
  | .noHtmlElement => some "No HTML element found"
  | .objectRequired tag => some ("Cannot parse <" ++ tag ++ "> tag (<object> tag expected).")
  | .noDataAttribute => some "<object> tag does not have a \"data\" attribute."
  | .missingValueElement expected =>
    some ("Property value empty (missing expected value element: " ++
      ", ".intercalate (expected.map bracketed) ++ ").")
  | .unqualifiedElement name => some ("Element with no namespace: " ++ quoted name)
  | .reservedPrefix => some "Cannot change 'xml' prefix meaning"
  | .codecRequired => some "Not a VCardPropertyScribe class"

/-- Whether the error says that a key has no value. -/
def isMissingKey : Error → Bool
  | .unknownSetting _ | .fault .missingKey => true
  | _ => false

/-- Whether the error says that settings refer to one another in a circle. -/
def isCircular : Error → Bool
  | .fault .circularDefault => true
  | _ => false

/-- Whether the error says that a value cannot be read, so that only its property is lost. -/
def isUnreadable : Error → Bool
  | .objectRequired _ | .noDataAttribute | .missingValueElement _ => true
  | _ => false

end Error

/-- Passes on a fault as an error. -/
def Fault.lift {α : Type} (x : Except Fault α) : Except Error α := x.mapError .fault

theorem Fault.eq_ok_of_lift_eq_ok {α : Type} {x : Except Fault α} {a : α} (h : lift x = .ok a) :
    x = .ok a := by
  cases x with
  | error f =>
    have hfault : Except.error (Error.fault f) = Except.ok a := h
    exact absurd hfault (by simp)
  | ok b => exact congrArg Except.ok (Except.ok.inj h)

/-- What succeeds succeeds step by step. -/
theorem exists_of_bind_eq_ok {ε α β : Type} {x : Except ε α} {f : α → Except ε β} {b : β}
    (h : x >>= f = .ok b) : ∃ a, x = .ok a ∧ f a = .ok b := by
  cases x with
  | error e => exact absurd h (by simp [Bind.bind, Except.bind])
  | ok a => exact ⟨a, rfl, h⟩

end ContactCard
