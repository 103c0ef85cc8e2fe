import ContactCard.Error

/-!
# Definitions of settings

A definition says what a setting holds while nobody has set it: a default, or a factory that computes
one from the settings, whose result may be kept as the default from then on. It may also name a
validator, which checks and converts every value the setting is given.

A setting may be defined again with the same kind, default and factory; nothing changes then.
-/

namespace ContactCard

open Text

/-! ### Factories -/

/-- A question to settings: the value of a key, or else `fallback` unless that is null. A key that is
neither set nor defined is refused if it is required. -/
structure Request where
  key : Value
  fallback : Value
  required : Bool

/-- Asks for a setting that must be set or defined. -/
def Request.ofName (name : String) : Request := ⟨.text name, .null, true⟩

/-- A computation that reads settings. -/
inductive Computation where
  /-- Ends with a value, or with a refusal. -/
  | done (outcome : Except Error Value)
  /-- Goes on with everything that is set. -/
  | inspect (next : OrderedMap String Value → Computation)
  /-- Looks a setting up and goes on with its value, or with why there is none. -/
  | look (r : Request) (next : Except Error Value → Computation)

/-- How a default is computed. -/
inductive Factory where
  /-- A fixed text. -/
  | constant (s : String)
  /-- The value of another setting. -/
  | setting (name : String)
  /-- The name of this library, for the PRODID property. -/
  | productName
  /-- The empty map of prefixes. -/
  | noPrefixes
  /-- Any other computation, which is told from others by its number. -/
  | computed (number : Nat) (steps : Computation)

namespace Factory

/-- What the factory does. -/
def steps : Factory → Computation
  | .constant s => .done (.ok (.text s))
  | .setting name => .look (.ofName name) .done
  | .productName => .done (.ok (.text "vcardio 0.1.0"))
  | .noPrefixes => .done (.ok (.map []))
  | .computed _ steps => steps

/-- Whether two factories are one and the same. -/
def same : Factory → Factory → Bool
  | .constant s, .constant t => s == t
  | .setting name, .setting other => name == other
  | .productName, .productName => true
  | .noPrefixes, .noPrefixes => true
  | .computed i _, .computed j _ => i == j
  | _, _ => false

/-- Whether two definitions differ in their factories. -/
def differs : Option Factory → Option Factory → Bool
  | none, none => false
  | some f, some g => !f.same g
  | _, _ => true

@[simp] theorem same_self (f : Factory) : f.same f = true := by
  cases f <;> first | rfl | exact beq_self_eq_true _

@[simp] theorem differs_self (f? : Option Factory) : differs f? f? = false := by
  cases f? with
  | none => rfl
  | some f => rw [differs, same_self, Bool.not_true]

end Factory

/-! ### Validators -/

/-- A check and conversion of values. -/
inductive Validator where
  | boolean
  | positive
  | stringList
  /-- Integers from `start` up to but not including `stop`. -/
  | range (start stop : Int)
  /-- Any other check. -/
  | custom (check : Value → Except Error Value)

namespace Validator

/-- Reads a spelling of a truth value. -/
def booleanOfText (s : String) : Except Error Value :=
  let word := toLower (strip s)
  if ["1", "yes", "true", "on"].contains word then .ok (.bool true)
  else if ["0", "no", "false", "off"].contains word then .ok (.bool false)
  else .error (.badBoolean s)

/-- The parts of a list of characters between commas. -/
def splitAtCommas : List Char → List (List Char)
  | [] => [[]]
  | c :: rest =>
    match c, splitAtCommas rest with
    | ',', parts => [] :: parts
    | c, part :: parts => (c :: part) :: parts
    | c, [] => [[c]]

/-- The value that a setting with this validator takes on when it is given `v`. -/
def apply : Validator → Value → Except Error Value
  | .boolean, .text s => booleanOfText s
  | .boolean, v => .ok (.bool v.isTruthy)
  | .positive, v => do
    let i ← Fault.lift v.toInt
    if i ≤ 0 then throw .positiveRequired
    return .int i
  | .stringList, .list items => do
    let texts ← items.mapM fun v ↦ Fault.lift v.toText
    return .list (texts.map fun s ↦ .text (strip s))
  | .stringList, .text s =>
    .ok (.list ((splitAtCommas s.toList).map fun part ↦ .text (strip (String.ofList part))))
  | .stringList, _ => .error .badStringList
  | .range start stop, v => do
    let i ← Fault.lift v.toInt
    if start ≤ i ∧ i < stop then return .int i
    throw (.outsideRange start stop)
  | .custom check, v => check v

end Validator

/-! ### Definitions -/

/-- The definition of one setting. A null default counts as none. -/
structure Definition where
  name : String
  kind : String
  default : Value
  factory : Option Factory
  cached : Bool
  doc : Option String
  validator : Option Validator

/-- The factory that is asked for a default, if the definition has none. -/
def Definition.pending? (d : Definition) : Option Factory :=
  match d.default with
  | .null => d.factory
  | _ => none

namespace Definition

variable {d : Definition}

theorem pending?_of_ne_null (h : d.default ≠ .null) : d.pending? = none := by
  rw [pending?]
  split
  · next hnull => exact absurd hnull h
  · rfl

theorem default_of_pending? {f : Factory} (h : d.pending? = some f) :
    d.default = .null ∧ d.factory = some f := by
  rw [pending?] at h
  split at h
  · next hnull => exact ⟨hnull, h⟩
  · exact absurd h nofun

end Definition

/-- The definitions of all settings. -/
structure Definitions where
  table : OrderedMap String Definition

namespace Definitions

def get? (ds : Definitions) (name : String) : Option Definition := ds.table.get? name

/-- What a second definition of a setting must have in common with the first. -/
def conflict? (d e : Definition) : Option SettingAspect :=
  if d.kind ≠ e.kind then some .kind
  else if d.default.differs e.default then some .default
  else if Factory.differs d.factory e.factory then some .factory
  else none

/-- Defines a setting. -/
def define (ds : Definitions) (d : Definition) : Except Error Definitions :=
  match ds.get? d.name with
  | none => .ok ⟨ds.table.insert d.name d⟩
  | some e =>
    match conflict? e d with
    | some aspect => .error (.conflictingSetting aspect)
    | none => .ok ds

section Define

variable {ds ds' : Definitions} {d e : Definition}

theorem define_of_get?_eq_none (h : ds.get? d.name = none) :
    ds.define d = .ok ⟨ds.table.insert d.name d⟩ := by
  rw [define, h]

theorem define_of_get? (h : ds.get? d.name = some e) :
    ds.define d =
      (conflict? e d).elim (.ok ds) fun aspect ↦ .error (.conflictingSetting aspect) := by
  rw [define, h]
  dsimp only
  cases conflict? e d <;> rfl

/-- Defining a setting adds its definition if there is none, and is all that it does. -/
theorem get?_of_define (h : ds.define d = .ok ds') (name : String) :
    ds'.get? name = ds.get? name ∨ name = d.name ∧ ds.get? name = none ∧ ds'.get? name = some d := by
  cases hget : ds.get? d.name with
  | some e =>
    rw [define_of_get? hget] at h
    cases hconflict : conflict? e d with
    | some aspect => exact absurd (hconflict ▸ h) nofun
    | none =>
      rw [hconflict] at h
      exact .inl (Except.ok.inj h ▸ rfl)
  | none =>
    rw [define_of_get?_eq_none hget] at h
    obtain rfl := Except.ok.inj h
    by_cases hname : name = d.name
    · subst hname
      exact .inr ⟨rfl, hget, OrderedMap.get?_insert_self _ _ _⟩
    · exact .inl (OrderedMap.get?_insert_of_ne hname _ _)

end Define

/-- Keeps a computed value as the default from then on. -/
def remember (ds : Definitions) (d : Definition) (v : Value) : Definitions :=
  ⟨ds.table.insert d.name { d with default := v }⟩

/-- All definitions, sorted by name. -/
def sorted (ds : Definitions) : List Definition :=
  ds.table.values.mergeSort fun d e ↦ !decide (e.name < d.name)

/-- The definitions in a list, where a later one of two with the same name counts. -/
def ofList (definitions : List Definition) : Definitions :=
  ⟨.ofList (definitions.map fun d ↦ (d.name, d))⟩

/-- The settings of the document writers. -/
def standard : Definitions :=
  .ofList [
    { name := "add_prodid", kind := "bool", default := .bool true, factory := none,
      cached := false, validator := some .boolean,
      doc := some "Replace any PRODID property of a written vCard with one\nidentifying this library." },
    { name := "prodid_name", kind := "str", default := .null, factory := some .productName,
      cached := true, validator := none,
      doc := some "The PRODID value used when `add_prodid` is set." },
    { name := "xml_indent", kind := "int", default := .int (-1), factory := none,
      cached := false, validator := some (.range (-1) 17),
      doc := some "Indentation width of the xCard output, -1 for no\nindentation." },
    { name := "xml_extra_prefixes", kind := "dict", default := .null, factory := some .noPrefixes,
      cached := false, validator := none,
      doc := some "Namespace to prefix mapping for foreign namespaces in xCard\noutput." }]

end Definitions

end ContactCard
