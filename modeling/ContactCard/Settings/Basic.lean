import ContactCard.Settings.Definition

/-!
# Settings

Values set under names, backed by the defaults of the definitions. A look-up finds the value that
was set; else the default that the caller brings along; else the default of the definition; else
what its factory computes. A key that is not a text is turned into one when a value is set, but not
when it is looked up.

Looking up may keep a computed default in the definitions, so the definitions are handed back along
with the value.
-/

namespace ContactCard

/-- Values set under names, in the order in which they were first set. -/
structure Settings where
  stored : OrderedMap String Value

namespace Settings

def empty : Settings := ⟨∅⟩

def keys (s : Settings) : List String := s.stored.keys

def values (s : Settings) : List Value := s.stored.values

def size (s : Settings) : Nat := s.stored.size

/-- The value set under a key. Only a text can be the name of a setting, and what cannot be a key
cannot be looked up. -/
def stored? (s : Settings) : Value → Except Error (Option Value)
  | .text k => .ok (s.stored.get? k)
  | key => if key.isHashable then .ok none else .error Fault.wrongKind

/-- Whether a value is set under the key. -/
def contains (s : Settings) (key : Value) : Except Error Bool :=
  (s.stored? key).map Option.isSome

/-! ### Looking up -/

/-- What a look-up comes to: the definitions, in which computed defaults may be kept, and a value or
the reason why there is none. -/
abbrev Finding := Definitions × Except Error Value

/-- Whether a look-up went round in a circle. -/
def isCircular : Except Error Value → Bool
  | .ok _ => false
  | .error e => e.isCircular

/-- Runs a computation on what is set, given how a request is answered. It may go on from any
refusal but that of settings that refer to one another in a circle. -/
def run (stored : OrderedMap String Value) (answer : Definitions → Request → Finding) :
    Computation → Definitions → Finding
  | .done outcome, ds => (ds, outcome)
  | .inspect next, ds => run stored answer (next stored) ds
  | .look r next, ds =>
    let (ds, outcome) := answer ds r
    if isCircular outcome then (ds, outcome) else run stored answer (next outcome) ds

/-- Answers a request, given how the default of a definition is found. -/
def answer (s : Settings) (default : Definitions → Definition → Finding) (ds : Definitions)
    (r : Request) : Finding :=
  match s.stored? r.key, r.fallback with
  | .error e, _ => (ds, .error e)
  | .ok (some v), _ => (ds, .ok v)
  | .ok none, .null =>
    match r.key.text?.bind ds.get? with
    | some d => default ds d
    | none => (ds, if r.required then .error (.unknownSetting r.key) else .ok .null)
  | .ok none, v => (ds, .ok v)

/-- Keeps the value that was computed for a definition, if it is one to be kept. -/
def keep (d : Definition) : Finding → Finding
  | (ds, .ok v) => (if d.cached then ds.remember d v else ds, .ok v)
  | (ds, .error e) => (ds, .error e)

/-- The default that a definition has or that its factory computes. A factory may need the defaults
of other settings, and each step along such a chain uses up fuel. -/
def defaultOf (s : Settings) : Nat → Definitions → Definition → Finding
  | 0, ds, d => (ds, d.pending?.elim (.ok d.default) fun _ ↦ .error Fault.circularDefault)
  | fuel + 1, ds, d =>
    match d.pending? with
    | none => (ds, .ok d.default)
    | some f => keep d (run s.stored (s.answer (s.defaultOf fuel)) f.steps ds)

/-- A chain that does not run in a circle is shorter than this. -/
def fuel (ds : Definitions) : Nat := ds.table.size + 1

/-- Looks a setting up. -/
def lookUp (s : Settings) (ds : Definitions) (r : Request) : Finding :=
  s.answer (s.defaultOf (fuel ds)) ds r

/-- The value of a setting, or else `fallback`, which takes precedence over the default of a
definition unless it is null. A required setting must be set or defined. -/
def get (s : Settings) (ds : Definitions) (key : Value) (fallback : Value) (required : Bool) :
    Except Error (Definitions × Value) :=
  let (ds, outcome) := s.lookUp ds ⟨key, fallback, required⟩
  outcome.map fun v ↦ (ds, v)

/-- The value of a setting that must be set or defined. -/
def read (s : Settings) (ds : Definitions) (key : Value) : Except Error (Definitions × Value) :=
  s.get ds key .null true

/-! ### Setting and unsetting -/

/-- Sets a value under a name, checked and converted by the validator of the definition. -/
def setName (s : Settings) (ds : Definitions) (name : String) (v : Value) : Except Error Settings :=
  match (ds.get? name).bind Definition.validator with
  | none => .ok ⟨s.stored.insert name v⟩
  | some check => (check.apply v).map fun w ↦ ⟨s.stored.insert name w⟩

/-- Sets a value under the text of a key. -/
def set (s : Settings) (ds : Definitions) (key v : Value) : Except Error Settings := do
  let name ← Fault.lift key.toText
  s.setName ds name v

/-- Sets the entries of a map one after the other, up to the first that is refused. -/
def setAll (s : Settings) (ds : Definitions) : List (Value × Value) → Settings × Except Error Unit
  | [] => (s, .ok ())
  | (key, v) :: rest =>
    match s.set ds key v with
    | .ok s => s.setAll ds rest
    | .error e => (s, .error e)

/-- New settings with the given entries. -/
def ofEntries (ds : Definitions) (entries : List (Value × Value)) : Except Error Settings :=
  let (s, outcome) := empty.setAll ds entries
  outcome.map fun _ ↦ s

/-- The entries, as values. -/
def entries (s : Settings) : List (Value × Value) :=
  s.stored.entries.map fun (k, v) ↦ (.text k, v)

/-- New settings with the values set in `s`, checked once more. -/
def copy (s : Settings) (ds : Definitions) : Except Error Settings := ofEntries ds s.entries

/-- Unsets a value. -/
def delete (s : Settings) (key : Value) : Except Error Settings := do
  match ← s.stored? key, key with
  | some _, .text k => return ⟨s.stored.erase k⟩
  | _, _ => throw (.fault .missingKey)

/-- Unsets a setting that was read, or answers with a default where it has no value. A setting that
has a default of its own can be read and not unset. -/
def takeOut (s : Settings) (key : Value) (default? : Option Value) :
    Except Error Value → Settings × Except Error Value
  | .ok v =>
    match s.delete key with
    | .ok s => (s, .ok v)
    | .error e => (s, .error e)
  | .error e =>
    match default? with
    | some v => (s, if e.isMissingKey then .ok v else .error e)
    | none => (s, .error e)

/-- Reads a setting and unsets it. -/
def pop (s : Settings) (ds : Definitions) (key : Value) (default? : Option Value) :
    Definitions × Settings × Except Error Value :=
  let (ds, outcome) := s.lookUp ds ⟨key, .null, true⟩
  (ds, s.takeOut key default? outcome)

theorem pop_snd (s : Settings) (ds : Definitions) (key : Value) (default? : Option Value) :
    (s.pop ds key default?).2 =
      s.takeOut key default? (s.lookUp ds ⟨key, .null, true⟩).2 := rfl

/-- Takes out the setting that was set first. -/
def popFirst (s : Settings) : Except Error (Settings × String × Value) :=
  match s.stored.entries with
  | [] => .error Fault.missingKey
  | (k, v) :: _ => .ok (⟨s.stored.erase k⟩, k, v)

/-- Sets a setting that was read to `v` if it has no value. The answer is then `v` as it was
given. -/
def fillIn (s : Settings) (ds : Definitions) (key v : Value) :
    Except Error Value → Settings × Except Error Value
  | .ok w => (s, .ok w)
  | .error e =>
    if e.isMissingKey then
      match s.set ds key v with
      | .ok s => (s, .ok v)
      | .error e => (s, .error e)
    else (s, .error e)

/-- Reads a setting, which is set to `v` first if it has no value. -/
def setDefault (s : Settings) (ds : Definitions) (key v : Value) :
    Definitions × Settings × Except Error Value :=
  let (ds, outcome) := s.lookUp ds ⟨key, .null, true⟩
  (ds, s.fillIn ds key v outcome)

theorem setDefault_snd (s : Settings) (ds : Definitions) (key v : Value) :
    (s.setDefault ds key v).2 =
      s.fillIn (s.lookUp ds ⟨key, .null, true⟩).1 key v (s.lookUp ds ⟨key, .null, true⟩).2 := rfl

/-- Equality of what is set, without regard to order. -/
def same (s t : Settings) : Bool := (Value.map s.entries).same (.map t.entries)

end Settings

end ContactCard
