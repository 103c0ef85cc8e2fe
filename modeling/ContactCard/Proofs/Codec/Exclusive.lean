import ContactCard.Proofs.Codec.Binary

/-!
# Exclusive attributes

A property with a resource has an attribute for the URL and one for the bytes, and at most one of
them is set. Nothing in the attributes themselves keeps this up, and a conversion to bytes may be
refused in the middle of an assignment: it depends on what the statements of `setUrl` and `setData`
do and on their order. So the attributes are assigned to here statement by statement, for values of
every kind, and whatever is written looks at them one after the other.

`Leaves` says in terms of the history alone which form of a resource is there in the end. The
attributes after the history are those of that form, and all that is written is written for it
(`exclusive_attributes`). A `Resource` holds one form at most; as long as URLs are texts, properties
go along with their attributes.
-/

namespace ContactCard

/-- The attributes of a property with a resource. Null stands for no URL. -/
structure ResourceAttributes where
  url : Value
  data : Option (List UInt8)

namespace ResourceAttributes

def empty : ResourceAttributes := ⟨.null, none⟩

/-! ### Assignments -/

/-- Statements about attributes. A refusal ends them, and undoes nothing. -/
abbrev Statements := ExceptT Fault (StateM ResourceAttributes) Unit

/-- Sets the URL, which drops the bytes unless it is null. -/
def setUrl (v : Value) : Statements := do
  modify fun s ↦ { s with url := v }
  match v with
  | .null => return
  | _ => modify fun s ↦ { s with data := none }

/-- Sets the bytes to those of a value, which drops the URL; null has none. -/
def setData : Value → Statements
  | .null => modify fun s ↦ { s with data := none }
  | v => do
    let bytes ← ExceptT.mk (pure v.toBytes)
    modify fun s ↦ { s with url := .null }
    modify fun s ↦ { s with data := some bytes }

/-- What a new property does with its argument: bytes are embedded, and anything else is linked. -/
def make : Value → Statements
  | .null => return
  | .bytes bs => setData (.bytes bs)
  | v => setUrl v

/-- One of the attributes. -/
inductive Slot where
  | url
  | data
  deriving DecidableEq

structure Assignment where
  slot : Slot
  value : Value

/-- The statements of an assignment. -/
def Assignment.statements (a : Assignment) : Statements :=
  match a.slot with
  | .url => setUrl a.value
  | .data => setData a.value

/-- What comes of an assignment, and the attributes afterwards. -/
def assign (s : ResourceAttributes) (a : Assignment) : Except Fault Unit × ResourceAttributes :=
  a.statements.run.run s

/-- The attributes after assignments, some of which may have been refused. -/
def after (s : ResourceAttributes) (history : List Assignment) : ResourceAttributes :=
  history.foldl (fun s a ↦ (s.assign a).2) s

/-- The attributes of a new property. -/
def ofArgument (v : Value) : ResourceAttributes := ((make v).run.run empty).2

/-- The assignment that a new property makes of its argument. -/
def given : Value → List Assignment
  | .null => []
  | .bytes bs => [⟨.data, .bytes bs⟩]
  | v => [⟨.url, v⟩]

/-! ### Forms -/

/-- The form of a resource. A link may be to any value but null. -/
inductive Form where
  | absent
  | link (url : Value)
  | embedded (bytes : List UInt8)

/-- The attributes of a form. -/
def Form.attributes : Form → ResourceAttributes
  | absent => empty
  | link v => ⟨v, none⟩
  | embedded bytes => ⟨.null, some bytes⟩

/-- The form that an assignment brings about; none if null is assigned or the value refused. -/
def Assignment.form? : Assignment → Option Form
  | ⟨_, .null⟩ => none
  | ⟨.url, v⟩ => some (.link v)
  | ⟨.data, v⟩ => v.toBytes.toOption.map .embedded

/-- The attributes without what one of them holds. -/
def clear (s : ResourceAttributes) : Slot → ResourceAttributes
  | .url => { s with url := .null }
  | .data => { s with data := none }

variable {s : ResourceAttributes} {v : Value} {a : Assignment} {form : Form}

theorem assign_null (s : ResourceAttributes) (slot : Slot) :
    s.assign ⟨slot, .null⟩ = (.ok (), s.clear slot) := by
  cases slot <;> rfl

theorem assign_url (s : ResourceAttributes) (hv : v ≠ .null) :
    s.assign ⟨.url, v⟩ = (.ok (), ⟨v, none⟩) := by
  cases v with
  | null => exact absurd rfl hv
  | _ => rfl

theorem assign_data (s : ResourceAttributes) (hv : v ≠ .null) :
    s.assign ⟨.data, v⟩ = match v.toBytes with
      | .ok bytes => (.ok (), ⟨.null, some bytes⟩)
      | .error f => (.error f, s) := by
  have hset : setData v = (do
      let bytes ← ExceptT.mk (pure v.toBytes)
      modify fun s ↦ { s with url := .null }
      modify fun s ↦ { s with data := some bytes }) := by
    cases v with
    | null => exact absurd rfl hv
    | _ => rfl
  rw [assign, Assignment.statements, hset]
  cases v.toBytes <;> rfl

theorem Assignment.form?_url (hv : v ≠ .null) : form? ⟨.url, v⟩ = some (.link v) := by
  cases v with
  | null => exact absurd rfl hv
  | _ => rfl

theorem Assignment.form?_data (hv : v ≠ .null) :
    form? ⟨.data, v⟩ = v.toBytes.toOption.map .embedded := by
  cases v with
  | null => exact absurd rfl hv
  | _ => rfl

theorem Assignment.eq_of_form? (h : a.form? = some form) :
    (a.slot = .url ∧ form = .link a.value ∧ a.value ≠ .null) ∨
      a.slot = .data ∧ ∃ bytes, a.value.toBytes = .ok bytes ∧ form = .embedded bytes := by
  obtain ⟨slot, v⟩ := a
  have hv : v ≠ .null := by
    rintro rfl
    exact absurd h nofun
  cases slot with
  | url => exact .inl ⟨rfl, (Option.some.inj ((form?_url hv).symm.trans h)).symm, hv⟩
  | data =>
    rw [form?_data hv] at h
    obtain ⟨bytes, hbytes, rfl⟩ := Option.map_eq_some_iff.mp h
    cases hresult : v.toBytes with
    | ok bytes' =>
      rw [hresult] at hbytes
      exact .inr ⟨rfl, bytes', rfl, congrArg _ (Option.some.inj hbytes).symm⟩
    | error f =>
      rw [hresult] at hbytes
      exact absurd hbytes nofun

/-- An assignment brings about a form, or clears one attribute, or is refused and changes nothing.
-/
theorem assign_cases (s : ResourceAttributes) (a : Assignment) :
    (∃ form, a.form? = some form ∧ s.assign a = (.ok (), form.attributes)) ∨
    (a.value = .null ∧ a.form? = none ∧ s.assign a = (.ok (), s.clear a.slot)) ∨
    ∃ f, a.value.toBytes = .error f ∧ a.value ≠ .null ∧ a.form? = none ∧
      s.assign a = (.error f, s) := by
  obtain ⟨slot, v⟩ := a
  by_cases hv : v = .null
  · subst hv
    exact .inr (.inl ⟨rfl, rfl, assign_null s slot⟩)
  · cases slot with
    | url => exact .inl ⟨_, Assignment.form?_url hv, assign_url s hv⟩
    | data =>
      rw [assign_data s hv, Assignment.form?_data hv]
      cases v.toBytes with
      | ok bytes => exact .inl ⟨_, rfl, rfl⟩
      | error f => exact .inr (.inr ⟨f, rfl, hv, rfl, rfl⟩)

theorem assign_eq_ok_or_eq_self (s : ResourceAttributes) (a : Assignment) :
    (s.assign a).1 = .ok () ∨ (s.assign a).2 = s := by
  rcases assign_cases s a with ⟨_, -, h⟩ | ⟨-, -, h⟩ | ⟨f, -, -, -, h⟩
  · exact .inl (congrArg Prod.fst h)
  · exact .inl (congrArg Prod.fst h)
  · exact .inr (congrArg Prod.snd h)

theorem Form.attributes_exclusive (form : Form) :
    form.attributes.url = .null ∨ form.attributes.data = none := by
  cases form with
  | link v => exact .inr rfl
  | _ => exact .inl rfl

/-! ### Histories -/

/-- The last assignment in a history that brought about a form, and those after it. -/
structure IsLast (history : List Assignment) (a : Assignment) (form : Form)
    (later : List Assignment) : Prop where
  occurs : ∃ before, history = before ++ a :: later
  gives : a.form? = some form
  last : ∀ b ∈ later, b.form? = none

/-- The form that a history leaves: the one that was brought about last, unless null was assigned to
the same attribute afterwards. -/
inductive Leaves (history : List Assignment) : Form → Prop
  | never (h : ∀ a ∈ history, a.form? = none) : Leaves history .absent
  | kept {a : Assignment} {form : Form} {later : List Assignment} (h : IsLast history a form later)
      (hnull : ⟨a.slot, .null⟩ ∉ later) : Leaves history form
  | cleared {a : Assignment} {form : Form} {later : List Assignment}
      (h : IsLast history a form later) (hnull : ⟨a.slot, .null⟩ ∈ later) : Leaves history .absent

theorem exists_isLast {history : List Assignment} (h : ¬∀ a ∈ history, a.form? = none) :
    ∃ a form later, IsLast history a form later := by
  induction history with
  | nil => exact absurd (fun a ha ↦ absurd ha List.not_mem_nil) h
  | cons first rest ih =>
    by_cases hrest : ∀ a ∈ rest, a.form? = none
    · cases hfirst : first.form? with
      | some form => exact ⟨first, form, rest, ⟨[], rfl⟩, hfirst, hrest⟩
      | none => exact absurd (List.forall_mem_cons.mpr ⟨hfirst, hrest⟩ : ∀ a ∈ first :: rest, _) h
    · obtain ⟨a, form, later, ⟨before, rfl⟩, hgives, hlast⟩ := ih hrest
      exact ⟨a, form, later, ⟨first :: before, rfl⟩, hgives, hlast⟩

/-- Every history leaves some form. -/
theorem exists_leaves (history : List Assignment) : ∃ form, Leaves history form := by
  by_cases h : ∀ a ∈ history, a.form? = none
  · exact ⟨_, .never h⟩
  · obtain ⟨a, form, later, hlast⟩ := exists_isLast h
    by_cases hnull : ⟨a.slot, .null⟩ ∈ later
    · exact ⟨_, .cleared hlast hnull⟩
    · exact ⟨_, .kept hlast hnull⟩

theorem clear_empty (slot : Slot) : empty.clear slot = empty := by
  cases slot <;> rfl

/-- As long as no form is brought about, nothing stays nothing. -/
theorem after_empty {later : List Assignment} (h : ∀ b ∈ later, b.form? = none) :
    empty.after later = empty := by
  induction later with
  | nil => rfl
  | cons b rest ih =>
    obtain ⟨hb, hrest⟩ := List.forall_mem_cons.mp h
    have hstep : (empty.assign b).2 = empty := by
      rcases assign_cases empty b with ⟨form, hform, -⟩ | ⟨-, -, hclear⟩ | ⟨f, -, -, -, hf⟩
      · exact absurd (hb.symm.trans hform) nofun
      · rw [hclear, clear_empty]
      · rw [hf]
    show ((empty.assign b).2).after rest = empty
    rw [hstep, ih hrest]

/-- An assignment that brings about no form leaves a form alone unless it clears its attribute. -/
theorem assign_attributes (ha : a.form? = some form) {b : Assignment} (hb : b.form? = none) :
    (⟨a.slot, .null⟩ = b ∧ (form.attributes.assign b).2 = empty) ∨
      ⟨a.slot, .null⟩ ≠ b ∧ (form.attributes.assign b).2 = form.attributes := by
  obtain ⟨slot, v⟩ := b
  rcases assign_cases form.attributes ⟨slot, v⟩ with
    ⟨form', hform, -⟩ | ⟨hnull, -, hclear⟩ | ⟨f, -, hne, -, hrefused⟩
  · exact absurd (hb.symm.trans hform) nofun
  · obtain rfl : v = .null := hnull
    rw [hclear]
    rcases Assignment.eq_of_form? ha with ⟨hslot, rfl, -⟩ | ⟨hslot, bytes, -, rfl⟩
    · cases slot with
      | url => exact .inl ⟨hslot ▸ rfl, rfl⟩
      | data => exact .inr ⟨hslot ▸ nofun, rfl⟩
    · cases slot with
      | url => exact .inr ⟨hslot ▸ nofun, rfl⟩
      | data => exact .inl ⟨hslot ▸ rfl, rfl⟩
  · rw [hrefused]
    exact .inr ⟨fun h ↦ hne (congrArg Assignment.value h).symm, rfl⟩

/-- As long as no form is brought about, a form stays unless its attribute is cleared. -/
theorem after_attributes (ha : a.form? = some form) {later : List Assignment}
    (h : ∀ b ∈ later, b.form? = none) :
    (⟨a.slot, .null⟩ ∈ later ∧ form.attributes.after later = empty) ∨
      ⟨a.slot, .null⟩ ∉ later ∧ form.attributes.after later = form.attributes := by
  induction later with
  | nil => exact .inr ⟨List.not_mem_nil, rfl⟩
  | cons b rest ih =>
    obtain ⟨hb, hrest⟩ := List.forall_mem_cons.mp h
    rw [show form.attributes.after (b :: rest) = (form.attributes.assign b).2.after rest from rfl]
    rcases assign_attributes ha hb with ⟨hcleared, hstep⟩ | ⟨hother, hstep⟩
    · rw [hstep, after_empty hrest]
      exact .inl ⟨hcleared ▸ List.mem_cons_self, rfl⟩
    · rw [hstep, List.mem_cons, or_iff_right hother]
      exact ih hrest

/-- The attributes after a history are those of the form that it leaves. -/
theorem Leaves.after_eq {history : List Assignment} (h : Leaves history form) :
    empty.after history = form.attributes := by
  have hlast {a : Assignment} {form : Form} {later : List Assignment}
      (h : IsLast history a form later) :
      empty.after history = form.attributes.after later := by
    obtain ⟨⟨before, rfl⟩, hgives, -⟩ := h
    have hstep : ((empty.after before).assign a).2 = form.attributes := by
      rcases assign_cases (empty.after before) a with
        ⟨form', hform, hassign⟩ | ⟨-, hnone, -⟩ | ⟨f, -, -, hnone, -⟩
      · rw [hassign, Option.some.inj (hform.symm.trans hgives)]
      · exact absurd (hnone.symm.trans hgives) nofun
      · exact absurd (hnone.symm.trans hgives) nofun
    rw [after, List.foldl_append]
    exact congrArg (after · later) hstep
  cases h with
  | never h => exact after_empty h
  | kept h hnull =>
    rw [hlast h]
    exact ((after_attributes h.gives h.last).resolve_left fun hmem ↦ hnull hmem.1).2
  | cleared h hnull =>
    rw [hlast h]
    exact ((after_attributes h.gives h.last).resolve_right fun hmem ↦ hmem.1 hnull).2

/-- What a property is made from is the first thing in its history. -/
theorem ofArgument_after (arg : Value) (history : List Assignment) :
    (ofArgument arg).after history = empty.after (given arg ++ history) := by
  rw [show ofArgument arg = empty.after (given arg) by cases arg <;> rfl]
  exact List.foldl_append.symm

/-! ### What is written -/

section Written

variable (s : ResourceAttributes) (b : BinaryPolicy) (t : Option MediaType)

/-- Whether there is a URL. -/
def hasUrl : Bool :=
  match s.url with
  | .null => false
  | _ => true

/-- The data type of what the attributes hold. -/
def dataType : Option DataType :=
  if s.hasUrl then b.urlDataType
  else if s.data.isSome then b.embeddedDataType
  else b.defaultDataType

/-- The parameters that describe what the attributes hold. -/
def describe (ps : Parameters) : Parameters :=
  if s.hasUrl then
    let ps := ps.remove "encoding"
    if b.isLegacy then (ps.assign "type" (t.bind MediaType.token)).remove "mediatype"
    else ps.assign "mediatype" (t.bind MediaType.mediaType)
  else if s.data.isSome then
    let ps := (ps.remove "mediatype").assign "encoding" (b.encoding.map Encoding.name)
    if b.isLegacy then ps.assign "type" (t.bind MediaType.token) else ps
  else ps

/-- The parameters that are written along with what the attributes hold. -/
def preparedParameters (v : Version) (ps : Parameters) : Parameters :=
  let b := BinaryPolicy.of v
  let d := s.dataType b
  let named := if DataType.sameOption d b.defaultDataType then none else d
  (s.describe b t ps).assign "value" (named.map DataType.name)

/-- What is written for the attributes in place of a text. -/
def written : Value :=
  if s.hasUrl then s.url
  else
    match s.data with
    | some bytes =>
      .text (if b.isLegacy then Base64.encode bytes
        else DataUri.toText ⟨embeddedMediaType t, bytes⟩)
    | none => .text ""

end Written

/-- The form as a resource, with an empty URL in place of one that is no text. -/
def Form.resource : Form → Resource
  | absent => .absent
  | link v => .url (v.text?.getD "")
  | embedded bytes => .data bytes

/-- What is written for a form in place of a text. -/
def Form.written (b : BinaryPolicy) (t : Option MediaType) : Form → Value
  | link v => v
  | form => .text (encodeResource b t form.resource)

/-- All that is written for the attributes in a version is written for the form. -/
structure ActsOn (s : ResourceAttributes) (form : Form) (v : Version) (t : Option MediaType)
    (ps : Parameters) : Prop where
  dataType : s.dataType (.of v) = (BinaryPolicy.of v).dataType form.resource
  parameters : s.preparedParameters t v ps = ContactCard.preparedParameters v form.resource t ps
  text : s.written (.of v) t = form.written (.of v) t

theorem hasUrl_of_ne_null {d : Option (List UInt8)} (hv : v ≠ .null) : hasUrl ⟨v, d⟩ = true := by
  cases v with
  | null => exact absurd rfl hv
  | _ => rfl

theorem Leaves.actsOn {history : List Assignment} (h : Leaves history form) (v : Version)
    (t : Option MediaType) (ps : Parameters) : form.attributes.ActsOn form v t ps := by
  have hgives {a : Assignment} {form : Form} (h : a.form? = some form) :
      form.attributes.ActsOn form v t ps := by
    rcases Assignment.eq_of_form? h with ⟨-, rfl, hne⟩ | ⟨-, bytes, -, rfl⟩
    · have hurl : (Form.link a.value).attributes.hasUrl = true := hasUrl_of_ne_null hne
      have htype : (Form.link a.value).attributes.dataType (.of v) =
          (BinaryPolicy.of v).urlDataType := if_pos hurl
      refine ⟨htype, ?_, if_pos hurl⟩
      rw [ResourceAttributes.preparedParameters, htype, describe, if_pos hurl]
      rfl
    · exact ⟨rfl, rfl, rfl⟩
  cases h with
  | never h => exact ⟨rfl, rfl, rfl⟩
  | kept h hnull => exact hgives h.gives
  | cleared h hnull => exact ⟨rfl, rfl, rfl⟩

end ResourceAttributes

/-! ### Properties -/

open ResourceAttributes

/-- The attributes of a resource. -/
def Resource.attributes (r : Resource) : ResourceAttributes := ⟨.ofOption r.url?, r.data?⟩

/-- The argument from which a property with the resource is made. -/
def Resource.argument : Resource → Value
  | absent => .null
  | url s => .text s
  | data bytes => .bytes bytes

/-- An assignment to a property, whose URLs are texts. -/
inductive Resource.Edit where
  | url (s : Option String)
  | data (v : Value)

namespace Resource.Edit

def assignment : Edit → Assignment
  | url s => ⟨.url, .ofOption s⟩
  | data v => ⟨.data, v⟩

def perform (p : Property) : Edit → Except Fault Property
  | url s => .ok (p.setUrl s)
  | data v => p.setData v

/-- The property after an assignment, which may have been refused. -/
def next (p : Property) (e : Edit) : Property := (e.perform p).toOption.getD p

end Resource.Edit

/-- The property holds what the attributes hold, takes and refuses the same assignments, and is
written as what the attributes hold is. -/
structure Property.GoesWith (p : Property) (s : ResourceAttributes) (t : Option MediaType) :
    Prop where
  url : p.url.map .ofOption = .ok s.url
  data : p.data = .ok s.data
  outcome : ∀ e : Resource.Edit, (e.perform p).map (fun _ ↦ ()) = (s.assign e.assignment).1
  dataType : ∀ label c k v, (Codec.binary label c k).dataType p v = .ok (s.dataType (.of v))
  parameters : ∀ label c k v, (Codec.binary label c k).prepareParameters p v =
    .ok (s.preparedParameters t v p.parameters)
  text : ∀ label c k v, ((Codec.binary label c k).writeText p v).map .text =
    .ok (s.written (.of v) t)

variable {p : Property} {r : Resource} {t : Option MediaType}

theorem Resource.Edit.perform_cases (hp : p.content = .binary r t) (e : Edit) :
    (∃ r', e.perform p = .ok { p with content := .binary r' t } ∧
      r.attributes.assign e.assignment = (.ok (), r'.attributes)) ∨
    ∃ f, e.perform p = .error f ∧ r.attributes.assign e.assignment = (.error f, r.attributes) := by
  cases e with
  | url s =>
    refine .inl ⟨r.setUrl s, by rw [perform, Property.setUrl, hp], ?_⟩
    cases s <;> cases r <;> rfl
  | data v =>
    rw [perform, Property.setData, hp, assignment]
    by_cases hv : v = .null
    · subst hv
      refine .inl ⟨_, rfl, ?_⟩
      cases r <;> rfl
    · have hset : r.setData v = v.toBytes.map .data := by
        cases v with
        | null => exact absurd rfl hv
        | _ => rfl
      dsimp only
      rw [hset, assign_data _ hv]
      cases v.toBytes with
      | ok bytes => exact .inl ⟨.data bytes, rfl, rfl⟩
      | error f => exact .inr ⟨f, rfl, rfl⟩

theorem Property.goesWith_attributes (hp : p.content = .binary r t) :
    p.GoesWith r.attributes t := by
  refine ⟨?_, ?_, fun e ↦ ?_, fun label c k v ↦ ?_, fun label c k v ↦ ?_, fun label c k v ↦ ?_⟩
  · rw [Property.url, hp]
    rfl
  · rw [Property.data, hp]
    rfl
  · rcases e.perform_cases hp with ⟨r', hperform, hassign⟩ | ⟨f, hperform, hassign⟩ <;>
      rw [hperform, hassign] <;> rfl
  · rw [show (Codec.binary label c k).dataType p v = p.resource.map _ from rfl, resource_eq hp]
    cases r <;> rfl
  · rw [Codec.prepareParameters_binary label c k hp]
    cases r <;> rfl
  · rw [show (Codec.binary label c k).writeText p v = _ from Format.encodeBinary_eq hp v]
    cases r <;> rfl

theorem Resource.ofArgument_argument (r : Resource) : ofArgument r.argument = r.attributes := by
  cases r <;> rfl

/-- Properties go along with their attributes through all assignments. -/
theorem Resource.Edit.foldl_next (p : Property) (r : Resource) (edits : List Edit) :
    ∃ r', edits.foldl next { p with content := .binary r t } = { p with content := .binary r' t } ∧
      r.attributes.after (edits.map assignment) = r'.attributes := by
  induction edits generalizing r with
  | nil => exact ⟨r, rfl, rfl⟩
  | cons e rest ih =>
    rw [List.foldl_cons, next, List.map_cons, show r.attributes.after (e.assignment :: _) =
      (r.attributes.assign e.assignment).2.after _ from rfl]
    rcases e.perform_cases (p := { p with content := .binary r t }) rfl with
      ⟨r', hperform, hassign⟩ | ⟨f, hperform, hassign⟩
    · rw [hperform, hassign]
      exact ih r'
    · rw [hperform, hassign]
      exact ih r

/-- A property can be made from every value. Whatever is assigned to it then, null and refused
values included: at most one of its attributes is set, a refused assignment changes neither, null
assigned to one leaves the other, and in every version all that is written is written for the form
that the history leaves. The same holds of properties with a `Resource`, which go along with their
attributes. -/
theorem exclusive_attributes :
    (∀ (arg : Value) (history : List Assignment),
      let s := (ofArgument arg).after history
      ((make arg).run.run empty).1 = .ok () ∧ (s.url = .null ∨ s.data = none) ∧
      (∀ a, (s.assign a).1 = .ok () ∨ (s.assign a).2 = s) ∧
      (s.assign ⟨.url, .null⟩).2.data = s.data ∧ (s.assign ⟨.data, .null⟩).2.url = s.url ∧
      ∃ form, Leaves (given arg ++ history) form ∧ ∀ v t ps, s.ActsOn form v t ps) ∧
    ∀ (p : Property) (r : Resource) (t : Option MediaType) (edits : List Resource.Edit),
      (edits.foldl Resource.Edit.next { p with content := .binary r t }).GoesWith
        ((ofArgument r.argument).after (edits.map Resource.Edit.assignment)) t := by
  refine ⟨fun arg history ↦ ?_, fun p r t edits ↦ ?_⟩
  · obtain ⟨form, hleaves⟩ := exists_leaves (given arg ++ history)
    rw [ofArgument_after, hleaves.after_eq]
    exact ⟨by cases arg <;> rfl, form.attributes_exclusive, assign_eq_ok_or_eq_self _, rfl, rfl,
      form, hleaves, hleaves.actsOn⟩
  · obtain ⟨r', hp, hs⟩ := Resource.Edit.foldl_next (t := t) p r edits
    rw [hp, r.ofArgument_argument, hs]
    exact Property.goesWith_attributes rfl

/-- A link goes with the bytes that take its place, and not with a text that has no bytes. -/
example :
    let s := (ofArgument (.text "http://example.com/")).after [⟨.data, .text "no bytes"⟩]
    s.url.text? = some "http://example.com/" ∧
      (s.after [⟨.data, .bytes [1]⟩, ⟨.url, .null⟩]).data = some [1] := by
  exact ⟨rfl, rfl⟩

end ContactCard
