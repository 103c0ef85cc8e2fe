import ContactCard.Codec.Registry

/-!
# Codecs of classes and of names

A property whose class has no codec, nor any class that it specialises, is given the codec of its
name, whatever it holds (`codecOfProperty_of_name`). Some of these codecs ask for a resource; the
others are content with a text (`byName_cases`).
-/

namespace ContactCard

open Text

variable {p : Property} {name : String} {c : Codec}

/-- The codec of a class or, failing that, of the nearest class with a codec that it specialises. -/
def Registry.codecOfLineage? (r : Registry) (k : PropertyClass) : Option Codec :=
  k.lineage.findSome? r.byClass.get?

/-- The class decides if it has a codec. -/
theorem codecOfProperty_of_class
    (hclass : Registry.standard.codecOfLineage? p.cls = some c) :
    Registry.standard.codecOfProperty p = .ok c := by
  rw [Registry.codecOfLineage?] at hclass
  rw [Registry.codecOfProperty, Registry.codecOf, hclass]

/-- The name decides where no class does. -/
theorem codecOfProperty_of_name
    (hclass : Registry.standard.codecOfLineage? p.cls = none)
    (hname : p.name = some name) :
    Registry.standard.codecOfProperty p =
      .ok ((Registry.standard.byName.get? (toUpper name)).getD (.extension name)) := by
  rw [Registry.codecOfLineage?] at hclass
  rw [Registry.codecOfProperty, Registry.codecOf, hclass, hname]
  rfl

/-- Extension properties of a name without a codec share a kind of codec. -/
theorem codecOfProperty_extension (hcls : p.cls = .extension) (hname : p.name = some name)
    (hnew : Registry.standard.byName.get? (toUpper name) = none) :
    Registry.standard.codecOfProperty p = .ok (.extension name) := by
  have hclass : Registry.standard.codecOfLineage? p.cls = none := by
    rw [hcls]
    rfl
  rw [codecOfProperty_of_name hclass hname, hnew, Option.getD_none]

/-! ### Codecs of texts -/

/-- The classes of text properties that have codecs of their own. -/
def textCodecClasses : List PropertyClass :=
  [.formattedName, .kind, .member, .productId, .mailer]

/-- Their values are texts, and no value element of theirs looks like one of parameters. -/
theorem exists_codec_of_mem_textCodecClasses {c : PropertyClass} (h : c ∈ textCodecClasses) :
    (∃ name, c.name = some name) ∧ c.shape = .text ∧ ∃ label t,
      Registry.standard.codecOfLineage? c = some (.ofClass label c (.text t)) ∧
      Format.isParametersTag (PropertyElement.valueTag .v4_0 (some t)) = false := by
  have htags : Format.isParametersTag (PropertyElement.valueTag .v4_0 (some .text)) = false ∧
      Format.isParametersTag (PropertyElement.valueTag .v4_0 (some .uri)) = false := by
    decide +kernel
  simp only [textCodecClasses, List.mem_cons, List.not_mem_nil, or_false] at h
  rcases h with rfl | rfl | rfl | rfl | rfl
  · exact ⟨⟨_, rfl⟩, rfl, _, _, rfl, htags.1⟩
  · exact ⟨⟨_, rfl⟩, rfl, _, _, rfl, htags.1⟩
  · exact ⟨⟨_, rfl⟩, rfl, _, _, rfl, htags.2⟩
  · exact ⟨⟨_, rfl⟩, rfl, _, _, rfl, htags.1⟩
  · exact ⟨⟨_, rfl⟩, rfl, _, _, rfl, htags.1⟩

/-! ### What codecs ask for -/

/-- The names whose codecs ask for a resource. -/
def resourceNames : List String := ["PHOTO", "LOGO", "SOUND"]

/-- The names whose codecs ask for a resource have codecs. -/
theorem not_mem_resourceNames (h : Registry.standard.byName.get? name = none) :
    name ∉ resourceNames := by
  simp only [resourceNames, List.mem_cons, List.not_mem_nil, or_false]
  rintro (rfl | rfl | rfl) <;> exact Option.some_ne_none _ h

/-- A property that has a text has nothing but it, and a data type if it is an extension. -/
theorem content_of_value {v : Option String} (h : p.value = .ok v) :
    p.content = .text v ∨ ∃ d, p.content = .extension v d := by
  rw [Property.value] at h
  cases hcontent : p.content <;> simp_all

/-- A property that has a resource has nothing but it and its media type. -/
theorem content_of_resource {r : Resource} (h : p.resource = .ok r) :
    ∃ t, p.content = .binary r t := by
  rw [Property.resource] at h
  cases hcontent : p.content <;> simp_all

/-- A text is held as it is. -/
theorem heldValue_of_value {v : Option String} (h : p.value = .ok v) :
    p.heldValue = .ok (.ofOption v) := by
  rw [Property.heldValue]
  rcases content_of_value h with h | ⟨d, h⟩ <;> rw [h]

namespace Codec

/-- The codec finds all that it asks for to write the property in the last version. -/
structure Accepts (c : Codec) (p : Property) : Prop where
  prepare : ∃ ps, c.prepareParameters p .v4_0 = .ok ps
  write : ∀ e, ∃ outcome, c.writeXml p ⟨e, .v4_0⟩ = .ok outcome

/-- Codecs of texts ask for a value. -/
theorem accepts_text (label : String) (k : PropertyClass) (t : DataType) {v : Value}
    (hvalue : p.heldValue = .ok v) : (ofClass label k (.text t)).Accepts p := by
  refine ⟨⟨_, rfl⟩, fun e ↦ ?_⟩
  simp only [writeXml, ofClass, Format.text, Format.withVerbatimText, hvalue]
  cases v <;> exact ⟨_, rfl⟩

/-- Codecs of extension properties ask for a data type along with the value. -/
theorem accepts_extension (name : String) {v : Value} {d : Option DataType}
    (hvalue : p.heldValue = .ok v) (hd : p.dataType = .ok d) : (extension name).Accepts p := by
  constructor
  · simp only [prepareParameters, extension, Format.extension, Format.withVerbatimText,
      TextFormat.toFormat, hd]
    exact ⟨_, rfl⟩
  · intro e
    simp only [writeXml, extension, Format.extension, Format.withVerbatimText, hvalue,
      TextFormat.toFormat, hd]
    cases v <;> exact ⟨_, rfl⟩

/-- Codecs of binary properties ask for a resource. -/
theorem accepts_binary (label : String) (k : PropertyClass) (m : MediaClass) {r : Resource}
    {t : Option MediaType} (hcontent : p.content = .binary r t) :
    (binary label k m).Accepts p := by
  have hresource : p.resource = .ok r := by rw [Property.resource, hcontent]
  have htype : p.contentType = .ok t := by rw [Property.contentType, hcontent]
  constructor
  · simp only [prepareParameters, binary, Format.binary, hresource, htype]
    exact ⟨_, rfl⟩
  · intro e
    simp only [writeXml, binary, Format.binary, Format.encodeBinary, hresource, htype]
    exact ⟨_, rfl⟩

theorem prepareParameters_extension (name : String) {f : Fault} (hd : p.dataType = .error f) :
    (extension name).prepareParameters p .v4_0 = .error f := by
  simp only [prepareParameters, extension, Format.extension, Format.withVerbatimText,
    TextFormat.toFormat, hd]
  rfl

theorem prepareParameters_binary_of_error (label : String) (k : PropertyClass) (m : MediaClass)
    {f : Fault} (hresource : p.resource = .error f) :
    (binary label k m).prepareParameters p .v4_0 = .error f := by
  simp only [prepareParameters, binary, Format.binary, hresource]
  rfl

end Codec

/-- A codec that is found by a name is one that asks for a resource, or it takes any text. -/
theorem byName_cases (h : Registry.standard.byName.get? name = some c) :
    (name ∈ resourceNames ∧ ∃ label k m, c = .binary label k m) ∨
    (name ∉ resourceNames ∧ ∀ p v, p.value = .ok v → c.Accepts p) := by
  have htext : ∀ label k t p v, p.value = .ok v → (Codec.ofClass label k (.text t)).Accepts p :=
    fun label k t p v hv ↦ Codec.accepts_text label k t (heldValue_of_value hv)
  have hmem : (name, c) ∈ Registry.standard.byName.entries := OrderedMap.mem_entries_of_get? h
  have htable : Registry.standard.byName.entries =
      [("FN", .formattedName), ("PRODID", .productId), ("MAILER", .mailer), ("KIND", .kind),
        ("MEMBER", .member), ("PHOTO", .photo), ("LOGO", .logo), ("SOUND", .sound)] := rfl
  rw [htable] at hmem
  simp only [List.mem_cons, Prod.mk.injEq, List.not_mem_nil, or_false] at hmem
  rcases hmem with ⟨rfl, rfl⟩ | ⟨rfl, rfl⟩ | ⟨rfl, rfl⟩ | ⟨rfl, rfl⟩ | ⟨rfl, rfl⟩ | ⟨rfl, rfl⟩ |
    ⟨rfl, rfl⟩ | ⟨rfl, rfl⟩
  · exact .inr ⟨by decide, htext _ _ _⟩
  · exact .inr ⟨by decide, htext _ _ _⟩
  · exact .inr ⟨by decide, htext _ _ _⟩
  · exact .inr ⟨by decide, htext _ _ _⟩
  · exact .inr ⟨by decide, htext _ _ _⟩
  · exact .inl ⟨by decide, _, _, _, rfl⟩
  · exact .inl ⟨by decide, _, _, _, rfl⟩
  · exact .inl ⟨by decide, _, _, _, rfl⟩

/-! ### All codecs -/

/-- The codecs that are registered. -/
def registeredCodecs : List Codec :=
  Registry.standard.byClass.values ++ Registry.standard.byName.values

/-- They are codecs of texts or of resources. -/
theorem registered_cases (h : c ∈ registeredCodecs) :
    (∃ label target t, c = .ofClass label target (.text t)) ∨
      ∃ label target m, target.shape = .binary ∧ c = .binary label target m := by
  have hmem : c ∈ [.formattedName, .productId, .mailer, .kind, .member, .photo, .logo, .sound] := by
    rcases List.mem_append.mp h with h | h <;> exact h
  simp only [List.mem_cons, List.not_mem_nil, or_false] at hmem
  rcases hmem with rfl | rfl | rfl | rfl | rfl | rfl | rfl | rfl
  · exact .inl ⟨_, _, _, rfl⟩
  · exact .inl ⟨_, _, _, rfl⟩
  · exact .inl ⟨_, _, _, rfl⟩
  · exact .inl ⟨_, _, _, rfl⟩
  · exact .inl ⟨_, _, _, rfl⟩
  · exact .inr ⟨_, _, _, rfl, rfl⟩
  · exact .inr ⟨_, _, _, rfl, rfl⟩
  · exact .inr ⟨_, _, _, rfl, rfl⟩

theorem mem_registeredCodecs_of_codecOfLineage? {k : PropertyClass}
    (h : Registry.standard.codecOfLineage? k = some c) : c ∈ registeredCodecs := by
  obtain ⟨label, -, hlabel⟩ := List.exists_of_findSome?_eq_some h
  exact List.mem_append_left _ (OrderedMap.mem_values_of_get? hlabel)

/-- The codec of a property is one of the registered codecs or that of extension properties. -/
theorem codecOfProperty_cases (h : Registry.standard.codecOfProperty p = .ok c) :
    c ∈ registeredCodecs ∨ ∃ name, c = .extension name := by
  cases hclass : Registry.standard.codecOfLineage? p.cls with
  | some codec =>
    obtain rfl := Except.ok.inj ((codecOfProperty_of_class hclass).symm.trans h)
    exact .inl (mem_registeredCodecs_of_codecOfLineage? hclass)
  | none =>
    cases hname : p.name with
    | none =>
      rw [Registry.codecOfLineage?] at hclass
      simp [Registry.codecOfProperty, Registry.codecOf, hclass, hname, Registry.codecOfName] at h
    | some name =>
      obtain rfl := Except.ok.inj ((codecOfProperty_of_name hclass hname).symm.trans h)
      cases hbyName : Registry.standard.byName.get? (toUpper name) with
      | none => exact .inr ⟨name, rfl⟩
      | some codec =>
        exact .inl (List.mem_append_right _ (OrderedMap.mem_values_of_get? hbyName))

end ContactCard
