import ContactCard.Proofs.Codec.Registry
import ContactCard.Proofs.Parameters

/-!
# What codecs put into documents

Whatever the property is, a standard codec that writes it in XML adds one value to its element, in
the data type of the property, and of its parameters it changes only those that describe values
(`writesValue_of_codecOfProperty`). There is one lemma about this for each family of codecs.
-/

namespace ContactCard

open Text Xml

variable {p : Property} {c : Codec} {ps : Parameters} {name : String}

/-! ### Codecs that write one value -/

/-- The parameters that describe a value. -/
def describingNames : List String := ["encoding", "mediatype", "value"]

/-- A value that a property can be written as: a text, or what it holds in the place of one. -/
def Property.Provides (p : Property) (v : Value) : Prop :=
  (∃ s, v = .text s) ∨ p.content = .foreign v

/-- What the codec does with properties that it writes in XML. -/
structure Codec.WritesValue (c : Codec) : Prop where
  /-- It adds one value, in the data type of the property. -/
  value : ∀ {p e e'}, c.writeXml p ⟨e, .v4_0⟩ = .ok (.emit e') → ∃ d v,
    c.dataType p .v4_0 = .ok d ∧ p.Provides v ∧
      e' = (PropertyElement.append ⟨e, .v4_0⟩ d v).element
  /-- Of the parameters it changes only those that describe values. -/
  names : ∀ {p ps}, c.prepareParameters p .v4_0 = .ok ps → ∀ name ∉ describingNames,
    name ∈ ps.names ↔ name ∈ p.parameters.names

namespace Codec

/-- The parameter for the data type is one of those that describe values. -/
theorem names_of_adjust
    (hadjust : ∀ {p ps}, c.format.adjust p .v4_0 p.parameters = .ok ps → ∀ name ∉ describingNames,
      name ∈ ps.names ↔ name ∈ p.parameters.names)
    (h : c.prepareParameters p .v4_0 = .ok ps) (hname : name ∉ describingNames) :
    name ∈ ps.names ↔ name ∈ p.parameters.names := by
  obtain ⟨qs, hqs, h⟩ := exists_of_bind_eq_ok h
  obtain ⟨d, -, h⟩ := exists_of_bind_eq_ok h
  obtain rfl := Except.ok.inj h
  have hvalue : name ≠ toLower "value" := by
    rintro rfl
    exact hname (by decide +kernel)
  rw [Parameters.mem_names_assign hvalue, hadjust hqs name hname]

end Codec

/-- What a property holds in the place of a text can be written, unless it is nothing. -/
theorem provides_of_heldValue {v : Value} (h : p.heldValue = .ok v) (hv : v ≠ .null) :
    p.Provides v := by
  have hoption : ∀ t : Option String, Value.ofOption t = v → ∃ s, v = .text s := by
    rintro (- | s) rfl
    · exact absurd rfl hv
    · exact ⟨s, rfl⟩
  rw [Property.heldValue] at h
  split at h
  · exact .inl (hoption _ (Except.ok.inj h))
  · exact .inl (hoption _ (Except.ok.inj h))
  · next w hcontent => exact .inr (hcontent.trans (congrArg _ (Except.ok.inj h)))
  · exact absurd h (by simp)

/-- What is written as it is, is a value. -/
theorem exists_of_encodeXml_withVerbatimText {f : Format} {e e' : Element}
    (h : f.withVerbatimText.encodeXml p ⟨e, .v4_0⟩ = .ok (.emit e')) : ∃ d v,
      f.dataType p .v4_0 = .ok d ∧ p.Provides v ∧
        e' = (PropertyElement.append ⟨e, .v4_0⟩ d v).element := by
  obtain ⟨v, hheld, h⟩ := exists_of_bind_eq_ok h
  by_cases hv : v = .null
  · subst hv
    cases h
  · have hwrite : (f.dataType p .v4_0 >>= fun d ↦
        pure (Outcome.emit (PropertyElement.append ⟨e, .v4_0⟩ d v).element)) = .ok (.emit e') := by
      cases v <;> first | exact h | exact absurd rfl hv
    obtain ⟨d, hd, h⟩ := exists_of_bind_eq_ok hwrite
    exact ⟨d, v, hd, provides_of_heldValue hheld hv, (Outcome.emit.inj (Except.ok.inj h)).symm⟩

namespace Codec

/-- Codecs that leave the parameters to the data type. -/
theorem names_of_unadjusted (hadjust : ∀ p ps, c.format.adjust p .v4_0 ps = .ok ps)
    (h : c.prepareParameters p .v4_0 = .ok ps) (hname : name ∉ describingNames) :
    name ∈ ps.names ↔ name ∈ p.parameters.names := by
  refine names_of_adjust (fun hps _ _ ↦ ?_) h hname
  rw [hadjust] at hps
  rw [Except.ok.inj hps]

theorem writesValue_text (label : String) (k : PropertyClass) (t : DataType) :
    (ofClass label k (.text t)).WritesValue :=
  ⟨exists_of_encodeXml_withVerbatimText, fun h _ ↦ names_of_unadjusted (fun _ _ ↦ rfl) h⟩

theorem writesValue_extension (name : String) : (extension name).WritesValue :=
  ⟨exists_of_encodeXml_withVerbatimText, fun h _ ↦ names_of_unadjusted (fun _ _ ↦ rfl) h⟩

/-- A resource is written as a URI, and described by its media type. -/
theorem writesValue_binary (label : String) (k : PropertyClass) (m : MediaClass) :
    (binary label k m).WritesValue := by
  constructor
  · intro p e e' h
    obtain ⟨s, hs, h⟩ := exists_of_bind_eq_ok h
    obtain ⟨r, hresource, -⟩ := exists_of_bind_eq_ok hs
    refine ⟨some .uri, _, ?_, .inl ⟨s, rfl⟩, (Outcome.emit.inj (Except.ok.inj h)).symm⟩
    simp only [dataType, binary, Format.binary, hresource]
    cases r <;> rfl
  · intro p ps h name hname
    refine names_of_adjust (fun {p ps} hps name hname ↦ ?_) h hname
    obtain ⟨r, -, hps⟩ := exists_of_bind_eq_ok hps
    obtain ⟨t, -, hps⟩ := exists_of_bind_eq_ok hps
    obtain rfl := Except.ok.inj hps
    have hencoding : name ≠ toLower "encoding" := by
      rintro rfl
      exact hname (by decide +kernel)
    have hmedia : name ≠ toLower "mediatype" := by
      rintro rfl
      exact hname (by decide +kernel)
    cases r with
    | absent => rfl
    | url s =>
      show name ∈ ((p.parameters.remove "encoding").assign "mediatype" _).names ↔ _
      rw [Parameters.mem_names_assign hmedia, Parameters.mem_names_remove hencoding]
    | data bytes =>
      show name ∈ ((p.parameters.remove "mediatype").remove "encoding").names ↔ _
      rw [Parameters.mem_names_remove hencoding, Parameters.mem_names_remove hmedia]

end Codec

/-! ### The standard codecs -/

/-- The codec of any property writes one value at most. -/
theorem writesValue_of_codecOfProperty (h : Registry.standard.codecOfProperty p = .ok c) :
    c.WritesValue := by
  rcases codecOfProperty_cases h with hc | ⟨name, rfl⟩
  · rcases registered_cases hc with ⟨label, k, t, rfl⟩ | ⟨label, k, m, -, rfl⟩
    · exact Codec.writesValue_text label k t
    · exact Codec.writesValue_binary label k m
  · exact Codec.writesValue_extension name

end ContactCard
