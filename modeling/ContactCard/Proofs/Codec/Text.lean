import ContactCard.Proofs.XCard.PropertyElement

/-!
# Text properties in all forms

A text property of a class with a codec comes back from each form that it is written in, whatever its
text is (`written_text_given_back`). Plain text holds the text escaped and XML and JSON hold it as it
is; but what is read from the latter two is escaped first, so that all three forms leave the same to
be undone.
-/

namespace ContactCard

open Text Xml

/-- What was read is a property of the class of `p` with the same value. It carries the parameters,
and nothing was warned about. -/
structure Reading.GivesBack (reading : Reading) (p : Property) (ps : Parameters) : Prop where
  cls : reading.property.cls = p.cls
  value : reading.property.value = p.value
  parameters : reading.property.parameters = ps
  warnings : reading.warnings = []

variable {p : Property} {k : PropertyClass} {s : String}

theorem givesBack_ofText (hcls : p.cls = k) (hcontent : p.content = .text (some s))
    (ps : Parameters) :
    (Codec.withParameters ps ⟨.ofText k (some s), []⟩).GivesBack p ps := by
  refine ⟨hcls.symm, ?_, rfl, rfl⟩
  rw [Property.value, Property.value, hcontent]
  rfl

/-! ### The three forms -/

section Forms

variable (label : String) (t : DataType) (hcontent : p.content = .text (some s))

include hcontent

theorem writeText_text (v : Version) :
    (Codec.ofClass label k (.text t)).writeText p v = .ok (escape s) := by
  have hvalue : p.value = .ok (some s) := by rw [Property.value, hcontent]
  show p.value.map _ = _
  rw [hvalue]
  rfl

theorem writeJson_text : (Codec.ofClass label k (.text t)).writeJson p = .ok (.single s) := by
  have hvalue : p.value = .ok (some s) := by rw [Property.value, hcontent]
  show p.value.map _ = _
  rw [hvalue]
  rfl

end Forms

/-- JSON holds the text as it is, and what is read is escaped first. -/
theorem readJson_text (label : String) (hk : k.shape = .text) (t : DataType) (s : String)
    (d : Option DataType) (ps : Parameters) :
    (Codec.ofClass label k (.text t)).readJson (.single s) d ps =
      .ok (Codec.withParameters ps ⟨.ofText k (some s), []⟩) :=
  readText_escape label hk t s d .v4_0 ps

/-! ### All classes -/

/-- A property of a class of texts with a codec, with any text and any parameters, is given back from
the plain text of every version that is read with the parameters that were prepared for it, from an
element that held nothing but parameters before the value was put into it, and from JSON. -/
theorem written_text_given_back (hk : k ∈ textCodecClasses) (hcls : p.cls = k)
    (hcontent : p.content = .text (some s)) :
    ∃ c, Registry.standard.codecOfProperty p = .ok c ∧
      (∀ v, ∃ ps written reading, c.prepareParameters p v = .ok ps ∧
        c.writeText p v = .ok written ∧
        c.readText written ps.valueType? v ps = .ok reading ∧ reading.GivesBack p ps) ∧
      (∀ e ps, (∀ x ∈ e.children, Format.isParametersTag x.tag = true) →
        ∃ written reading, c.writeXml p ⟨e, .v4_0⟩ = .ok (.emit written) ∧
          c.readXml ⟨written, .v4_0⟩ ps = .ok reading ∧ reading.GivesBack p ps) ∧
      ∀ d ps, ∃ written reading, c.writeJson p = .ok written ∧
        c.readJson written d ps = .ok reading ∧ reading.GivesBack p ps := by
  obtain ⟨-, hshape, label, t, hclass, htag⟩ := exists_codec_of_mem_textCodecClasses hk
  have hcodec : Registry.standard.codecOfProperty p = .ok (.ofClass label k (.text t)) :=
    codecOfProperty_of_class (by rw [hcls, hclass])
  have hback := givesBack_ofText hcls hcontent
  refine ⟨_, hcodec, fun v ↦ ?_, fun e ps he ↦ ?_,
    fun d ps ↦ ?_⟩
  · exact ⟨_, _, _, rfl, writeText_text label t hcontent v,
      readText_escape label hshape t s _ v _, hback _⟩
  · have hholds := PropertyElement.holds_append he htag s
    exact ⟨_, _, (carries_text label hshape hcls hcontent).write e,
      readXml_text label hshape hholds ps, hback ps⟩
  · exact ⟨_, _, writeJson_text label t hcontent, readJson_text label hshape t s d ps, hback ps⟩

/-- A member with special characters, what looks like an escaped line feed and a real one, and with a
VALUE parameter that it should not have. -/
theorem written_text_given_back_member :
    let value := "urn:a\\n,b;\n"
    let p := { Property.ofText .member (some value) with
      parameters := Parameters.empty.assign "value" (some "text") }
    let table := Parameters.empty.assign "type" (some "home")
    let e := (Element.bare "member" []).append (table.toElement .v4_0)
    PropertyClass.member ∈ textCodecClasses ∧ p.cls = .member ∧ p.content = .text (some value) ∧
    (∀ x ∈ e.children, Format.isParametersTag x.tag = true) ∧
    ∃ c, Registry.standard.codecOfProperty p = .ok c ∧
      (∀ v, ∃ ps written reading, c.prepareParameters p v = .ok ps ∧
        c.writeText p v = .ok written ∧
        c.readText written ps.valueType? v ps = .ok reading ∧ reading.GivesBack p ps) ∧
      (∃ written reading, c.writeXml p ⟨e, .v4_0⟩ = .ok (.emit written) ∧
        c.readXml ⟨written, .v4_0⟩ table = .ok reading ∧ reading.GivesBack p table) ∧
      ∀ d ps, ∃ written reading, c.writeJson p = .ok written ∧
        c.readJson written d ps = .ok reading ∧ reading.GivesBack p ps := by
  intro value p table e
  have hk : PropertyClass.member ∈ textCodecClasses := by simp [textCodecClasses]
  have he : ∀ x ∈ e.children, Format.isParametersTag x.tag = true := by
    have htag : Format.isParametersTag (PropertyElement.qualified .v4_0 "parameters") = true := by
      decide +kernel
    rintro x (_ | ⟨_, hx⟩)
    · exact htag
    · exact absurd hx List.not_mem_nil
  obtain ⟨c, hcodec, htext, hxml, hjson⟩ :=
    written_text_given_back (p := p) (s := value) hk rfl rfl
  exact ⟨hk, rfl, rfl, he, c, hcodec, htext, hxml e table he, hjson⟩

end ContactCard
