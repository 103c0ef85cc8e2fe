import ContactCard.Proofs.Codec.Projection
import ContactCard.Proofs.XCard.Writing

/-!
# Extension properties in XML

An extension property has no other place for its data type than the tag of its value. It is read
back with its value and its data type (`extension_restored`) unless the tag says something else: a
value whose data type is named like the elements of values without one is read without a data type,
and one whose data type is named like the element of the parameters is taken for them and passed
over (`reserved_dataTypes_not_restored`).

Which of these tags it is does not depend on the spelling of the data type: a name in lower case has
no closing brace if it had none before, so that its tag holds only one.
-/

namespace ContactCard

open Text Xml

/-! ### What tags say -/

namespace Format

/-- The local part of a name in the namespace of a version is that name, whatever it is. -/
theorem localName_qualified (v : Version) (name : String) :
    localName (PropertyElement.qualified v name) = name := by
  have hbrace : '\x7d' ∉ '\x7b' :: (v.xmlNamespace?.getD "None").toList := by
    cases v <;> decide
  rw [localName, PropertyElement.toList_qualified, cut_append hbrace]
  exact String.ofList_toList

/-- The data type is read from the tag, if it is not named like the elements of values without
one. -/
theorem sameOption_taggedDataType (v : Version) (d : Option DataType) :
    DataType.sameOption (taggedDataType (PropertyElement.valueTag v d))
      (d.filter fun t ↦ toLower t.name ≠ PropertyElement.unknownName) = true := by
  rw [taggedDataType, PropertyElement.valueTag, localName_qualified]
  generalize PropertyElement.unknownName = unknown
  cases d with
  | none => simp [DataType.sameOption]
  | some t =>
    rw [Option.elim_some]
    by_cases ht : toLower t.name = unknown
    · simp [Option.filter_some, ht, DataType.sameOption]
    · have hsame : (DataType.ofName (toLower t.name)).same t = true :=
        DataType.same_iff.mpr (by rw [DataType.toLower_name_ofName, toLower_toLower])
      simp [Option.filter_some, ht, DataType.sameOption, hsame]

end Format

/-- In lower case a name has no brace either. -/
theorem brace_not_mem_toLower {name : String} (h : isNCName name.toList = true) :
    '\x7d' ∉ (toLower name).toList := by
  have hunreached : IsUnreached lowerExpansions lowerRuns '\x7d' :=
    ⟨by decide +kernel, by decide +kernel, by decide⟩
  rw [toLower, String.toList_ofList]
  exact fun hmem ↦
    brace_not_mem_of_isNCName h (mem_of_mem_lowerFrom hunreached (by decide) hmem)

/-- The value elements of a data type are not taken for parameters if it is not named after them. -/
theorem isParametersTag_valueTag {v : Version} {d : Option DataType}
    (hd : ∀ t, d = some t → ∃ own, isNCName own.toList = true ∧
      toLower own ≠ "parameters" ∧ t = .ofName own) :
    Format.isParametersTag (PropertyElement.valueTag v d) = false := by
  cases d with
  | none => exact isParametersTag_qualified (by decide) (by decide)
  | some t =>
    obtain ⟨name, hname, hother, rfl⟩ := hd t rfl
    have hlower := DataType.toLower_name_ofName name
    refine isParametersTag_qualified ?_ ?_
    · rw [Option.elim_some, hlower]
      exact brace_not_mem_toLower hname
    · rwa [Option.elim_some, hlower]

/-! ### What is read back -/

/-- The reading has the class, the name and the value of a property, and its data type is `d`.
Nothing is warned about. -/
structure Reading.Restores (r : Reading) (p : Property) (d : Option DataType) : Prop where
  cls : r.property.cls = p.cls
  name : r.property.name = p.name
  value : r.property.value = p.value
  dataType : ∃ d', r.property.dataType = .ok d' ∧ DataType.sameOption d' d = true
  unwarned : r.warnings = []

/-- What the codec writes for the property into an element of the last version, it reads back, with
`d` for the data type, whatever parameters come with it. -/
def Codec.RestoresXml (c : Codec) (p : Property) (e : Element) (d : Option DataType) : Prop :=
  ∃ written, c.writeXml p ⟨e, .v4_0⟩ = .ok (.emit written) ∧
    ∀ ps, ∃ reading, c.readXml ⟨written, .v4_0⟩ ps = .ok reading ∧ reading.Restores p d

/-- An extension property that is written after parameters is read back with its name, its value and
its data type. A data type with the name that stands for none is read as none. -/
theorem extension_restored {p : Property} {name s : String} {d : Option DataType} {e : Element}
    (hcls : p.cls = .extension) (hname : p.name = some (toUpper name))
    (hcontent : p.content = .extension (some s) d)
    (hnew : Registry.standard.byName.get? (toUpper name) = none)
    (hd : ∀ t, d = some t → ∃ own, isNCName own.toList = true ∧
      toLower own ≠ "parameters" ∧ t = .ofName own)
    (he : ∀ x ∈ e.children, x.tag = PropertyElement.qualified .v4_0 "parameters") :
    ∃ c, Registry.standard.codecOfProperty p = .ok c ∧
      c.RestoresXml p e (d.filter fun t ↦ toLower t.name ≠ PropertyElement.unknownName) := by
  have hcodec : Registry.standard.codecOfProperty p = .ok (.extension (toUpper name)) :=
    codecOfProperty_extension hcls hname (by rwa [toUpper_toUpper])
  have hparameters : ∀ x ∈ e.children, Format.isParametersTag x.tag = true := by
    intro x hx
    rw [he x hx]
    decide +kernel
  have hholds := PropertyElement.holds_append hparameters (isParametersTag_valueTag hd) s
  refine ⟨_, hcodec, _, (carries_extension (toUpper name) hcls hcontent).write e, fun ps ↦
    ⟨_, readXml_extension (toUpper name) hholds ps, ?_⟩⟩
  exact {
    cls := hcls.symm
    name := by
      show some (toUpper (toUpper (toUpper name))) = p.name
      rw [toUpper_toUpper, toUpper_toUpper, hname]
    value := by
      rw [Property.value, Property.value, hcontent]
      rfl
    dataType := ⟨_, rfl, Format.sameOption_taggedDataType .v4_0 d⟩
    unwarned := rfl }

/-- A value with parameters before it is read back as an integer. -/
theorem extension_restored_integer :
    let p := Property.ofExtension "x-lucky" (some "7") (some (.ofName "INTEGER"))
    let e := (Element.bare (PropertyElement.qualified .v4_0 "x-lucky") []).append
      ((Parameters.empty.assign "pref" (some "1")).toElement .v4_0)
    p.cls = .extension ∧ p.name = some (toUpper "x-lucky") ∧
      Registry.standard.byName.get? (toUpper "x-lucky") = none ∧
      isNCName "INTEGER".toList = true ∧ toLower "INTEGER" ≠ "parameters" ∧
      (∀ x ∈ e.children, x.tag = PropertyElement.qualified .v4_0 "parameters") ∧
      ∃ c, Registry.standard.codecOfProperty p = .ok c ∧
        c.RestoresXml p e (some (.ofName "INTEGER")) := by
  intro p e
  have hnew : Registry.standard.byName.get? (toUpper "x-lucky") = none := rfl
  have hname : isNCName "INTEGER".toList = true ∧ toLower "INTEGER" ≠ "parameters" := by
    decide +kernel
  have hchildren : ∀ x ∈ e.children, x.tag = PropertyElement.qualified .v4_0 "parameters" :=
    fun x hx ↦ List.mem_singleton.mp hx ▸ rfl
  have hknown : (some (DataType.ofName "INTEGER")).filter
      (fun t ↦ toLower t.name ≠ PropertyElement.unknownName) = some (.ofName "INTEGER") := by
    decide +kernel
  have hrestored := extension_restored (p := p) (e := e) rfl rfl rfl hnew
    (fun t ht ↦ ⟨"INTEGER", hname.1, hname.2, (Option.some.inj ht).symm⟩) hchildren
  rw [hknown] at hrestored
  exact ⟨rfl, rfl, hnew, hname.1, hname.2, hchildren, hrestored⟩

/-- What is written and what is read are determined. -/
theorem Codec.not_restoresXml {c : Codec} {p : Property} {e written : Element}
    {d : Option DataType} {reading : Reading}
    (hwrite : c.writeXml p ⟨e, .v4_0⟩ = .ok (.emit written))
    (hread : c.readXml ⟨written, .v4_0⟩ .empty = .ok reading) (h : ¬reading.Restores p d) :
    ¬c.RestoresXml p e d := by
  rintro ⟨written', hwrite', hread'⟩
  obtain rfl := Outcome.emit.inj (Except.ok.inj (hwrite.symm.trans hwrite'))
  obtain ⟨reading', hreading', hrestores⟩ := hread' .empty
  obtain rfl := Except.ok.inj (hread.symm.trans hreading')
  exact h hrestores

/-- Where all children hold parameters, the text of the element itself is what is read. -/
theorem readXml_extension_of_value?_eq_none (name : String) {e : Element}
    (h : PropertyElement.value? e = none) (ps : Parameters) :
    (Codec.extension name).readXml ⟨e, .v4_0⟩ ps =
      .ok (Codec.withParameters ps (Format.extensionReading ⟨.extension, some (toUpper name)⟩
        e.ownText none)) := by
  show (Format.decodeExtensionXml _ ⟨e, .v4_0⟩ ps).map _ = _
  rw [PropertyElement.value?] at h
  simp only [Format.decodeExtensionXml, h]
  rfl

/-- The names of two data types say something else as names of elements: a value of the one is read
without a data type, and a value of the other is not read at all. -/
theorem reserved_dataTypes_not_restored :
    let p := fun name ↦ Property.ofExtension "x-lucky" (some "7") (some (.ofName name))
    let e := Element.bare (PropertyElement.qualified .v4_0 "x-lucky") []
    let c := Codec.extension (toUpper "x-lucky")
    Registry.standard.byName.get? (toUpper "x-lucky") = none ∧
      (∀ name, Registry.standard.codecOfProperty (p name) = .ok c) ∧
      (isNCName "unknown".toList = true ∧
        ¬c.RestoresXml (p "unknown") e (some (.ofName "unknown"))) ∧
      isNCName "parameters".toList = true ∧
        ¬c.RestoresXml (p "parameters") e (some (.ofName "parameters")) := by
  intro p e c
  have hwrite : ∀ name, c.writeXml (p name) ⟨e, .v4_0⟩ =
      .ok (.emit (PropertyElement.append ⟨e, .v4_0⟩ (some (.ofName name)) (.text "7")).element) :=
    fun name ↦ (carries_extension _ rfl rfl).write e
  refine ⟨rfl, fun _ ↦ rfl, ⟨by decide +kernel, ?_⟩, by decide +kernel, ?_⟩
  · have hholds := PropertyElement.holds_append (e := e) (d := some (.ofName "unknown"))
      (fun x hx ↦ absurd hx List.not_mem_nil) (by decide +kernel) "7"
    refine Codec.not_restoresXml (hwrite "unknown")
      (readXml_extension (toUpper "x-lucky") hholds .empty) fun hrestores ↦ ?_
    obtain ⟨d, hd, hsame⟩ := hrestores.dataType
    have hnone : Format.taggedDataType
        (PropertyElement.valueTag .v4_0 (some (.ofName "unknown"))) = none := by decide +kernel
    rw [← Except.ok.inj hd, hnone] at hsame
    exact absurd hsame Bool.false_ne_true
  · have htag : Format.isParametersTag
        (PropertyElement.valueTag .v4_0 (some (.ofName "parameters"))) = true := by decide +kernel
    have hnone : PropertyElement.value? (PropertyElement.append ⟨e, .v4_0⟩
        (some (.ofName "parameters")) (.text "7")).element = none :=
      List.find?_eq_none.mpr fun x hx ↦ by
        rw [List.mem_singleton.mp hx]
        simp [PropertyElement.valueElement, Element.leaf, htag]
    refine Codec.not_restoresXml (hwrite "parameters")
      (readXml_extension_of_value?_eq_none (toUpper "x-lucky") hnone .empty) fun hrestores ↦ ?_
    have hvalue : some "" = some "7" := Except.ok.inj hrestores.value
    exact absurd hvalue (by decide)

end ContactCard
