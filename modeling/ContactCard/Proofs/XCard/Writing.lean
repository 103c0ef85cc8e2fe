import ContactCard.Proofs.Codec.Registry
import ContactCard.Proofs.XCard.Adding
import ContactCard.Proofs.XCard.PropertyElement
import ContactCard.Proofs.Xml.RoundTrip

/-!
# Elements of properties

Everything that a document writes for a property can be read back if its strings can
(`exists_propertyElement`): the names of parameters and data types are local names in the namespace
of xCard, and no element but that of a group has an attribute.
-/

namespace ContactCard

open Text Xml XCardDocument

/-! ### Sound elements -/

/-- An element that readers may give, with no attribute but a name. -/
structure Xml.Element.IsSound (x : Element) : Prop extends x.IsReadable where
  names : ∀ a ∈ x.attributes, a.1 = "name"

theorem isReadableTag_qualified {name : String} (h : isNCName name.toList = true) :
    IsReadableTag (PropertyElement.qualified .v4_0 name) :=
  .qualified (by decide +kernel) h

/-- An element without attributes is sound if its tag and its text are. -/
theorem isSound_of_no_attributes {x : Element} (htag : IsReadableTag x.tag)
    (hattributes : x.attributes = [])
    (htext : x.text = .null ∨ ∃ s, x.text = .text s ∧ IsPlain s.toList) : x.IsSound := by
  have hwritten : (∃ s, writtenText x.text = .ok s) ∧ IsPlain x.ownText.toList := by
    rw [Element.ownText]
    rcases htext with h | ⟨s, h, hs⟩
    · rw [h]
      exact ⟨⟨_, rfl⟩, isPlain_nil⟩
    · rw [h]
      exact ⟨⟨_, rfl⟩, hs⟩
  have hnone : ∀ a ∈ x.attributes, False := by simp [hattributes]
  exact ⟨⟨htag, fun a ha ↦ (hnone a ha).elim, by simp [hattributes], fun a ha ↦ (hnone a ha).elim,
    hwritten.1, hwritten.2⟩, fun a ha ↦ (hnone a ha).elim⟩

namespace Xml.Element

/-- All nodes of an element are sound if it is and all nodes below it are. -/
theorem isSound_nodes {e : Element} (he : e.IsSound)
    (hchildren : ∀ child ∈ e.children, ∀ x ∈ child.nodes, x.IsSound) :
    ∀ x ∈ e.nodes, x.IsSound := forall_mem_nodes_iff.mpr ⟨he, hchildren⟩

end Xml.Element

/-! ### Parameters -/

namespace Parameters

/-- The names of parameters are local names and their values plain. -/
def IsClean (ps : Parameters) : Prop :=
  ∀ e ∈ ps.table.entries, isNCName e.1.toList = true ∧ ∀ s ∈ e.2, IsPlain s.toList

instance (ps : Parameters) : Decidable ps.IsClean :=
  inferInstanceAs (Decidable (∀ e ∈ ps.table.entries,
    isNCName e.1.toList = true ∧ ∀ s ∈ e.2, ∀ c ∈ s.toList, isXmlChar c = true ∧ c ≠ '\r'))

variable {ps : Parameters}

theorem IsClean.remove (h : ps.IsClean) (name : String) : (ps.remove name).IsClean :=
  fun e he ↦ h e (List.mem_filter.mp he).1

theorem IsClean.assign (h : ps.IsClean) {name : String} {value : Option String}
    (hname : isNCName (toLower name).toList = true)
    (hvalue : ∀ s, value = some s → IsPlain s.toList) :
    (ps.assign name value).IsClean := by
  cases value with
  | none => exact h.remove name
  | some s =>
    intro e he
    rcases OrderedMap.eq_or_mem_of_mem_insertEntry he with rfl | he
    · exact ⟨hname, fun t ht ↦ List.mem_singleton.mp ht ▸ hvalue s rfl⟩
    · exact h.remove name e he

/-- The values of parameters are elements of few names. -/
theorem valueName_mem (name : String) :
    valueName name ∈ PropertyElement.unknownName :: valueNames.map Prod.snd := by
  rw [valueName, valueName?]
  cases h : valueNames.lookup name with
  | none => exact List.mem_cons_self
  | some s => exact List.mem_cons_of_mem _ (List.mem_map_of_mem (mem_of_lookup h))

theorem isNCName_valueName (name : String) : isNCName (valueName name).toList = true := by
  have hall : ∀ s ∈ PropertyElement.unknownName :: valueNames.map Prod.snd,
      isNCName s.toList = true := by decide +kernel
  exact hall _ (valueName_mem name)

/-- The element of clean parameters is sound in all its parts. -/
theorem IsClean.isSound_toElement (h : ps.IsClean) :
    ∀ x ∈ (ps.toElement .v4_0).nodes, x.IsSound := by
  refine Element.isSound_nodes (isSound_of_no_attributes
    (isReadableTag_qualified (by decide +kernel)) rfl (.inl rfl)) fun parameter hparameter ↦ ?_
  obtain ⟨⟨name, values⟩, he, rfl⟩ := List.mem_map.mp hparameter
  obtain ⟨hname, hvalues⟩ := h _ he
  refine Element.isSound_nodes (isSound_of_no_attributes (isReadableTag_qualified hname)
    rfl (.inl rfl)) fun value hvalue ↦ ?_
  obtain ⟨s, hs, rfl⟩ := List.mem_map.mp hvalue
  exact Element.isSound_nodes (isSound_of_no_attributes
    (isReadableTag_qualified (isNCName_valueName name)) rfl (.inr ⟨s, rfl, hvalues s hs⟩))
    fun child hchild ↦ absurd hchild List.not_mem_nil

end Parameters

variable {p : Property} {c : Codec} {d : Option DataType} {s tag : String} {ps : Parameters}

/-- What a codec does with clean parameters and a plain data type gives clean parameters. -/
theorem exists_prepareParameters (hadjust : c.format.adjust p .v4_0 p.parameters = .ok ps)
    (hclean : ps.IsClean) (hd : c.format.dataType p .v4_0 = .ok d)
    (hname : ∀ x, d = some x → IsPlain x.name.toList) :
    ∃ ps, c.prepareParameters p .v4_0 = .ok ps ∧ (ps.remove "value").IsClean := by
  simp only [Codec.prepareParameters, hadjust, hd]
  refine ⟨_, rfl, (hclean.assign (by decide +kernel) fun s hs ↦ ?_).remove _⟩
  obtain ⟨x, hx, rfl⟩ := Option.map_eq_some_iff.mp hs
  split at hx
  · exact absurd hx (by simp)
  · exact hname x hx

/-! ### Data types -/

/-- Of the elements with a local name, those of parameters are the ones named after them. -/
theorem isParametersTag_qualified {v : Version} {name : String} (hbrace : '\x7d' ∉ name.toList)
    (hname : name ≠ "parameters") :
    Format.isParametersTag (PropertyElement.qualified v name) = false := by
  have hother : '\x7d' ∉ "parameters".toList := by decide
  rw [Format.isParametersTag, Bool.eq_false_iff, ne_eq, List.isSuffixOf_iff_suffix,
    PropertyElement.toList_qualified]
  intro hsuffix
  -- both parts after the bracket end the tag, and neither of them holds a bracket
  rcases List.suffix_or_suffix_of_suffix hsuffix (List.suffix_append _ _) with hle | hle
  · rcases List.suffix_cons_iff.mp hle with heq | hle
    · exact hname (String.toList_inj.mp (List.cons.inj heq).2.symm)
    · exact hbrace (hle.subset List.mem_cons_self)
  · rcases List.suffix_cons_iff.mp hle with heq | hle
    · exact hname (String.toList_inj.mp (List.cons.inj heq).2)
    · exact hother (hle.subset List.mem_cons_self)

/-- The value elements of a data type have a tag that readers may give and that is not that of
parameters. -/
structure IsFit (d : Option DataType) : Prop where
  tag : isNCName (d.elim PropertyElement.unknownName fun d ↦ toLower d.name).toList = true
  isValue : Format.isParametersTag (PropertyElement.valueTag .v4_0 d) = false
  name : ∀ x, d = some x → IsPlain x.name.toList

theorem isFit_none : IsFit none := ⟨by decide +kernel, by decide +kernel, by simp⟩

/-- The well-known data types are fit for documents. -/
theorem isFit_of_knows {x : DataType} (h : NamedRegistry.standard.knows x.named = true) :
    IsFit (some x) := by
  have hall : ∀ v ∈ (NamedRegistry.standard.table .dataType).values,
      isNCName (toLower v.name).toList = true ∧ toLower v.name ≠ "parameters" ∧
        v.name.toList.all (fun c ↦ isXmlChar c && c != '\r') = true := by decide +kernel
  have hmem : x.named ∈ (NamedRegistry.standard.table .dataType).values :=
    OrderedMap.mem_values_of_get? (eq_of_beq h)
  obtain ⟨htag, hother, hname⟩ := hall _ hmem
  have hvalue := isParametersTag_qualified (v := .v4_0) (brace_not_mem_of_isNCName htag) hother
  refine ⟨htag, hvalue, fun y hy c hc ↦ ?_⟩
  obtain rfl := Option.some.inj hy
  simpa using List.all_eq_true.mp hname c hc

/-! ### Properties -/

/-- The element of a property before its value is written. -/
def propertyHolder (tag : String) (ps : Parameters) : Element :=
  if ps.isEmpty then .bare tag [] else (Element.bare tag []).append (ps.toElement .v4_0)

theorem start_propertyHolder : (propertyHolder tag ps).tag = tag ∧
    (propertyHolder tag ps).attributes = [] ∧ (propertyHolder tag ps).text = .null := by
  rw [propertyHolder]
  split <;> exact ⟨rfl, rfl, rfl⟩

theorem eq_of_mem_propertyHolder {x : Element} (hx : x ∈ (propertyHolder tag ps).children) :
    x = ps.toElement .v4_0 := by
  rw [propertyHolder] at hx
  split at hx
  · exact absurd hx List.not_mem_nil
  · exact List.mem_singleton.mp hx

/-- A property that a codec carries is written as an element that is sound in all its parts and
holds its value. -/
theorem exists_propertyElement (hcodec : Registry.standard.codecOfProperty p = .ok c)
    (hcarries : c.Carries p d s) (hd : IsFit d) (hs : IsPlain s.toList)
    (htag : propertyTag p = .ok tag) (hreadable : IsReadableTag tag)
    (hps : c.prepareParameters p .v4_0 = .ok ps) (hclean : (ps.remove "value").IsClean) :
    ∃ e, propertyElement .standard p = .ok (.ok e) ∧ e.attributes = [] ∧
      (∀ x ∈ e.nodes, x.IsSound) ∧
      PropertyElement.Holds e (PropertyElement.valueTag .v4_0 d) s := by
  obtain ⟨hownTag, hattributes, htext⟩ := @start_propertyHolder tag (ps.remove "value")
  have hwrite : propertyElement .standard p = .ok (.ok (PropertyElement.append
      ⟨propertyHolder tag (ps.remove "value"), .v4_0⟩ d (.text s)).element) := by
    -- the codec is handed the element with the parameters already in it
    have hps' : c.prepareParameters p version = .ok ps := hps
    have houtcome := hcarries.write (propertyHolder tag (ps.remove "value"))
    rw [propertyHolder] at houtcome
    simp only [propertyElement, hcodec, htag, hps', Bind.bind, Except.bind]
    rw [show version = Version.v4_0 from rfl, houtcome]
    rfl
  have hparameters : ∀ x ∈ (propertyHolder tag (ps.remove "value")).children,
      Format.isParametersTag x.tag = true := by
    have htag : Format.isParametersTag (PropertyElement.qualified .v4_0 "parameters") = true := by
      decide +kernel
    intro x hx
    rw [eq_of_mem_propertyHolder hx]
    exact htag
  refine ⟨_, hwrite, hattributes, Element.isSound_nodes ?_ fun child hchild ↦ ?_,
    PropertyElement.holds_append hparameters hd.isValue s⟩
  · exact isSound_of_no_attributes (hownTag.symm ▸ hreadable) hattributes (.inl htext)
  · rcases List.mem_append.mp hchild with hchild | hchild
    · rw [eq_of_mem_propertyHolder hchild]
      exact hclean.isSound_toElement
    · rw [List.mem_singleton.mp hchild]
      exact Element.isSound_nodes (isSound_of_no_attributes (isReadableTag_qualified hd.tag) rfl
        (.inr ⟨s, rfl, hs⟩)) fun x hx ↦ absurd hx List.not_mem_nil

/-! ### Properties that documents carry -/

/-- The classes of text properties that have codecs and an XML form, with the data types of their
values. -/
def textClasses : List (PropertyClass × DataType) :=
  [(.formattedName, .text), (.kind, .text), (.productId, .text), (.member, .uri)]

theorem mem_textClasses {c : PropertyClass} {t : DataType} : (c, t) ∈ textClasses ↔
    c = .formattedName ∧ t = .text ∨ c = .kind ∧ t = .text ∨ c = .productId ∧ t = .text ∨
      c = .member ∧ t = .uri := by
  simp [textClasses]

/-- A property of a class of texts or of resources that has a codec, or an extension property that
has none. A resource is a URL that is not a data URI, or bytes whose media type does not look like
the part of a data URI in front of the bytes. -/
inductive Property.IsCarried (p : Property) : Prop
  | text {c : PropertyClass} {t : DataType} {value : Option String} (hc : (c, t) ∈ textClasses)
      (hcls : p.cls = c) (hname : p.name = c.name) (hcontent : p.content = .text value)
  | binary {c : PropertyClass} {k : MediaClass} {r : Resource} {t : Option MediaType}
      (hc : (c, k) ∈ binaryClasses) (hcls : p.cls = c) (hname : p.name = c.name)
      (hcontent : p.content = .binary r t) (hr : r.IsProper)
      (ht : ∀ bytes, r = .data bytes → DataUri.splitAtMarker? (embeddedMediaType t).toList = none)
  | extension {name : String} {value : Option String} {d : Option DataType}
      (hcls : p.cls = .extension) (hname : p.name = some name)
      (hnew : Registry.standard.byName.get? (toUpper name) = none)
      (hd : ∀ x, d = some x → NamedRegistry.standard.knows x.named = true)
      (hcontent : p.content = .extension value d)

/-- All strings of a property can stand in a document: those that become names are names, and all
others consist of characters of XML other than carriage returns. -/
structure Property.HasPlainStrings (p : Property) : Prop where
  tag : ∀ tag, propertyTag p = .ok tag → IsReadableTag tag
  group : ∀ g, p.group = some g → IsPlain g.toList
  parameters : p.parameters.IsClean
  text : ∀ s, p.held? = some (.text s) → IsPlain s.toList
  url : ∀ s, p.held? = some (.resource (.url s)) → IsPlain s.toList
  mediaType : ∀ t s, p.contentType = .ok (some t) → t.mediaType = some s → IsPlain s.toList

/-- What a document needs to know about a property and its codec. -/
structure Codec.Handles (c : Codec) (p : Property) : Prop where
  codec : Registry.standard.codecOfProperty p = .ok c
  prepare : ∃ ps, c.prepareParameters p .v4_0 = .ok ps ∧ (ps.remove "value").IsClean
  carries : p.held?.isSome → ∃ d s, IsFit d ∧ IsPlain s.toList ∧ c.Carries p d s
  omits : p.held? = none → ∀ e, c.writeXml p ⟨e, .v4_0⟩ = .ok (.omit "Property has no value.")

theorem exists_codec_of_mem_textClasses {c : PropertyClass} {t : DataType}
    (h : (c, t) ∈ textClasses) :
    c.shape = .text ∧ IsFit (some t) ∧
      ∃ label, Registry.standard.codecOf c c.name = .ok (.ofClass label c (.text t)) := by
  have htext : IsFit (some .text) ∧ IsFit (some .uri) :=
    ⟨isFit_of_knows (by decide +kernel), isFit_of_knows (by decide +kernel)⟩
  rcases mem_textClasses.mp h with ⟨rfl, rfl⟩ | ⟨rfl, rfl⟩ | ⟨rfl, rfl⟩ | ⟨rfl, rfl⟩
  · exact ⟨rfl, htext.1, "FormattedName", rfl⟩
  · exact ⟨rfl, htext.1, "Kind", rfl⟩
  · exact ⟨rfl, htext.1, "ProductId", rfl⟩
  · exact ⟨rfl, htext.2, "Member", rfl⟩

/-- Text properties are handled by the codecs of their classes. -/
theorem exists_handles_text {c : PropertyClass} {t : DataType} {value : Option String}
    (hc : (c, t) ∈ textClasses) (hcls : p.cls = c) (hname : p.name = c.name)
    (hcontent : p.content = .text value) (hp : p.HasPlainStrings) : ∃ c, Codec.Handles c p := by
  obtain ⟨hshape, hfit, label, hcodec⟩ := exists_codec_of_mem_textClasses hc
  refine ⟨.ofClass label c (.text t), ?_, ?_, fun hheld ↦ ?_, fun hheld e ↦ ?_⟩
  · rw [Registry.codecOfProperty, hcls, hname, hcodec]
  · exact exists_prepareParameters rfl hp.parameters rfl hfit.name
  · cases value with
    | none => simp [Property.held?, hcontent] at hheld
    | some s =>
      exact ⟨some t, s, hfit, hp.text s (by simp [Property.held?, hcontent]),
        carries_text label hshape hcls hcontent⟩
  · cases value with
    | none => exact encodeXml_withVerbatimText_null (by rw [Property.heldValue, hcontent]; rfl) e
    | some s => simp [Property.held?, hcontent] at hheld

/-- Extension properties are handled by the codecs of their names. -/
theorem exists_handles_extension {name : String} {value : Option String} {d : Option DataType}
    (hcls : p.cls = .extension) (hname : p.name = some name)
    (hnew : Registry.standard.byName.get? (toUpper name) = none)
    (hd : ∀ x, d = some x → NamedRegistry.standard.knows x.named = true)
    (hcontent : p.content = .extension value d) (hp : p.HasPlainStrings) :
    ∃ c, Codec.Handles c p := by
  have hfit : IsFit d := by
    cases d with
    | none => exact isFit_none
    | some x => exact isFit_of_knows (hd x rfl)
  have htype : p.dataType = .ok d := by rw [Property.dataType, hcontent]
  refine ⟨.extension name, ?_, ?_, fun hheld ↦ ?_, fun hheld e ↦ ?_⟩
  · exact codecOfProperty_extension hcls hname hnew
  · exact exists_prepareParameters rfl hp.parameters htype hfit.name
  · cases value with
    | none => simp [Property.held?, hcontent] at hheld
    | some s =>
      exact ⟨d, s, hfit, hp.text s (by simp [Property.held?, hcontent]),
        carries_extension name hcls hcontent⟩
  · cases value with
    | none => exact encodeXml_withVerbatimText_null (by rw [Property.heldValue, hcontent]; rfl) e
    | some s => simp [Property.held?, hcontent] at hheld

theorem isPlain_embeddedMediaType {t : Option MediaType}
    (ht : ∀ u s, t = some u → u.mediaType = some s → IsPlain s.toList) :
    IsPlain (embeddedMediaType t).toList := by
  have hunknown : IsPlain unknownMediaType.toList := by decide +kernel
  rw [embeddedMediaType]
  split
  · exact hunknown
  · next s hs =>
    obtain ⟨u, rfl, hu⟩ := Option.bind_eq_some_iff.mp hs
    split
    · exact hunknown
    · exact ht u s rfl hu

/-- Written resources are plain. -/
theorem isPlain_encodeResource {r : Resource} {t : Option MediaType}
    (hr : ∀ s, r = .url s → IsPlain s.toList)
    (ht : ∀ u s, t = some u → u.mediaType = some s → IsPlain s.toList) :
    IsPlain (encodeResource (.of .v4_0) t r).toList := by
  cases r with
  | absent => exact isPlain_nil
  | url s => exact hr s rfl
  | data bytes =>
    have hparts : IsPlain DataUri.scheme ∧ IsPlain DataUri.marker ∧
        IsPlain ('=' :: Base64.alphabet) := by
      decide +kernel
    show IsPlain (DataUri.toText _).toList
    rw [DataUri.toList_toText]
    refine isPlain_append.mpr ⟨hparts.1, isPlain_append.mpr ⟨isPlain_embeddedMediaType ht,
      isPlain_append.mpr ⟨hparts.2.1, fun c hc ↦ hparts.2.2 c (Base64.mem_encodeBytes hc)⟩⟩⟩

/-- Binary properties are handled by the codecs of their classes. -/
theorem exists_handles_binary {c : PropertyClass} {k : MediaClass} {r : Resource}
    {t : Option MediaType} (hc : (c, k) ∈ binaryClasses) (hcls : p.cls = c)
    (hcontent : p.content = .binary r t) (hr : r.IsProper)
    (ht : ∀ bytes, r = .data bytes → DataUri.splitAtMarker? (embeddedMediaType t).toList = none)
    (hp : p.HasPlainStrings) : ∃ c, Codec.Handles c p := by
  obtain ⟨label, hcodec⟩ := codecOfProperty_of_mem hc hcls
  have hresource := Property.resource_eq hcontent
  have htype := Property.contentType_eq hcontent
  have huri : IsFit (some .uri) := isFit_of_knows (by decide +kernel)
  have hmedia : ∀ u s, t = some u → u.mediaType = some s → IsPlain s.toList :=
    fun u s hu hs ↦ hp.mediaType u s (by rw [htype, hu]) hs
  have hadjust : (Format.binary k).adjust p .v4_0 p.parameters =
      .ok ((BinaryPolicy.of .v4_0).describe r t p.parameters) := by
    simp only [Format.binary, hresource, htype]
    rfl
  -- what is described takes parameters away, and the only one that it adds is the media type
  have hdescribe : ((BinaryPolicy.of .v4_0).describe r t p.parameters).IsClean := by
    cases r with
    | absent => exact hr.elim
    | url s =>
      refine (hp.parameters.remove "encoding").assign (by decide +kernel) fun s hs ↦ ?_
      obtain ⟨u, hu, hs⟩ := Option.bind_eq_some_iff.mp hs
      exact hmedia u s hu hs
    | data bytes => exact (hp.parameters.remove "mediatype").remove "encoding"
  have hd : (Format.binary k).dataType p .v4_0 = .ok ((BinaryPolicy.of .v4_0).dataType r) := by
    simp only [Format.binary, hresource]
    rfl
  refine ⟨.binary label c k, hcodec, exists_prepareParameters hadjust hdescribe hd ?_, fun _ ↦ ?_,
    fun hheld ↦ ?_⟩
  · intro x hx
    cases r with
    | absent => exact hr.elim
    | _ => exact huri.name x hx
  · have hurl : ∀ s, r = .url s → IsPlain s.toList := by
      rintro s rfl
      exact hp.url s (by rw [Property.held?, hcontent])
    exact ⟨some .uri, _, huri, isPlain_encodeResource hurl hmedia,
      carries_binary label hcls hcontent hr ht⟩
  · cases r with
    | absent => exact hr.elim
    | _ => simp [Property.held?, hcontent] at hheld

/-- Every property that documents carry has a codec that handles it. -/
theorem Property.IsCarried.exists_handles (h : p.IsCarried) (hp : p.HasPlainStrings) :
    ∃ c, Codec.Handles c p := by
  cases h with
  | text hc hcls hname hcontent => exact exists_handles_text hc hcls hname hcontent hp
  | binary hc hcls _ hcontent hr ht => exact exists_handles_binary hc hcls hcontent hr ht hp
  | extension hcls hname hnew hd hcontent =>
    exact exists_handles_extension hcls hname hnew hd hcontent hp

/-- A property that documents carry has a tag. -/
theorem Property.IsCarried.exists_propertyTag (h : p.IsCarried) :
    ∃ tag, propertyTag p = .ok tag := by
  obtain ⟨name, hname⟩ : ∃ name, p.name = some name := by
    cases h with
    | text hc hcls hname hcontent =>
      rcases mem_textClasses.mp hc with ⟨rfl, -⟩ | ⟨rfl, -⟩ | ⟨rfl, -⟩ | ⟨rfl, -⟩ <;>
        exact ⟨_, hname⟩
    | binary hc hcls hname hcontent hr ht =>
      obtain ⟨name, hclassName⟩ := exists_name_of_mem_binaryClasses hc
      exact ⟨name, hname.trans hclassName⟩
    | extension hcls hname hnew hd hcontent => exact ⟨_, hname⟩
  exact XCardDocument.exists_propertyTag hname

/-! ### What comes of properties -/

/-- The codec of the property reads from the element a property that agrees with it. -/
def ReadsBack (p : Property) (e : Element) : Prop :=
  ∃ c, Registry.standard.codecOfProperty p = .ok c ∧
    ∀ ps, ∃ reading, c.readXml ⟨e, .v4_0⟩ ps = .ok reading ∧ reading.property.Agrees p

/-- The element is one that was written for the property. -/
structure IsElementOf (p : Property) (e : Element) : Prop where
  attributes : e.attributes = []
  sound : ∀ x ∈ e.nodes, x.IsSound
  holds : ∃ c d s, Registry.standard.codecOfProperty p = .ok c ∧ c.Carries p d s ∧
    PropertyElement.Holds e (PropertyElement.valueTag .v4_0 d) s

/-- A property that holds something is written as an element. -/
theorem Property.IsCarried.exists_element (h : p.IsCarried) (hp : p.HasPlainStrings)
    (hheld : p.held?.isSome) :
    ∃ e, propertyElement .standard p = .ok (.ok e) ∧ IsElementOf p e := by
  obtain ⟨c, hc⟩ := h.exists_handles hp
  obtain ⟨tag, htag⟩ := h.exists_propertyTag
  obtain ⟨ps, hps, hclean⟩ := hc.prepare
  obtain ⟨d, s, hfit, hs, hcarries⟩ := hc.carries hheld
  obtain ⟨e, he, hattributes, hsound, hholds⟩ :=
    exists_propertyElement hc.codec hcarries hfit hs htag (hp.tag tag htag) hps hclean
  exact ⟨e, he, hattributes, hsound, c, d, s, hc.codec, hcarries, hholds⟩

/-- A property that holds nothing is left out, with a warning. -/
theorem Property.IsCarried.exists_warning (h : p.IsCarried) (hp : p.HasPlainStrings)
    (hheld : p.held? = none) : ∃ warning, propertyElement .standard p = .ok (.error warning) := by
  obtain ⟨c, hc⟩ := h.exists_handles hp
  obtain ⟨tag, htag⟩ := h.exists_propertyTag
  obtain ⟨ps, hps, -⟩ := hc.prepare
  have hps' : c.prepareParameters p version = .ok ps := hps
  have houtcome := hc.omits hheld (propertyHolder tag (ps.remove "value"))
  rw [propertyHolder] at houtcome
  simp only [propertyElement, hc.codec, htag, hps', Bind.bind, Except.bind]
  rw [show version = Version.v4_0 from rfl, houtcome]
  exact ⟨_, rfl⟩

end ContactCard
