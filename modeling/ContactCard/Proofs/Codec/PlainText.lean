import ContactCard.Codec.Note
import ContactCard.Proofs.Codec.Registry
import ContactCard.Proofs.Text.Case
import ContactCard.Proofs.Text.Escape
import ContactCard.Proofs.XCard.PropertyElement

/-!
# Forms that hold plain text

A form that holds the plain text of a property is read by escaping what it holds and reading that as
plain text. So it has to hold the text as it is; where it holds the text as plain text writes it,
with its special characters escaped, they are escaped once more before they are read.

* A codec that leaves XML and JSON to its plain text gives a property back just when what it wrote is
  read the same after it is escaped again, and, in XML, the data type of the value is the one that is
  looked for (`Codec.restores_iff`). If it escapes texts, these are the texts without special
  characters.
* The codecs of extension properties write texts as they are but do not resolve the escapes, so of
  JSON and HTML, too, just the texts without special characters are read as they stand
  (`extension_restored_iff`).
-/

namespace ContactCard

open Text Xml

/-! ### Values of a data type -/

namespace PropertyElement

variable {v : Version} {d d' : Option DataType}

/-- A value that is appended is found under every data type that shares its tag. -/
theorem first?_append_of_valueTag_eq {e : Element} (he : ∀ x ∈ e.children, x.tag ≠ valueTag v d')
    (htag : valueTag v d = valueTag v d') (s : String) :
    first? ⟨(append ⟨e, v⟩ d (.text s)).element, v⟩ d' = some s := by
  have happend : append ⟨e, v⟩ d (.text s) = append ⟨e, v⟩ d' (.text s) := by
    simp only [append, valueElement, htag]
  rw [happend]
  exact first?_append (p := ⟨e, v⟩) he s

/-- Under other data types it is not found. -/
theorem first?_append_of_valueTag_ne {e : Element} (he : ∀ x ∈ e.children, x.tag ≠ valueTag v d')
    (htag : valueTag v d ≠ valueTag v d') (s : String) :
    first? ⟨(append ⟨e, v⟩ d (.text s)).element, v⟩ d' = none := by
  have hnone : (e.children ++ [valueElement v d (.text s)]).filter
      (fun x ↦ x.tag == valueTag v d') = [] := by
    refine List.filter_eq_nil_iff.mpr fun x hx ↦ ?_
    rcases List.mem_append.mp hx with hx | hx
    · simp [he x hx]
    · rw [List.mem_singleton.mp hx]
      simpa [valueElement, Element.leaf] using htag
  rw [first?, all, valueElements]
  show ((e.children ++ [valueElement v d (.text s)]).filter _ |>.map Element.ownText).head? = none
  rw [hnone]
  rfl

end PropertyElement

/-! ### Codecs that leave all forms to the plain text -/

namespace Codec

variable {c : Codec} {p : Property} {s raw : String} {d : Option DataType}

/-- XML and JSON are left to the plain text. -/
structure HoldsPlainText (c : Codec) : Prop where
  encodeXml : c.format.encodeXml = c.format.toTextFormat.encodeXml
  decodeXml : c.format.decodeXml = c.format.toTextFormat.decodeXml
  encodeJson : c.format.encodeJson = c.format.toTextFormat.encodeJson
  decodeJson : c.format.decodeJson = c.format.toTextFormat.decodeJson

/-- From the plain text the codec reads what the property holds, whatever is said about it. -/
def ReadsAs (c : Codec) (p : Property) (s : String) : Prop :=
  ∀ d ps, ∃ reading, c.readText s d .v4_0 ps = .ok reading ∧ reading.property.held? = p.held?

/-- What is written of the property, in XML into an element without a value of the default data
type, is read back. -/
structure Restores (c : Codec) (p : Property) : Prop where
  xml : ∀ e ps, (∀ x ∈ e.children,
      x.tag ≠ PropertyElement.valueTag .v4_0 (c.defaultDataType .v4_0)) →
    ∃ written reading, c.writeXml p ⟨e, .v4_0⟩ = .ok (.emit written) ∧
      c.readXml ⟨written, .v4_0⟩ ps = .ok reading ∧ reading.property.held? = p.held?
  json : ∀ d ps, ∃ written reading, c.writeJson p = .ok written ∧
    c.readJson written d ps = .ok reading ∧ reading.property.held? = p.held?

/-- The property holds the text `raw`, which the codec escapes in plain text, and any escaped text
is read as the text it stands for. -/
structure Escapes (c : Codec) (p : Property) (raw : String) : Prop where
  held : p.held? = some (.text raw)
  write : c.writeText p .v4_0 = .ok (escape raw)
  read : ∀ t d ps, ∃ reading, c.readText (escape t) d .v4_0 ps = .ok reading ∧
    reading.property.held? = some (.text t)

/-! ### What is read of what was written -/

theorem HoldsPlainText.writeXml_eq (hc : c.HoldsPlainText) (hs : c.writeText p .v4_0 = .ok s)
    (hd : c.dataType p .v4_0 = .ok d) (e : Element) :
    c.writeXml p ⟨e, .v4_0⟩ =
      .ok (.emit (PropertyElement.append ⟨e, .v4_0⟩ d (.text s)).element) := by
  rw [writeText] at hs
  rw [dataType] at hd
  rw [writeXml, hc.encodeXml]
  simp only [TextFormat.encodeXml, hs, hd]
  rfl

theorem HoldsPlainText.writeJson_eq (hc : c.HoldsPlainText) (hs : c.writeText p .v4_0 = .ok s) :
    c.writeJson p = .ok (.single s) := by
  rw [writeText] at hs
  rw [writeJson, hc.encodeJson, TextFormat.encodeJson, hs]
  rfl

/-- An element is read as the escaped text of its first value of the default data type. -/
theorem HoldsPlainText.readXml_of_first? (hc : c.HoldsPlainText) {e : Element} (ps : Parameters)
    (hfirst : PropertyElement.first? ⟨e, .v4_0⟩ (c.defaultDataType .v4_0) = some s) :
    c.readXml ⟨e, .v4_0⟩ ps = c.readText (escape s) (c.defaultDataType .v4_0) .v4_0 ps := by
  rw [defaultDataType] at hfirst ⊢
  rw [readXml, hc.decodeXml]
  simp only [TextFormat.decodeXml, hfirst]
  rfl

theorem HoldsPlainText.readXml_of_first?_eq_none (hc : c.HoldsPlainText) {e : Element}
    (ps : Parameters)
    (hfirst : PropertyElement.first? ⟨e, .v4_0⟩ (c.defaultDataType .v4_0) = none) :
    c.readXml ⟨e, .v4_0⟩ ps = .error (.missingValueElement [c.defaultDataType .v4_0]) := by
  rw [defaultDataType] at hfirst ⊢
  rw [readXml, hc.decodeXml]
  simp only [TextFormat.decodeXml, hfirst]
  rfl

theorem HoldsPlainText.readJson_single (hc : c.HoldsPlainText) (d : Option DataType)
    (ps : Parameters) : c.readJson (.single s) d ps = c.readText (escape s) d .v4_0 ps := by
  rw [readJson, hc.decodeJson]
  rfl

/-- Escaping leaves a text without special characters as it is. -/
theorem ReadsAs.escape (h : c.ReadsAs p s) (hs : ∀ x ∈ s.toList, isSpecial x = false) :
    c.ReadsAs p (Text.escape s) := by
  rwa [escape_eq_self_iff.mpr hs]

/-- If texts are escaped, those that can be escaped once more are the ones without special
characters. -/
theorem Escapes.readsAs_escape_iff (h : c.Escapes p raw) :
    c.ReadsAs p (escape (escape raw)) ↔ ∀ x ∈ raw.toList, isSpecial x = false := by
  rw [← escape_eq_self_iff]
  constructor
  · intro hreads
    obtain ⟨reading, hread, hheld⟩ := hreads none .empty
    obtain ⟨reading', hread', hheld'⟩ := h.read (escape raw) none .empty
    rw [hread', Except.ok.injEq] at hread
    rw [← hread, hheld', h.held, Option.some.injEq, Holding.text.injEq] at hheld
    exact hheld
  · intro hraw d ps
    rw [hraw, h.held]
    exact h.read raw d ps

/-- What was written is read back just when it is read the same once it is escaped again, and the
value elements of its data type are those of the default one. -/
theorem HoldsPlainText.restores_iff_readsAs (hc : c.HoldsPlainText)
    (hs : c.writeText p .v4_0 = .ok s) (hd : c.dataType p .v4_0 = .ok d) :
    c.Restores p ↔
      PropertyElement.valueTag .v4_0 d =
        PropertyElement.valueTag .v4_0 (c.defaultDataType .v4_0) ∧
      c.ReadsAs p (escape s) := by
  constructor
  · intro h
    refine ⟨?_, fun d' ps ↦ ?_⟩
    · -- without a value of the default data type there is nothing to read
      by_contra htag
      obtain ⟨written, reading, hwrite, hread, -⟩ :=
        h.xml (.bare "" []) .empty (by simp [Element.bare])
      rw [hc.writeXml_eq hs hd, Except.ok.injEq, Outcome.emit.injEq] at hwrite
      rw [← hwrite, hc.readXml_of_first?_eq_none .empty
        (PropertyElement.first?_append_of_valueTag_ne (by simp [Element.bare]) htag s)] at hread
      exact absurd hread (by simp)
    · obtain ⟨written, reading, hwrite, hread, hheld⟩ := h.json d' ps
      rw [hc.writeJson_eq hs, Except.ok.injEq] at hwrite
      rw [← hwrite, hc.readJson_single] at hread
      exact ⟨reading, hread, hheld⟩
  · rintro ⟨htag, hreads⟩
    refine ⟨fun e ps he ↦ ?_, fun d' ps ↦ ?_⟩
    · obtain ⟨reading, hread, hheld⟩ := hreads (c.defaultDataType .v4_0) ps
      have hfirst := PropertyElement.first?_append_of_valueTag_eq he htag s
      exact ⟨_, reading, hc.writeXml_eq hs hd e, (hc.readXml_of_first? ps hfirst).trans hread, hheld⟩
    · obtain ⟨reading, hread, hheld⟩ := hreads d' ps
      exact ⟨_, reading, hc.writeJson_eq hs, (hc.readJson_single d' ps).trans hread, hheld⟩

/-- What a codec escapes it reads back from plain text. -/
theorem Escapes.readsAs (h : c.Escapes p raw) : c.ReadsAs p (escape raw) := fun d ps ↦ by
  rw [h.held]
  exact h.read raw d ps

/-- A codec that leaves XML and JSON to the plain text, and reads back from the plain text what it
wrote there, reads a property back from XML and JSON just when it reads the same from the plain text
once that is escaped again, and the value elements of the property's data type are those of the
default one. Nothing is lost of a plain text without special characters; if texts are escaped, none
but the texts without special characters come back. -/
theorem restores_iff (hc : c.HoldsPlainText) (hs : c.writeText p .v4_0 = .ok s)
    (hd : c.dataType p .v4_0 = .ok d) (hreads : c.ReadsAs p s) :
    (c.Restores p ↔
      PropertyElement.valueTag .v4_0 d =
        PropertyElement.valueTag .v4_0 (c.defaultDataType .v4_0) ∧
      c.ReadsAs p (escape s)) ∧
    ((∀ x ∈ s.toList, isSpecial x = false) → c.ReadsAs p (escape s)) ∧
    ∀ raw, c.Escapes p raw →
      (c.ReadsAs p (escape s) ↔ ∀ x ∈ raw.toList, isSpecial x = false) := by
  refine ⟨hc.restores_iff_readsAs hs hd, hreads.escape, fun raw hraw ↦ ?_⟩
  obtain rfl : escape raw = s := Except.ok.inj (hraw.write.symm.trans hs)
  exact hraw.readsAs_escape_iff

/-! ### Notes -/

theorem holdsPlainText_note : Codec.note.HoldsPlainText := ⟨rfl, rfl, rfl, rfl⟩

theorem escapes_note (raw : String) :
    Codec.note.Escapes (Property.ofText .note (some raw)) raw := by
  refine ⟨rfl, rfl, fun t d ps ↦ ⟨_, rfl, ?_⟩⟩
  show (Property.ofTextLike .note (unescape (escape t))).held? = _
  rw [unescape_escape]
  rfl

/-- A note whose text has a special character. -/
theorem restores_iff_note :
    let p := Property.ofText .note (some "tea; cake")
    Codec.note.HoldsPlainText ∧ Codec.note.writeText p .v4_0 = .ok (escape "tea; cake") ∧
    Codec.note.dataType p .v4_0 = .ok (some .text) ∧ Codec.note.ReadsAs p (escape "tea; cake") ∧
    (Codec.note.Restores p ↔
      PropertyElement.valueTag .v4_0 (some .text) =
        PropertyElement.valueTag .v4_0 (Codec.note.defaultDataType .v4_0) ∧
      Codec.note.ReadsAs p (escape (escape "tea; cake"))) ∧
    ((∀ x ∈ (escape "tea; cake").toList, isSpecial x = false) →
      Codec.note.ReadsAs p (escape (escape "tea; cake"))) ∧
    ∀ raw, Codec.note.Escapes p raw →
      (Codec.note.ReadsAs p (escape (escape "tea; cake")) ↔
        ∀ x ∈ raw.toList, isSpecial x = false) := by
  intro p
  have hd : Codec.note.dataType p .v4_0 = .ok (some .text) := by
    decide +kernel
  exact ⟨holdsPlainText_note, rfl, hd, (escapes_note _).readsAs,
    restores_iff holdsPlainText_note rfl hd (escapes_note _).readsAs⟩

/-- Of a note with a comma, and of one that is a URN, not the same is read back, though the codec of
notes leaves XML and JSON to its plain text and reads back what it wrote there. The comma comes back
escaped, and the URN is written as a value of another data type than the one that is looked for. -/
theorem notes_not_restored :
    Codec.note.HoldsPlainText ∧
    (∀ raw, Codec.note.writeText (.ofText .note (some raw)) .v4_0 = .ok (escape raw) ∧
      Codec.note.ReadsAs (.ofText .note (some raw)) (escape raw)) ∧
    ¬ Codec.note.Restores (.ofText .note (some "a,b")) ∧
    ¬ Codec.note.Restores (.ofText .note (some "urn:a")) := by
  refine ⟨holdsPlainText_note, fun raw ↦ ⟨rfl, (escapes_note raw).readsAs⟩, fun h ↦ ?_, fun h ↦ ?_⟩
  · have hd : Codec.note.dataType (.ofText .note (some "a,b")) .v4_0 = .ok (some .text) := by
      decide +kernel
    have hreads := ((holdsPlainText_note.restores_iff_readsAs rfl hd).mp h).2
    exact absurd ((escapes_note "a,b").readsAs_escape_iff.mp hreads) (by decide)
  · have hd : Codec.note.dataType (.ofText .note (some "urn:a")) .v4_0 = .ok (some .uri) := by
      decide +kernel
    have htag := ((holdsPlainText_note.restores_iff_readsAs rfl hd).mp h).1
    exact absurd htag (by decide +kernel)

end Codec

/-! ### Extension properties -/

/-- The codec of an extension property writes its text into JSON as it is, and reads it with the
special characters escaped. -/
theorem readJson_extension (name s : String) (d : Option DataType) (ps : Parameters) :
    (Codec.extension name).readJson (.single s) d ps =
      .ok (Codec.withParameters ps
        (Format.extensionReading (Codec.extension name).subject (escape s) d)) := rfl

/-- HTML is read likewise. -/
theorem readHtml_extension (name : String) (n : PropertyNode) :
    (Codec.extension name).readHtml n =
      .ok (Format.extensionReading (Codec.extension name).subject (escape n.value) none) := rfl

/-- The name of an extension property that is read. -/
theorem name_extensionReading (name s : String) (d : Option DataType) :
    (Format.extensionReading (Codec.extension name).subject s d).property.name =
      some (toUpper name) := by
  show some (toUpper (toUpper name)) = _
  rw [toUpper_toUpper]

theorem escaped_value_iff (s : String) :
    (Except.ok (some (escape s)) : Except Fault (Option String)) = .ok (some s) ↔
      ∀ x ∈ s.toList, isSpecial x = false := by
  rw [Except.ok.injEq, Option.some.injEq, escape_eq_self_iff]

/-- An extension property, whose name is in upper case and has no codec of its own, is read back from
JSON with its name, and with its text just when that has no special character. Likewise the text of
an HTML element is what is read from it just when it has no special character. -/
theorem extension_restored_iff {p : Property} {c : Codec} {name s : String} {d : Option DataType}
    (hcls : p.cls = .extension) (hname : p.name = some (toUpper name))
    (hcontent : p.content = .extension (some s) d)
    (hnew : Registry.standard.byName.get? (toUpper name) = none)
    (hcodec : Registry.standard.codecOfProperty p = .ok c) :
    (∃ written, c.writeJson p = .ok written ∧ ∀ d ps, ∃ reading,
      c.readJson written d ps = .ok reading ∧ reading.property.name = p.name ∧
      (reading.property.value = p.value ↔ ∀ x ∈ s.toList, isSpecial x = false)) ∧
    ∀ n : PropertyNode, ∃ reading, c.readHtml n = .ok reading ∧
      reading.property.name = p.name ∧
      (reading.property.value = .ok (some n.value) ↔
        ∀ x ∈ n.value.toList, isSpecial x = false) := by
  have hvalue : p.value = .ok (some s) := by rw [Property.value, hcontent]
  rw [codecOfProperty_extension hcls hname (by rwa [toUpper_toUpper]), Except.ok.injEq] at hcodec
  subst hcodec
  have hread : ∀ t d,
      (Format.extensionReading (Codec.extension (toUpper name)).subject t d).property.name =
        p.name := fun t d ↦ by
    rw [name_extensionReading, toUpper_toUpper, hname]
  have hwrite : (Codec.extension (toUpper name)).writeJson p = .ok (.single s) := by
    show p.value.map _ = _
    rw [hvalue]
    rfl
  refine ⟨⟨_, hwrite, fun d ps ↦ ⟨_, readJson_extension _ s d ps, hread (escape s) d, ?_⟩⟩,
    fun n ↦ ⟨_, readHtml_extension _ n, hread (escape n.value) none,
      escaped_value_iff n.value⟩⟩
  rw [hvalue]
  exact escaped_value_iff s

/-- A motto with a semicolon. -/
theorem extension_restored_iff_motto :
    let p := Property.ofExtension "x-motto" (some "tea; cake") none
    let c := Codec.extension (toUpper "x-motto")
    p.cls = .extension ∧ p.name = some (toUpper "x-motto") ∧
    p.content = .extension (some "tea; cake") none ∧
    Registry.standard.byName.get? (toUpper "x-motto") = none ∧
    Registry.standard.codecOfProperty p = .ok c ∧
    (∃ written, c.writeJson p = .ok written ∧ ∀ d ps, ∃ reading,
      c.readJson written d ps = .ok reading ∧ reading.property.name = p.name ∧
      (reading.property.value = p.value ↔ ∀ x ∈ "tea; cake".toList, isSpecial x = false)) ∧
    ∀ n : PropertyNode, ∃ reading, c.readHtml n = .ok reading ∧
      reading.property.name = p.name ∧
      (reading.property.value = .ok (some n.value) ↔
        ∀ x ∈ n.value.toList, isSpecial x = false) := by
  intro p c
  have hnew : Registry.standard.byName.get? (toUpper "x-motto") = none := rfl
  have hcodec : Registry.standard.codecOfProperty p = .ok c :=
    codecOfProperty_extension rfl rfl (by rwa [toUpper_toUpper])
  exact ⟨rfl, rfl, rfl, hnew, hcodec, extension_restored_iff rfl rfl rfl hnew hcodec⟩

/-- A comma in an extension property comes back from JSON with a backslash before it, and so does one
in an HTML element. -/
theorem extension_with_comma_changed :
    let p := Property.ofExtension "X-A" (some "a,b") none
    let n : PropertyNode := ⟨"span", ∅, [.text "a,b"], none⟩
    ∃ c written reading fromHtml, Registry.standard.codecOfProperty p = .ok c ∧
      c.writeJson p = .ok written ∧ c.readJson written none .empty = .ok reading ∧
      reading.property.value ≠ p.value ∧
      c.readHtml n = .ok fromHtml ∧ n.value = "a,b" ∧
      fromHtml.property.value ≠ .ok (some n.value) := by
  intro p n
  have hcomma : ¬ ∀ x ∈ "a,b".toList, isSpecial x = false := by decide
  have hn : n.value = "a,b" := by decide +kernel
  refine ⟨_, _, _, _, codecOfProperty_extension rfl rfl rfl, rfl, readJson_extension _ "a,b" none _,
    fun h ↦ hcomma ((escaped_value_iff _).mp h), readHtml_extension _ n, hn, fun h ↦ ?_⟩
  rw [hn] at h
  exact hcomma ((escaped_value_iff _).mp h)

end ContactCard
