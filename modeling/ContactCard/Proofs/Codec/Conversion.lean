import ContactCard.Proofs.Codec.Binary
import ContactCard.Proofs.Codec.Registry

/-!
# Converting properties between forms

A conversion writes a property in one form and reads it back, with the parameters that were
prepared for that form. Every conversion leaves its parameters with the property that was read, so
in a run of conversions what one form needs to know stands beside what all the earlier ones left
behind.

A binary property comes through every run unharmed (`convertAll_eq_ok`). The invariant of a run is
that the property holds the given resource and content type (`Property.Holds`); nothing needs to be
known about its parameters, because each form prepares those that it reads.
-/

namespace ContactCard

open Xml

/-- A form to write a property in: plain text of a version, an XML element of the given tag, or
JSON. -/
inductive Conversion where
  | text (v : Version)
  | xml (tag : String)
  | json
  deriving DecidableEq

namespace Registry

/-- Writes a property in a form and reads it back. -/
def convert (r : Registry) (p : Property) : Conversion → Except Error Reading
  | .text v => do
    let c ← Fault.lift (r.codecOfProperty p)
    let ps ← Fault.lift (c.prepareParameters p v)
    let s ← Fault.lift (c.writeText p v)
    c.readText s ps.valueType? v ps
  | .xml tag => do
    let c ← Fault.lift (r.codecOfProperty p)
    let ps ← Fault.lift (c.prepareParameters p .v4_0)
    match ← Fault.lift (c.writeXml p ⟨.bare tag [], .v4_0⟩) with
    | .emit e => c.readXml ⟨e, .v4_0⟩ ps
    | .omit _ | .unsupported _ => c.readXml ⟨.bare tag [], .v4_0⟩ ps
  | .json => do
    let c ← Fault.lift (r.codecOfProperty p)
    let ps ← Fault.lift (c.prepareParameters p .v4_0)
    let j ← Fault.lift (c.writeJson p)
    c.readJson j ps.valueType? ps

/-- Converts a property step by step, and gives what was read after each step. -/
def convertAll (r : Registry) : Property → List Conversion → Except Error (List Reading)
  | _, [] => .ok []
  | p, step :: steps => do
    let reading ← r.convert p step
    let rest ← r.convertAll reading.property steps
    return reading :: rest

end Registry

/-! ### One conversion -/

/-- The classes of binary properties that have codecs, with the classes of their content types. -/
def binaryClasses : List (PropertyClass × MediaClass) :=
  [(.photo, .image), (.logo, .image), (.sound, .sound)]

/-- The property is of class `c` and holds the resource and the content type. -/
structure Property.Holds (p : Property) (c : PropertyClass) (r : Resource) (t : MediaType) :
    Prop where
  cls : p.cls = c
  content : p.content = .binary r (some t)

theorem Property.Holds.ofResource (c : PropertyClass) (r : Resource) (t : MediaType)
    (ps : Parameters) : Property.Holds { ofResource c r (some t) with parameters := ps } c r t :=
  ⟨rfl, rfl⟩

theorem mem_binaryClasses {c : PropertyClass} {k : MediaClass} : (c, k) ∈ binaryClasses ↔
    c = .photo ∧ k = .image ∨ c = .logo ∧ k = .image ∨ c = .sound ∧ k = .sound := by
  simp [binaryClasses]

theorem mediaClass_of_mem {c : PropertyClass} {k : MediaClass} (h : (c, k) ∈ binaryClasses) :
    k ∈ [MediaClass.image, .sound] := by
  rcases mem_binaryClasses.mp h with ⟨-, rfl⟩ | ⟨-, rfl⟩ | ⟨-, rfl⟩ <;> decide

theorem exists_codec_of_mem_binaryClasses {c : PropertyClass} {k : MediaClass}
    (h : (c, k) ∈ binaryClasses) :
    ∃ label, Registry.standard.codecOfLineage? c = some (.binary label c k) := by
  rcases mem_binaryClasses.mp h with ⟨rfl, rfl⟩ | ⟨rfl, rfl⟩ | ⟨rfl, rfl⟩
  · exact ⟨"Photo", rfl⟩
  · exact ⟨"Logo", rfl⟩
  · exact ⟨"Sound", rfl⟩

theorem exists_name_of_mem_binaryClasses {c : PropertyClass} {k : MediaClass}
    (h : (c, k) ∈ binaryClasses) : ∃ name, c.name = some name := by
  rcases mem_binaryClasses.mp h with ⟨rfl, -⟩ | ⟨rfl, -⟩ | ⟨rfl, -⟩ <;> exact ⟨_, rfl⟩

/-- The codec of a binary property is that of its class. -/
theorem codecOfProperty_of_mem {c : PropertyClass} {k : MediaClass} (h : (c, k) ∈ binaryClasses)
    {p : Property} (hp : p.cls = c) :
    ∃ label, Registry.standard.codecOfProperty p = .ok (.binary label c k) := by
  obtain ⟨label, hclass⟩ := exists_codec_of_mem_binaryClasses h
  exact ⟨label, codecOfProperty_of_class (hp ▸ hclass)⟩

variable {c : PropertyClass} {k : MediaClass} {t : MediaType} {r : Resource}

/-- A reading of what a conversion should leave, with the parameters that were prepared. -/
def preservedReading (v : Version) (p : Property) (c : PropertyClass) (r : Resource)
    (t : MediaType) : Reading :=
  Codec.withParameters (preparedParameters v r (some t) p.parameters)
    ⟨.ofResource c r (some t), []⟩

/-- What comes out of plain text is what the escaped text is decoded to. -/
theorem convert_text_eq {p : Property} {t : Option MediaType} {label : String}
    (hp : p.content = .binary r t)
    (hcodec : Registry.standard.codecOfProperty p = .ok (.binary label c k)) (v : Version) :
    Registry.standard.convert p (.text v) =
      .ok (Codec.withParameters (preparedParameters v r t p.parameters)
        (decodeResource k ⟨c, c.name⟩ (Text.unescape (encodeResource (.of v) t r))
          (preparedParameters v r t p.parameters).valueType? v
          (preparedParameters v r t p.parameters))) := by
  have hprepare := Codec.prepareParameters_binary label c k hp v
  have hwrite : (Codec.binary label c k).writeText p v = .ok (encodeResource (.of v) t r) :=
    Format.encodeBinary_eq hp v
  rw [Registry.convert, hcodec]
  show (do
    let ps ← Fault.lift ((Codec.binary label c k).prepareParameters p v)
    let s ← Fault.lift ((Codec.binary label c k).writeText p v)
    (Codec.binary label c k).readText s ps.valueType? v ps) = _
  rw [hprepare, hwrite]
  rfl

section Forms

variable {p : Property} (hk : k ∈ [MediaClass.image, .sound])
  (ht : t ∈ Catalogs.standard.catalog k) (hr : r.IsProper) (hp : p.Holds c r t) {label : String}
  (hcodec : Registry.standard.codecOfProperty p = .ok (.binary label c k))

include hk ht hr hp hcodec

/-- Text is unescaped before it is decoded, so nothing that is written may need an escape. -/
theorem convert_text_eq_ok (hs : ∀ s, r = .url s → '\\' ∉ s.toList) (v : Version) :
    Registry.standard.convert p (.text v) = .ok (preservedReading v p c r t) := by
  have hplain := Text.unescape_of_not_mem (not_mem_encodeResource hk ht hs v)
  have hread : decodeResource k ⟨c, c.name⟩
      (Text.unescape (encodeResource (.of v) (some t) r))
      (preparedParameters v r (some t) p.parameters).valueType? v
      (preparedParameters v r (some t) p.parameters) = ⟨.ofResource c r (some t), []⟩ := by
    rw [hplain]
    cases hv : v.isLegacy with
    | true => exact decodeResource_prepared_legacy hk ht _ hr hv _
    | false =>
      obtain rfl : v = .v4_0 := by simpa [Version.isLegacy] using hv
      exact decodeResource_prepared_current hk ht _ hr _ _
  rw [convert_text_eq hp.content hcodec, hread]
  rfl

/-- The element that is read is the one that was written, with the value as its only child. -/
theorem convert_xml_eq_ok (tag : String) :
    Registry.standard.convert p (.xml tag) = .ok (preservedReading .v4_0 p c r t) := by
  have hread := decodeResource_prepared_current hk ht ⟨c, c.name⟩ hr (some .uri) p.parameters
  let element : PropertyElement := ⟨.bare tag [], .v4_0⟩
  let written := element.append (some .uri) (.text (encodeResource (.of .v4_0) (some t) r))
  have hprepare := Codec.prepareParameters_binary label c k hp.content .v4_0
  have hwrite : (Codec.binary label c k).writeXml p element = .ok (.emit written.element) := by
    show (do
      let s ← Format.encodeBinary p .v4_0
      return Outcome.emit (element.append (some .uri) (.text s)).element) = _
    rw [Format.encodeBinary_eq hp.content]
    rfl
  have hfirst : written.first? (some .uri) = some (encodeResource (.of .v4_0) (some t) r) :=
    PropertyElement.first?_append (by simp [element, Element.bare]) _
  have hdecode : Format.decodeXml (.binary k) ⟨c, c.name⟩ written
      (preparedParameters .v4_0 r (some t) p.parameters) =
        .ok ⟨.ofResource c r (some t), []⟩ := by
    simp only [Format.binary, hfirst]
    exact congrArg Except.ok hread
  rw [Registry.convert, hcodec]
  show (do
    let ps ← Fault.lift ((Codec.binary label c k).prepareParameters p .v4_0)
    match ← Fault.lift ((Codec.binary label c k).writeXml p element) with
    | .emit e => (Codec.binary label c k).readXml ⟨e, .v4_0⟩ ps
    | .omit _ | .unsupported _ => (Codec.binary label c k).readXml element ps) = _
  rw [hprepare, hwrite]
  exact congrArg (Except.map _) hdecode

theorem convert_json_eq_ok :
    Registry.standard.convert p .json = .ok (preservedReading .v4_0 p c r t) := by
  have hread := decodeResource_prepared_current hk ht ⟨c, c.name⟩ hr
    (preparedParameters .v4_0 r (some t) p.parameters).valueType? p.parameters
  have hprepare := Codec.prepareParameters_binary label c k hp.content .v4_0
  have hwrite : (Codec.binary label c k).writeJson p =
      .ok (.single (encodeResource (.of .v4_0) (some t) r)) := by
    show (Format.encodeBinary p .v4_0).map JCardValue.single = _
    rw [Format.encodeBinary_eq hp.content]
    rfl
  rw [Registry.convert, hcodec]
  show (do
    let ps ← Fault.lift ((Codec.binary label c k).prepareParameters p .v4_0)
    let j ← Fault.lift ((Codec.binary label c k).writeJson p)
    (Codec.binary label c k).readJson j ps.valueType? ps) = _
  rw [hprepare, hwrite, preservedReading, ← hread]
  rfl

end Forms

/-- Every conversion gives back the resource and the content type, without a warning. -/
theorem convert_eq_ok (hc : (c, k) ∈ binaryClasses) (ht : t ∈ Catalogs.standard.catalog k)
    (hr : r.IsProper) (hs : ∀ s, r = .url s → '\\' ∉ s.toList) {p : Property} (hp : p.Holds c r t)
    (step : Conversion) :
    ∃ reading, Registry.standard.convert p step = .ok reading ∧ reading.property.Holds c r t ∧
      reading.warnings = [] := by
  have hk := mediaClass_of_mem hc
  obtain ⟨label, hcodec⟩ := codecOfProperty_of_mem hc hp.cls
  have hholds (v : Version) : (preservedReading v p c r t).property.Holds c r t :=
    .ofResource c r t _
  cases step with
  | text v => exact ⟨_, convert_text_eq_ok hk ht hr hp hcodec hs v, hholds v, rfl⟩
  | xml tag => exact ⟨_, convert_xml_eq_ok hk ht hr hp hcodec tag, hholds .v4_0, rfl⟩
  | json => exact ⟨_, convert_json_eq_ok hk ht hr hp hcodec, hholds .v4_0, rfl⟩

/-! ### Runs of conversions -/

/-- After every step of every run of conversions the property is of the class that it was of and
holds the resource and the content type that it held, and nothing was warned about. -/
theorem convertAll_eq_ok (hc : (c, k) ∈ binaryClasses) (ht : t ∈ Catalogs.standard.catalog k)
    (hr : r.IsProper) (hs : ∀ s, r = .url s → '\\' ∉ s.toList) {p : Property} (hp : p.Holds c r t)
    (steps : List Conversion) :
    ∃ readings, Registry.standard.convertAll p steps = .ok readings ∧
      readings.length = steps.length ∧
      ∀ reading ∈ readings, reading.property.Holds c r t ∧ reading.warnings = [] := by
  induction steps generalizing p with
  | nil => exact ⟨[], rfl, rfl, by simp⟩
  | cons step steps ih =>
    obtain ⟨reading, hread, hholds, hwarn⟩ := convert_eq_ok hc ht hr hs hp step
    obtain ⟨readings, hall, hlength, hrest⟩ := ih hholds
    refine ⟨reading :: readings, ?_, by rw [List.length_cons, hlength, List.length_cons], ?_⟩
    · rw [Registry.convertAll, hread]
      show (do
        let rest ← Registry.standard.convertAll reading.property steps
        return reading :: rest) = _
      rw [hall]
      rfl
    · rintro other (_ | ⟨_, hmem⟩)
      · exact ⟨hholds, hwarn⟩
      · exact hrest other hmem

/-- A linked picture comes through all forms, with an ENCODING parameter that it should not have. -/
theorem convertAll_linked_png :
    let url := "http://example.com/a.png"
    let png := Catalogs.entry .image (some "PNG") (some "image/png") (some "png")
    let photo := { Property.ofResource .photo (.url url) (some png) with
      parameters := Parameters.empty.assign "encoding" (some "b") }
    ∃ readings, Registry.standard.convertAll photo
        [.text .v2_1, .json, .text .v4_0, .xml "photo", .text .v3_0] = .ok readings ∧
      readings.length = 5 ∧
      ∀ reading ∈ readings, reading.property.Holds .photo (.url url) png ∧
        reading.warnings = [] := by
  intro url png photo
  have hproper : DataUri.ofChars? url.toList = none := by decide +kernel
  have hplain : '\\' ∉ url.toList := by decide +kernel
  refine convertAll_eq_ok (k := .image) (t := png) (r := .url url) (by decide) (by decide +kernel)
    hproper ?_ ⟨rfl, rfl⟩ _
  rintro s ⟨⟩
  exact hplain

end ContactCard
