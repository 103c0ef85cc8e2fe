import ContactCard.Proofs.Codec.Conversion

/-!
# Links in plain text

A resource that is linked is written as its URL, and what is read is unescaped first. No parameter
that was stored has a say in this, since those that decide are prepared anew in each version. But
nothing escapes the URL when it is written, so a link is given back exactly if unescaping leaves its
URL alone (`link_restored_iff`). In the last version, where the text alone decides, what unescaping
leaves may even be a data URI, so that the link is taken for bytes.
-/

namespace ContactCard

open Text

/-- The property links to the URL and holds no bytes. -/
structure Property.LinksTo (p : Property) (s : String) : Prop where
  url : p.url = .ok (some s)
  data : p.data = .ok none

variable {c : PropertyClass} {k : MediaClass} {t : Option MediaType}

theorem linksTo_ofResource_iff {a b : String} :
    (Property.ofResource c (.url a) t).LinksTo b ↔ a = b := by
  constructor
  · intro h
    exact Option.some.inj (Except.ok.inj h.url)
  · rintro rfl
    exact ⟨rfl, rfl⟩

theorem not_linksTo_data (bytes : List UInt8) (s : String) :
    ¬(Property.ofResource c (.data bytes) t).LinksTo s := by
  intro h
  have hnone : some bytes = none := Except.ok.inj h.data
  exact absurd hnone (by simp)

theorem linksTo_withParameters {ps : Parameters} {reading : Reading} {s : String} :
    (Codec.withParameters ps reading).property.LinksTo s ↔ reading.property.LinksTo s :=
  ⟨fun h ↦ ⟨h.url, h.data⟩, fun h ↦ ⟨h.url, h.data⟩⟩

/-- With the parameters that were prepared for a link every text is read as a link, unless it is a
data URI in the last version. -/
theorem decodeResource_link_cases (k : MediaClass) (subject : Subject) (s text : String)
    (t : Option MediaType) (ps : Parameters) (v : Version) :
    let prepared := preparedParameters v (.url s) t ps
    (∃ u, decodeResource k subject text prepared.valueType? v prepared =
      ⟨.ofResource subject.target (.url text) u, []⟩) ∨
    ∃ uri u, DataUri.ofText text = .ok uri ∧
      decodeResource k subject text prepared.valueType? v prepared =
        ⟨.ofResource subject.target (.data uri.data) u, []⟩ := by
  intro prepared
  rw [decodeResource]
  simp only [BinaryPolicy.isLegacy_of]
  cases hv : v.isLegacy with
  | true =>
    have hurl : isUrlDataType prepared.valueType? = true := valueType?_prepared_url t ps hv s
    rw [if_pos rfl, decodeLegacy, if_pos hurl]
    exact .inl ⟨_, rfl⟩
  | false =>
    rw [if_neg Bool.false_ne_true, decodeCurrent]
    cases DataUri.ofText text with
    | error e => exact .inl ⟨_, rfl⟩
    | ok uri => exact .inr ⟨uri, _, rfl, rfl⟩

/-- A link that is written as plain text is always read as a property of its class. It is read as
the same link, in whichever version, exactly if no backslash stands before the last character of its
URL. -/
theorem link_restored_iff (hc : (c, k) ∈ binaryClasses) {p : Property} (hp : p.cls = c) {s : String}
    (hcontent : p.content = .binary (.url s) t) (hs : DataUri.ofChars? s.toList = none)
    (v : Version) :
    ∃ reading, Registry.standard.convert p (.text v) = .ok reading ∧ reading.property.cls = c ∧
      (reading.property.LinksTo s ↔ '\\' ∉ s.toList.dropLast) := by
  obtain ⟨label, hcodec⟩ := codecOfProperty_of_mem hc hp
  refine ⟨_, convert_text_eq hcontent hcodec v, ?_⟩
  rw [linksTo_withParameters, encodeResource]
  rcases decodeResource_link_cases k ⟨c, c.name⟩ s (unescape s) t p.parameters v with
    ⟨u, hread⟩ | ⟨uri, u, huri, hread⟩
  · rw [hread, linksTo_ofResource_iff]
    exact ⟨rfl, unescape_eq_self_iff⟩
  · rw [hread]
    refine ⟨rfl, iff_of_false (not_linksTo_data _ _) fun hplain ↦ ?_⟩
    -- the URL itself is no data URI, so it was changed
    obtain ⟨e, he⟩ := DataUri.ofText_of_ofChars?_eq_none hs
    rw [unescape_eq_self_iff.mpr hplain, he] at huri
    exact absurd huri (by simp)

/-- A sound keeps its link whatever parameters are stored with it, and a logo keeps one that ends in
a backslash. -/
theorem link_restored_iff_sound :
    let url := "http://example.com/a,b;c.ogg"
    let sound := { Property.ofResource .sound (.url url) none with
      parameters := (Parameters.empty.assign "encoding" (some "b")).assign "value" (some "text") }
    let ending := "http://example.com/\\"
    let type := MediaType.new .image none (some "image/x") none
    let logo := Property.ofResource .logo (.url ending) (some type)
    ((PropertyClass.sound, MediaClass.sound) ∈ binaryClasses ∧ sound.cls = .sound ∧
      DataUri.ofChars? url.toList = none ∧
      ∀ v, ∃ reading, Registry.standard.convert sound (.text v) = .ok reading ∧
        reading.property.LinksTo url) ∧
    ∀ v, ∃ reading, Registry.standard.convert logo (.text v) = .ok reading ∧
      reading.property.LinksTo ending := by
  intro url sound ending type logo
  have hproper : DataUri.ofChars? url.toList = none := by decide +kernel
  refine ⟨⟨by decide, rfl, hproper, fun v ↦ ?_⟩, fun v ↦ ?_⟩
  · obtain ⟨reading, hread, -, hlinks⟩ :=
      link_restored_iff (k := .sound) (p := sound) (by decide) rfl rfl hproper v
    exact ⟨reading, hread, hlinks.mpr (by decide +kernel)⟩
  · obtain ⟨reading, hread, -, hlinks⟩ :=
      link_restored_iff (k := .image) (p := logo) (s := ending) (by decide) rfl rfl
        (by decide +kernel) v
    exact ⟨reading, hread, hlinks.mpr (by decide +kernel)⟩

/-- Unescaping takes a backslash from a URL, and makes a data URI of one that was none. -/
theorem links_with_backslash_changed :
    let url := "http://example.com/a\\b"
    let photo := Property.ofResource .photo (.url url) none
    let escaped := "\\data:image/png;base64,QUJD"
    let embedded := Property.ofResource .photo (.url escaped) none
    (DataUri.ofChars? url.toList = none ∧
      ∃ reading, Registry.standard.convert photo (.text .v3_0) = .ok reading ∧
        reading.property.url = .ok (some "http://example.com/ab") ∧
        ¬reading.property.LinksTo url) ∧
    DataUri.ofChars? escaped.toList = none ∧
      ∃ reading, Registry.standard.convert embedded (.text .v4_0) = .ok reading ∧
        reading.property.data = .ok (some [65, 66, 67]) ∧ ¬reading.property.LinksTo escaped := by
  intro url photo escaped embedded
  have hphoto := convert_text_eq (c := .photo) (k := .image) (p := photo) rfl
    (codecOfProperty_of_class rfl) .v3_0
  have hembedded := convert_text_eq (c := .photo) (k := .image) (p := embedded) rfl
    (codecOfProperty_of_class rfl) .v4_0
  have hproper : DataUri.ofChars? url.toList = none ∧ DataUri.ofChars? escaped.toList = none := by
    decide +kernel
  refine ⟨⟨hproper.1, _, hphoto, by decide +kernel, fun h ↦ ?_⟩, hproper.2, _, hembedded,
    by decide +kernel, fun h ↦ ?_⟩
  · exact absurd h.url (by decide +kernel)
  · exact absurd h.data (by decide +kernel)

end ContactCard
