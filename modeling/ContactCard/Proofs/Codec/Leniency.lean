import ContactCard.Proofs.Codec.Binary
import ContactCard.Proofs.NamedValue
import ContactCard.Proofs.Number.Integer

/-!
# Resources that are read from any text

Reading a resource from a text never fails (`resource_read_from_any`): whatever the text, the data
type and the parameters are, there is a URL or there are bytes. In the old versions a data type that
says that the value is a URL comes first, then an encoding that says that it is base64, then the look
of the text; where none of them decides (`IsUnmarked`), the text is decoded all the same, and this is
what is warned about. In the last version the text alone decides.

From JSON a resource is read if the first of its values can be written as text. A number of too many
digits cannot (`long_number_not_read`).
-/

namespace ContactCard

open Text

/-! ### What data types and encodings say -/

theorem isUrlDataType_iff {d : Option DataType} : isUrlDataType d = true ↔
    ∃ t, d = some t ∧ (toLower t.name = "url" ∨ toLower t.name = "uri") := by
  have hlower : toLower "url" = "url" ∧ toLower "uri" = "uri" := by decide +kernel
  cases d with
  | none => simp [isUrlDataType]
  | some t =>
    have hurl : t.same .url = true ↔ toLower t.name = "url" := by
      rw [← hlower.1]
      exact NamedValue.same_iff rfl
    have huri : t.same .uri = true ↔ toLower t.name = "uri" := by
      rw [← hlower.2]
      exact NamedValue.same_iff rfl
    simp [isUrlDataType, hurl, huri]

theorem isBase64_encoding?_iff {ps : Parameters} :
    ps.encoding?.elim false Encoding.isBase64 = true ↔
      ∃ e, ps.get? "encoding" = some e ∧ (toLower e = "base64" ∨ toLower e = "b") := by
  have hlower : toLower "BASE64" = "base64" ∧ toLower "b" = "b" := by decide +kernel
  rw [Parameters.encoding?]
  cases ps.get? "encoding" with
  | none => simp
  | some e =>
    have hbase64 : (Encoding.ofName e).same .base64 = true ↔ toLower e = "base64" := by
      rw [← hlower.1, ← Encoding.toLower_name_ofName e]
      exact NamedValue.same_iff rfl
    have hb : (Encoding.ofName e).same .b = true ↔ toLower e = "b" := by
      rw [← hlower.2, ← Encoding.toLower_name_ofName e]
      exact NamedValue.same_iff rfl
    simp [Encoding.isBase64, hbase64, hb]

/-! ### What decides -/

/-- The text is in one of the old versions, and neither its data type nor its first encoding nor its
own beginning says what it stands for. -/
structure IsUnmarked (v : Version) (d : Option DataType) (ps : Parameters) (s : String) :
    Prop where
  version : v = .v2_1 ∨ v = .v3_0
  dataType : ∀ t, d = some t → toLower t.name ≠ "url" ∧ toLower t.name ≠ "uri"
  encoding : ∀ e, ps.get? "encoding" = some e → toLower e ≠ "base64" ∧ toLower e ≠ "b"
  text : ¬"http".toList <+: s.toList

/-- The property holds a URL or bytes, but not both. -/
def Property.HoldsOneForm (p : Property) : Prop :=
  (∃ s, p.url = .ok (some s) ∧ p.data = .ok none) ∨
    ∃ bytes, p.url = .ok none ∧ p.data = .ok (some bytes)

/-- A property of the class was read that holds a resource in one form and carries the parameters,
with one warning at most. -/
structure Reading.IsDecided (reading : Reading) (c : PropertyClass) (ps : Parameters) : Prop where
  cls : reading.property.cls = c
  form : reading.property.HoldsOneForm
  parameters : reading.property.parameters = ps
  warnings : reading.warnings.length ≤ 1

variable {k : MediaClass} {subject : Subject} {s : String} {d : Option DataType} {v : Version}
  {ps : Parameters}

theorem holdsOneForm_url (c : PropertyClass) (s : String) (t : Option MediaType) :
    (Property.ofResource c (.url s) t).HoldsOneForm := .inl ⟨s, rfl, rfl⟩

theorem holdsOneForm_data (c : PropertyClass) (bytes : List UInt8) (t : Option MediaType) :
    (Property.ofResource c (.data bytes) t).HoldsOneForm := .inr ⟨bytes, rfl, rfl⟩

/-- In the old versions the first thing that says something decides. -/
theorem decodeLegacy_cases (t : Option MediaType) (hv : v.isLegacy = true) :
    (decodeLegacy subject t s d ps).property.cls = subject.target ∧
    (decodeLegacy subject t s d ps).property.HoldsOneForm ∧
    ((decodeLegacy subject t s d ps).warnings = [] ∧ ¬IsUnmarked v d ps s ∨
      (decodeLegacy subject t s d ps).warnings = [noEncodingWarning subject.name] ∧
        IsUnmarked v d ps s) := by
  rw [decodeLegacy]
  split
  · next hurl =>
    obtain ⟨u, rfl, hu⟩ := isUrlDataType_iff.mp hurl
    refine ⟨rfl, holdsOneForm_url .., .inl ⟨rfl, fun h ↦ ?_⟩⟩
    exact hu.elim (h.dataType u rfl).1 (h.dataType u rfl).2
  next hurl =>
  split
  · next hbase64 =>
    obtain ⟨e, he, hname⟩ := isBase64_encoding?_iff.mp hbase64
    refine ⟨rfl, holdsOneForm_data .., .inl ⟨rfl, fun h ↦ ?_⟩⟩
    exact hname.elim (h.encoding e he).1 (h.encoding e he).2
  next hbase64 =>
  split
  · next hlooks =>
    refine ⟨rfl, holdsOneForm_url .., .inl ⟨rfl, fun h ↦ ?_⟩⟩
    exact h.text (List.isPrefixOf_iff_prefix.mp hlooks)
  next hlooks =>
  refine ⟨rfl, holdsOneForm_data .., .inr ⟨rfl, ?_, fun u hu ↦ ?_, fun e he ↦ ?_, fun h ↦ ?_⟩⟩
  · cases v with
    | v2_1 => exact .inl rfl
    | v3_0 => exact .inr rfl
    | v4_0 => exact absurd hv (by decide)
  · exact not_or.mp fun h ↦ hurl (isUrlDataType_iff.mpr ⟨u, hu, h⟩)
  · exact not_or.mp fun h ↦ hbase64 (isBase64_encoding?_iff.mpr ⟨e, he, h⟩)
  · exact hlooks (List.isPrefixOf_iff_prefix.mpr h)

/-- In the last version a text that is no data URI is a URL. -/
theorem decodeCurrent_cases (subject : Subject) (k : MediaClass) (t : Option MediaType)
    (s : String) :
    (decodeCurrent subject k t s).property.cls = subject.target ∧
    (decodeCurrent subject k t s).property.HoldsOneForm ∧
    (decodeCurrent subject k t s).warnings = [] := by
  rw [decodeCurrent]
  split
  · exact ⟨rfl, holdsOneForm_data .., rfl⟩
  · exact ⟨rfl, holdsOneForm_url .., rfl⟩

/-- Every text is read as a resource, and there is a warning just when nothing says which. -/
theorem decodeResource_cases :
    (decodeResource k subject s d v ps).property.cls = subject.target ∧
    (decodeResource k subject s d v ps).property.HoldsOneForm ∧
    ((decodeResource k subject s d v ps).warnings = [] ∧ ¬IsUnmarked v d ps s ∨
      (decodeResource k subject s d v ps).warnings = [noEncodingWarning subject.name] ∧
        IsUnmarked v d ps s) := by
  rw [decodeResource]
  simp only [BinaryPolicy.isLegacy_of]
  split
  · next hv => exact decodeLegacy_cases _ hv
  · next hv =>
    obtain ⟨hcls, hform, hwarnings⟩ :=
      decodeCurrent_cases subject k (describedContentType (.of v) k ps) s
    refine ⟨hcls, hform, .inl ⟨hwarnings, fun h ↦ ?_⟩⟩
    rcases h.version with rfl | rfl <;> exact hv rfl

theorem isDecided_decodeResource :
    (Codec.withParameters ps (decodeResource k subject s d v ps)).IsDecided subject.target ps ∧
      ((Codec.withParameters ps (decodeResource k subject s d v ps)).warnings ≠ [] ↔
        IsUnmarked v d ps s) := by
  obtain ⟨hcls, hform, hwarnings⟩ := @decodeResource_cases k subject s d v ps
  have hsame : (Codec.withParameters ps (decodeResource k subject s d v ps)).warnings =
      (decodeResource k subject s d v ps).warnings := rfl
  rcases hwarnings with ⟨hnone, hmarked⟩ | ⟨hone, hunmarked⟩
  · rw [hsame, hnone]
    exact ⟨⟨hcls, hform, rfl, by rw [hsame, hnone]; exact Nat.zero_le 1⟩,
      iff_of_false (fun h ↦ h rfl) hmarked⟩
  · rw [hsame, hone]
    exact ⟨⟨hcls, hform, rfl, by rw [hsame, hone]; exact Nat.le_refl 1⟩,
      iff_of_true (by simp) hunmarked⟩

/-! ### Every text and every JSON value -/

theorem readJson_resource {c : Codec} (hc : c.format = .binary k) (j : JCardValue)
    (d : Option DataType) (ps : Parameters) :
    c.readJson j d ps = ((Fault.lift j.asSingle).map fun s ↦
      decodeResource k c.subject s d .v4_0 ps).map (Codec.withParameters ps) := by
  rw [Codec.readJson, hc]
  rfl

/-- A codec of resources reads every text, in every version, and every JSON value whose first item can
be written, whatever the data type and the parameters are. What it reads is a URL or bytes, and
carries the parameters. There is one warning at most, and only for texts of the old versions that
nothing says anything about. A JSON value whose first item cannot be written is refused. -/
theorem resource_read_from_any {c : Codec} (hc : c.format = .binary k) (d : Option DataType)
    (ps : Parameters) :
    (∀ s v, ∃ reading, c.readText s d v ps = .ok reading ∧
      reading.IsDecided c.subject.target ps ∧
      (reading.warnings ≠ [] ↔ IsUnmarked v d ps (unescape s))) ∧
    ∀ j, ((JCardValue.firstOf j.items).isWritable = true →
        ∃ reading, c.readJson j d ps = .ok reading ∧
          reading.IsDecided c.subject.target ps ∧ reading.warnings = []) ∧
      ((JCardValue.firstOf j.items).isWritable = false →
        c.readJson j d ps = .error (.fault .tooManyDigits)) := by
  constructor
  · intro s v
    refine ⟨_, ?_, isDecided_decodeResource (k := k) (s := unescape s) (d := d) (v := v)⟩
    rw [Codec.readText, hc]
    rfl
  · intro j
    rw [readJson_resource hc]
    rcases j.asSingle_cases with ⟨⟨s, hs⟩, hwritable⟩ | ⟨hf, hunwritable⟩
    · refine ⟨fun _ ↦ ?_, fun hnot ↦ absurd (hwritable.symm.trans hnot) nofun⟩
      obtain ⟨hdecided, hwarnings⟩ := @isDecided_decodeResource k c.subject s d .v4_0 ps
      refine ⟨_, by rw [hs]; rfl, hdecided, ?_⟩
      by_contra hne
      rcases (hwarnings.mp hne).version with h | h <;> exact absurd h (by decide)
    · refine ⟨fun hwritable ↦ absurd (hwritable.symm.trans hunwritable) nofun, fun _ ↦ ?_⟩
      rw [hf]
      rfl

/-- Garbage that nothing says anything about is decoded with a warning, an empty text with the
encoding in capitals without one, and so is a nested JSON value. -/
theorem resource_read_from_any_photo :
    let text := Parameters.empty.assign "value" (some "text")
    let base64 := Parameters.empty.assign "encoding" (some "BASE64")
    Codec.photo.format = .binary .image ∧
    (∃ reading, Codec.photo.readText "@,é" (some .text) .v2_1 text = .ok reading ∧
      reading.IsDecided .photo text ∧ reading.warnings ≠ []) ∧
    (∃ reading, Codec.photo.readText "" none .v3_0 base64 = .ok reading ∧
      reading.IsDecided .photo base64 ∧ reading.warnings = []) ∧
    ∃ reading, Codec.photo.readJson ⟨[.list [.map [], .null]]⟩ none text = .ok reading ∧
      reading.IsDecided .photo text ∧ reading.warnings = [] := by
  intro text base64
  refine ⟨rfl, ?_, ?_, ?_⟩
  · obtain ⟨reading, hread, hdecided, hwarned⟩ :=
      (resource_read_from_any (c := .photo) rfl (some .text) text).1 "@,é" .v2_1
    refine ⟨reading, hread, hdecided, hwarned.mpr ⟨.inl rfl, ?_, ?_, by decide +kernel⟩⟩
    · rintro t ⟨⟩
      decide +kernel
    · intro e he
      have hnone : text.get? "encoding" = none := by decide +kernel
      exact absurd (hnone.symm.trans he) (by simp)
  · obtain ⟨reading, hread, hdecided, hwarned⟩ :=
      (resource_read_from_any (c := .photo) rfl none base64).1 "" .v3_0
    refine ⟨reading, hread, hdecided, not_not.mp fun hne ↦ ?_⟩
    exact ((hwarned.mp hne).encoding "BASE64" (by decide +kernel)).1 (by decide +kernel)
  · exact ((resource_read_from_any (c := .photo) rfl none text).2 ⟨[.list [.map [], .null]]⟩).1 rfl

/-- The first number that has too many digits is not read as a resource. -/
theorem long_number_not_read :
    let j : JCardValue := ⟨[.int Integer.firstTooLong]⟩
    Codec.photo.format = .binary .image ∧
      Codec.photo.readJson j none .empty = .error (.fault .tooManyDigits) := by
  intro j
  have hsingle : j.asSingle = .error .tooManyDigits :=
    Value.toText_int_of_isWritable_eq_false Integer.isWritable_firstTooLong
  refine ⟨rfl, ?_⟩
  rw [readJson_resource rfl, hsingle]
  rfl

end ContactCard
