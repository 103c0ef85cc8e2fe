import ContactCard.Codec.Registry
import ContactCard.Proofs.DataUri
import ContactCard.Proofs.Parameters
import ContactCard.Proofs.Text.Escape

/-!
# Binary values as they are written and read

A resource that was written is read back, together with its content type, if the parameters that
were prepared for it come along (`decodeResource_prepared_current`,
`decodeResource_prepared_legacy`). In the old versions the TYPE, ENCODING and VALUE parameters
decide what a text is read as, and preparing sets or removes each of them whatever was stored. In
the last version the text itself decides, and only the content type of a URL comes from a
parameter.
-/

namespace ContactCard

open Text

/-! ### Catalogs -/

namespace Catalogs

variable {k : MediaClass} {t : MediaType}

/-- A catalogued content type is found again by its token. -/
theorem ofToken_of_mem (hk : k ∈ [MediaClass.image, .sound]) (ht : t ∈ standard.catalog k) :
    (t.token.map fun s ↦ standard.ofToken k (some s)) = some t :=
  (show ∀ k ∈ [MediaClass.image, .sound], ∀ t ∈ standard.catalog k,
    (t.token.map fun s ↦ standard.ofToken k (some s)) = some t by decide +kernel) k hk t ht

/-- A catalogued content type is found again by its media type. -/
theorem ofMediaType_of_mem (hk : k ∈ [MediaClass.image, .sound]) (ht : t ∈ standard.catalog k) :
    (t.mediaType.map fun s ↦ standard.ofMediaType k (some s)) = some t :=
  (show ∀ k ∈ [MediaClass.image, .sound], ∀ t ∈ standard.catalog k,
    (t.mediaType.map fun s ↦ standard.ofMediaType k (some s)) = some t by decide +kernel) k hk t ht

/-- A catalogued content type is found again by the media type that its data URIs name. -/
theorem namedContentType_of_mem (hk : k ∈ [MediaClass.image, .sound])
    (ht : t ∈ standard.catalog k) : namedContentType k (embeddedMediaType (some t)) = t :=
  (show ∀ k ∈ [MediaClass.image, .sound], ∀ t ∈ standard.catalog k,
    namedContentType k (embeddedMediaType (some t)) = t by decide +kernel) k hk t ht

/-- The media types of catalogs hold neither a marker nor a backslash. -/
theorem embeddedMediaType_of_mem (hk : k ∈ [MediaClass.image, .sound])
    (ht : t ∈ standard.catalog k) :
    DataUri.splitAtMarker? (embeddedMediaType (some t)).toList = none ∧
      '\\' ∉ (embeddedMediaType (some t)).toList :=
  (show ∀ k ∈ [MediaClass.image, .sound], ∀ t ∈ standard.catalog k,
    DataUri.splitAtMarker? (embeddedMediaType (some t)).toList = none ∧
      '\\' ∉ (embeddedMediaType (some t)).toList by decide +kernel) k hk t ht

end Catalogs

/-! ### Prepared parameters -/

/-- The parameters that are written along with a resource. -/
def preparedParameters (v : Version) (r : Resource) (t : Option MediaType) (ps : Parameters) :
    Parameters :=
  let b := BinaryPolicy.of v
  let d := b.dataType r
  let named := if DataType.sameOption d b.defaultDataType then none else d
  (b.describe r t ps).assign "value" (named.map DataType.name)

section Content

variable {p : Property} {r : Resource} {t : Option MediaType}

theorem Property.resource_eq (hp : p.content = .binary r t) : p.resource = .ok r := by
  rw [Property.resource, hp]

theorem Property.contentType_eq (hp : p.content = .binary r t) : p.contentType = .ok t := by
  rw [Property.contentType, hp]

theorem Format.encodeBinary_eq (hp : p.content = .binary r t) (v : Version) :
    Format.encodeBinary p v = .ok (encodeResource (.of v) t r) := by
  rw [Format.encodeBinary, Property.resource_eq hp, Property.contentType_eq hp]
  rfl

theorem Codec.prepareParameters_binary (label : String) (c : PropertyClass) (k : MediaClass)
    (hp : p.content = .binary r t) (v : Version) :
    (Codec.binary label c k).prepareParameters p v =
      .ok (preparedParameters v r t p.parameters) := by
  simp only [Codec.prepareParameters, Codec.binary, Format.binary, Property.resource_eq hp,
    Property.contentType_eq hp]
  rfl

end Content

theorem BinaryPolicy.isLegacy_of (v : Version) : (BinaryPolicy.of v).isLegacy = v.isLegacy := by
  cases v <;> rfl

section Prepared

variable (r : Resource) (t : Option MediaType) (ps : Parameters)

theorem valueType?_prepared_url {v : Version} (hv : v.isLegacy = true) (s : String) :
    isUrlDataType (preparedParameters v (.url s) t ps).valueType? = true := by
  rw [Parameters.valueType?, preparedParameters, Parameters.get?_assign_self]
  cases v with
  | v2_1 => rfl
  | v3_0 => rfl
  | v4_0 => exact absurd hv (by decide)

theorem valueType?_prepared_data {v : Version} (hv : v.isLegacy = true) (bytes : List UInt8) :
    (preparedParameters v (.data bytes) t ps).valueType? = none := by
  rw [Parameters.valueType?, preparedParameters, Parameters.get?_assign_self]
  cases v with
  | v2_1 => rfl
  | v3_0 => rfl
  | v4_0 => exact absurd hv (by decide)

theorem encoding?_prepared_data {v : Version} (hv : v.isLegacy = true) (bytes : List UInt8) :
    (preparedParameters v (.data bytes) t ps).encoding?.elim false Encoding.isBase64 = true := by
  have hget : (preparedParameters v (.data bytes) t ps).get? "encoding" =
      (BinaryPolicy.of v).encoding.map Encoding.name := by
    rw [preparedParameters, Parameters.get?_assign_of_ne _ (by decide +kernel),
      BinaryPolicy.describe]
    cases v with
    | v4_0 => exact absurd hv (by decide)
    | _ =>
      show ((Parameters.assign _ "encoding" _).assign "type" _).get? "encoding" = _
      rw [Parameters.get?_assign_of_ne _ (by decide +kernel), Parameters.get?_assign_self]
  rw [Parameters.encoding?, hget]
  cases v with
  | v2_1 => rfl
  | v3_0 => rfl
  | v4_0 => exact absurd hv (by decide)

theorem type_prepared {v : Version} (hv : v.isLegacy = true) (hr : r ≠ .absent) :
    (preparedParameters v r t ps).get? "type" = t.bind MediaType.token := by
  rw [preparedParameters, Parameters.get?_assign_of_ne _ (by decide +kernel)]
  cases r with
  | absent => exact absurd rfl hr
  | url s =>
    simp only [BinaryPolicy.describe, BinaryPolicy.isLegacy_of, hv, if_true]
    rw [Parameters.get?_remove_of_ne _ (by decide +kernel), Parameters.get?_assign_self]
  | data bytes =>
    simp only [BinaryPolicy.describe, BinaryPolicy.isLegacy_of, hv, if_true]
    rw [Parameters.get?_assign_self]

theorem mediatype_prepared_url (s : String) :
    (preparedParameters .v4_0 (.url s) t ps).get? "mediatype" = t.bind MediaType.mediaType := by
  rw [preparedParameters, Parameters.get?_assign_of_ne _ (by decide +kernel)]
  show ((ps.remove "encoding").assign "mediatype" _).get? "mediatype" = _
  rw [Parameters.get?_assign_self]

end Prepared

/-! ### Reading what was written -/

/-- A URL that is not a data URI, or bytes. -/
def Resource.IsProper : Resource → Prop
  | .absent => False
  | .url s => DataUri.ofChars? s.toList = none
  | .data _ => True

theorem Resource.IsProper.ne_absent {r : Resource} (hr : r.IsProper) : r ≠ .absent := by
  rintro rfl
  exact hr

/-- In the last version a text is read as the resource that it was written for, whatever comes along
with it; the content type of bytes is the one that their data URI names. -/
theorem decodeCurrent_encodeResource (subject : Subject) (k : MediaClass) (t u : Option MediaType)
    {r : Resource} (hr : r.IsProper)
    (ht : ∀ bytes, r = .data bytes → DataUri.splitAtMarker? (embeddedMediaType t).toList = none) :
    decodeCurrent subject k u (encodeResource (.of .v4_0) t r) =
      ⟨.ofResource subject.target r
        (if r.url?.isSome then u else some (namedContentType k (embeddedMediaType t))), []⟩ := by
  cases r with
  | absent => exact hr.elim
  | url s =>
    obtain ⟨e, he⟩ := DataUri.ofText_of_ofChars?_eq_none hr
    rw [decodeCurrent, show encodeResource (.of .v4_0) t (.url s) = s from rfl, he]
    rfl
  | data bytes =>
    have htext : encodeResource (.of .v4_0) t (.data bytes) =
        DataUri.toText ⟨embeddedMediaType t, bytes⟩ := rfl
    rw [decodeCurrent, htext, DataUri.ofText_toText (ht bytes rfl)]
    rfl

variable {k : MediaClass} {t : MediaType}

/-- In the last version nothing but the content type of a URL is taken from the parameters. -/
theorem decodeResource_prepared_current (hk : k ∈ [MediaClass.image, .sound])
    (ht : t ∈ Catalogs.standard.catalog k) (subject : Subject) {r : Resource} (hr : r.IsProper)
    (d : Option DataType) (ps : Parameters) :
    decodeResource k subject (encodeResource (.of .v4_0) (some t) r) d .v4_0
        (preparedParameters .v4_0 r (some t) ps) =
      ⟨.ofResource subject.target r (some t), []⟩ := by
  show decodeCurrent subject k (describedContentType (.of .v4_0) k _) _ = _
  rw [decodeCurrent_encodeResource _ _ _ _ hr fun _ _ ↦ (Catalogs.embeddedMediaType_of_mem hk ht).1]
  cases r with
  | absent => exact hr.elim
  | url s =>
    have hu : describedContentType (.of .v4_0) k (preparedParameters .v4_0 (.url s) (some t) ps) =
        some t := by
      show ((preparedParameters .v4_0 (.url s) (some t) ps).get? "mediatype").map _ = some t
      rw [mediatype_prepared_url]
      exact Catalogs.ofMediaType_of_mem hk ht
    rw [hu]
    rfl
  | data bytes =>
    rw [Catalogs.namedContentType_of_mem hk ht]
    rfl

/-- In the old versions the parameters say what the text is. -/
theorem decodeResource_prepared_legacy (hk : k ∈ [MediaClass.image, .sound])
    (ht : t ∈ Catalogs.standard.catalog k) (subject : Subject) {r : Resource} (hr : r.IsProper)
    {v : Version} (hv : v.isLegacy = true) (ps : Parameters) :
    decodeResource k subject (encodeResource (.of v) (some t) r)
        (preparedParameters v r (some t) ps).valueType? v (preparedParameters v r (some t) ps) =
      ⟨.ofResource subject.target r (some t), []⟩ := by
  have hb : (BinaryPolicy.of v).isLegacy = true := by rw [BinaryPolicy.isLegacy_of, hv]
  have ht' : describedContentType (.of v) k (preparedParameters v r (some t) ps) = some t := by
    rw [describedContentType, if_pos hb, type_prepared _ _ _ hv hr.ne_absent]
    exact Catalogs.ofToken_of_mem hk ht
  rw [decodeResource]
  simp only [hb, if_true, ht']
  cases r with
  | absent => exact hr.elim
  | url s =>
    rw [decodeLegacy, if_pos (valueType?_prepared_url _ _ hv s)]
    rfl
  | data bytes =>
    have htext : encodeResource (.of v) (some t) (.data bytes) = Base64.encode bytes := by
      rw [encodeResource, if_pos hb]
    rw [decodeLegacy, valueType?_prepared_data _ _ hv, if_neg (by decide),
      if_pos (encoding?_prepared_data _ _ hv bytes), htext, Base64.decode_encode]

/-- Written resources hold no backslash, so resolving escapes leaves them as they are. -/
theorem not_mem_encodeResource (hk : k ∈ [MediaClass.image, .sound])
    (ht : t ∈ Catalogs.standard.catalog k) {r : Resource} (hr : ∀ s, r = .url s → '\\' ∉ s.toList)
    (v : Version) : '\\' ∉ (encodeResource (.of v) (some t) r).toList := by
  have hbase (bytes : List UInt8) : '\\' ∉ (Base64.encode bytes).toList := by
    rw [Base64.encode, String.toList_ofList]
    intro h
    exact absurd (Base64.mem_encodeBytes h) (by decide)
  cases r with
  | absent => exact List.not_mem_nil
  | url s => exact hr s rfl
  | data bytes =>
    have hmarkers : '\\' ∉ DataUri.scheme ∧ '\\' ∉ DataUri.marker := by decide
    rw [encodeResource]
    split
    · exact hbase bytes
    · rw [DataUri.toList_toText]
      simp only [List.mem_append, not_or]
      refine ⟨hmarkers.1, (Catalogs.embeddedMediaType_of_mem hk ht).2, hmarkers.2, ?_⟩
      simpa only [Base64.encode, String.toList_ofList] using hbase bytes

end ContactCard
