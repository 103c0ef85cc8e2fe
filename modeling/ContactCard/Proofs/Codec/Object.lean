import ContactCard.Proofs.Codec.Leniency
import ContactCard.Proofs.Url

/-!
# Resources in HTML

In HTML a resource is an object with data, which is a data URI or a URL. An element that is none, or
whose data is missing or blank, should be refused as unreadable, and every other one should be read
(`IsReadAsObject`). But a URL may be relative to that of the page, and then it is resolved before
anyone looks at it. If an authority is malformed, that fails for a reason of its own; if neither URL
says anything, nothing is left to be read. Apart from these, every element is read as it should be
(`isReadAsObject_iff`).
-/

namespace ContactCard

open Text

namespace PropertyNode

variable {n : PropertyNode} {base : String}

/-- The data of the element, without the blanks around it; empty if there is none. -/
def objectData (n : PropertyNode) : String := strip (n.attr "data")

/-- The data is a URL and relative to that of the page. -/
structure IsRelativeTo (n : PropertyNode) (base : String) : Prop where
  page : n.baseUrl = some base
  ne : base ≠ ""
  isUrl : isDataUrl n.objectData = false

/-- The data is relative and not resolved to anything: an authority is malformed, or neither URL
says anything. -/
def IsUnresolved (n : PropertyNode) : Prop :=
  ∃ base, n.IsRelativeTo base ∧
    ((Url.IsMalformed base ∨ Url.IsMalformed n.objectData) ∨ Url.SayNothing base n.objectData)

theorem absoluteUrl_data (hdata : n.objectData ≠ "") : n.absoluteUrl "data" =
    match n.baseUrl with
    | none => .ok n.objectData
    | some base =>
      if base.isEmpty || isDataUrl n.objectData then .ok n.objectData
      else Url.join base n.objectData :=
  if_neg fun hempty ↦ hdata (String.isEmpty_iff.mp hempty)

theorem absoluteUrl_of_empty (hdata : n.objectData = "") : n.absoluteUrl "data" = .ok "" :=
  if_pos (String.isEmpty_iff.mpr hdata)

theorem absoluteUrl_of_isRelativeTo (hdata : n.objectData ≠ "") (h : n.IsRelativeTo base) :
    n.absoluteUrl "data" = Url.join base n.objectData := by
  have hrelative : ¬(base.isEmpty || isDataUrl n.objectData) = true := by
    simpa [h.isUrl, String.isEmpty_iff] using h.ne
  rw [absoluteUrl_data hdata, h.page]
  exact if_neg hrelative

theorem absoluteUrl_of_not_isRelativeTo (hdata : n.objectData ≠ "")
    (h : ∀ base, ¬n.IsRelativeTo base) : n.absoluteUrl "data" = .ok n.objectData := by
  rw [absoluteUrl_data hdata]
  cases hbase : n.baseUrl with
  | none => rfl
  | some base =>
    refine if_pos ?_
    by_contra hrelative
    obtain ⟨hne, hurl⟩ := Bool.or_eq_false_iff.mp (Bool.eq_false_iff.mpr hrelative)
    exact h base ⟨hbase, by simpa [String.isEmpty_iff] using hne, hurl⟩

/-- Data that is there becomes a URL or a data URI if it is resolved, and otherwise a refusal or
nothing. -/
theorem absoluteUrl_cases (hdata : n.objectData ≠ "") :
    (∃ s, n.absoluteUrl "data" = .ok s ∧ s ≠ "") ∧ ¬n.IsUnresolved ∨
      (n.absoluteUrl "data" = .error .badAuthority ∨ n.absoluteUrl "data" = .ok "") ∧
        n.IsUnresolved := by
  by_cases hrelative : ∃ base, n.IsRelativeTo base
  · obtain ⟨base, hbase⟩ := hrelative
    rw [absoluteUrl_of_isRelativeTo hdata hbase]
    by_cases hmalformed : Url.IsMalformed base ∨ Url.IsMalformed n.objectData
    · exact .inr ⟨.inl (Url.join_eq_error hbase.ne hdata hmalformed), base, hbase, .inl hmalformed⟩
    · obtain ⟨s, hjoin, hs⟩ := Url.exists_join_eq_ok hbase.ne hdata hmalformed
      rw [hjoin]
      by_cases hempty : s = ""
      · exact .inr ⟨.inr (by rw [hempty]), base, hbase, .inr (hs.mp hempty)⟩
      · refine .inl ⟨⟨s, rfl, hempty⟩, fun ⟨base', hbase', h⟩ ↦ ?_⟩
        obtain rfl := Option.some.inj (hbase.page.symm.trans hbase'.page)
        exact h.elim hmalformed fun hnothing ↦ hempty (hs.mpr hnothing)
  · rw [not_exists] at hrelative
    rw [absoluteUrl_of_not_isRelativeTo hdata hrelative]
    exact .inl ⟨⟨_, rfl, hdata⟩, fun ⟨base, hbase, _⟩ ↦ hrelative base hbase⟩

end PropertyNode

/-! ### Reading objects -/

/-- Reading has given a resource in one form or has refused the element as unreadable; it has
refused just those elements that are no objects or have no data. -/
structure IsReadAsObject (n : PropertyNode) (result : Except Error Reading) : Prop where
  ends : (∃ reading, result = .ok reading ∧ reading.property.HoldsOneForm) ∨
    ∃ e, result = .error e ∧ e.isUnreadable = true
  refuses : (∃ e, result = .error e ∧ e.isUnreadable = true) ↔
    n.tagName ≠ "object" ∨ strip (n.attr "data") = ""

variable {k : MediaClass} {subject : Subject} {n : PropertyNode}

theorem decodeObject_of_ne (htag : n.tagName ≠ "object") :
    decodeObject k subject n = .error (.objectRequired n.tagName) := by
  rw [decodeObject, if_pos htag]
  rfl

/-- Without a URL or a data URI an object is refused as it is without data. -/
theorem decodeObject_of_empty (htag : n.tagName = "object") (h : n.absoluteUrl "data" = .ok "") :
    decodeObject k subject n = .error .noDataAttribute := by
  rw [decodeObject, if_neg (not_not.mpr htag), h]
  rfl

theorem decodeObject_of_error {f : Fault} (htag : n.tagName = "object")
    (h : n.absoluteUrl "data" = .error f) : decodeObject k subject n = .error (.fault f) := by
  rw [decodeObject, if_neg (not_not.mpr htag), h]
  rfl

/-- With a URL or a data URI an object is read. -/
theorem exists_decodeObject_eq_ok {s : String} (htag : n.tagName = "object")
    (h : n.absoluteUrl "data" = .ok s) (hs : s ≠ "") :
    ∃ reading, decodeObject k subject n = .ok reading ∧ reading.property.HoldsOneForm := by
  have hempty : s.isEmpty = false := by simpa [String.isEmpty_iff] using hs
  rw [decodeObject, if_neg (not_not.mpr htag), h]
  show ∃ reading, (if s.isEmpty then Except.error Error.noDataAttribute else _) =
    Except.ok reading ∧ _
  rw [hempty, if_neg Bool.false_ne_true]
  cases DataUri.ofText s with
  | ok uri => exact ⟨_, rfl, holdsOneForm_data ..⟩
  | error e => exact ⟨_, rfl, holdsOneForm_url ..⟩

theorem not_isReadAsObject_of_fault (f : Fault) : ¬IsReadAsObject n (.error (.fault f)) := by
  intro h
  rcases h.ends with ⟨reading, hread, -⟩ | ⟨e, he, hunreadable⟩
  · cases hread
  · cases he
    exact absurd hunreadable Bool.false_ne_true

/-- An object with data must not be refused. -/
theorem not_isReadAsObject_of_unreadable {e : Error} (he : e.isUnreadable = true)
    (htag : n.tagName = "object") (hdata : n.objectData ≠ "") : ¬IsReadAsObject n (.error e) :=
  fun h ↦ (h.refuses.mp ⟨e, rfl, he⟩).elim (fun hne ↦ hne htag) hdata

theorem isReadAsObject_of_unreadable {e : Error} (he : e.isUnreadable = true)
    (h : n.tagName ≠ "object" ∨ n.objectData = "") : IsReadAsObject n (.error e) :=
  ⟨.inr ⟨e, rfl, he⟩, iff_of_true ⟨e, rfl, he⟩ h⟩

/-- An element is read as it should be unless it is an object with data that is not resolved. -/
theorem isReadAsObject_iff (label : String) (c : PropertyClass) (k : MediaClass)
    (n : PropertyNode) :
    IsReadAsObject n ((Codec.binary label c k).readHtml n) ↔
      ¬((n.tagName = "object" ∧ n.objectData ≠ "") ∧ n.IsUnresolved) := by
  show IsReadAsObject n (decodeObject k ⟨c, c.name⟩ n) ↔ _
  by_cases htag : n.tagName = "object"
  swap
  · rw [decodeObject_of_ne htag]
    exact iff_of_true (isReadAsObject_of_unreadable rfl (.inl htag)) fun h ↦ htag h.1.1
  by_cases hdata : n.objectData = ""
  · rw [decodeObject_of_empty htag (PropertyNode.absoluteUrl_of_empty hdata)]
    exact iff_of_true (isReadAsObject_of_unreadable rfl (.inr hdata)) fun h ↦ h.1.2 hdata
  rcases PropertyNode.absoluteUrl_cases hdata with ⟨⟨s, hs, hne⟩, hresolved⟩ | ⟨hs, hunresolved⟩
  · obtain ⟨reading, hread, hform⟩ := exists_decodeObject_eq_ok htag hs hne
    rw [hread]
    refine iff_of_true ⟨.inl ⟨reading, rfl, hform⟩, iff_of_false (by simp) ?_⟩
      fun h ↦ hresolved h.2
    exact not_or.mpr ⟨not_not.mpr htag, hdata⟩
  · refine iff_of_false ?_ (not_not.mpr ⟨⟨htag, hdata⟩, hunresolved⟩)
    rcases hs with hs | hs
    · rw [decodeObject_of_error htag hs]
      exact not_isReadAsObject_of_fault _
    · rw [decodeObject_of_empty htag hs]
      exact not_isReadAsObject_of_unreadable rfl htag hdata

/-- A bracket that is not closed makes reading fail otherwise, and a mere number sign is missed by
a page whose URL is a mere question mark. -/
theorem unresolved_objects_refused :
    let data (s : String) : OrderedMap String Html.AttributeValue :=
      OrderedMap.empty.insert "data" (.text s)
    let unclosed : PropertyNode :=
      ⟨"object", data "http://[::1", [], some "http://example.com/"⟩
    let sign : PropertyNode := ⟨"object", data "#", [], some "?"⟩
    (Codec.photo.readHtml unclosed = .error (.fault .badAuthority) ∧
      ¬IsReadAsObject unclosed (Codec.photo.readHtml unclosed)) ∧
    Codec.photo.readHtml sign = .error .noDataAttribute ∧
      ¬IsReadAsObject sign (Codec.photo.readHtml sign) := by
  intro data unclosed sign
  have hunclosed : unclosed.tagName = "object" ∧
      unclosed.absoluteUrl "data" = .error .badAuthority := by decide +kernel
  have hsign : (sign.tagName = "object" ∧ sign.absoluteUrl "data" = .ok "") ∧
      sign.objectData ≠ "" := by decide +kernel
  have hfails : Codec.photo.readHtml unclosed = .error (.fault .badAuthority) :=
    decodeObject_of_error hunclosed.1 hunclosed.2
  have hmisses : Codec.photo.readHtml sign = .error .noDataAttribute :=
    decodeObject_of_empty hsign.1.1 hsign.1.2
  rw [hfails, hmisses]
  exact ⟨⟨rfl, not_isReadAsObject_of_fault _⟩, rfl,
    not_isReadAsObject_of_unreadable rfl hsign.1.1 hsign.2⟩

end ContactCard
