import ContactCard.Proofs.Codec.Conversion
import ContactCard.Proofs.Xml.Layout
import ContactCard.XCard.Document

/-!
# Values in the elements of properties

In a document the value of a property is a leaf: the first child of the element of the property,
its parameters apart (`PropertyElement.Holds`). Neither the parameters before it nor any layout
keeps a codec from finding it, and a codec that finds the text it wrote gives back what the
property held (`Codec.Carries`): there is one lemma about this for each family of codecs.
-/

namespace ContactCard

open Text Xml

/-- What a property can hold. -/
inductive Holding where
  | text (s : String)
  | resource (r : Resource)
  deriving DecidableEq

/-- What the property holds, if anything: a text, a URL or bytes. -/
def Property.held? (p : Property) : Option Holding :=
  match p.content with
  | .text (some s) | .extension (some s) _ => some (.text s)
  | .binary (.url s) _ => some (.resource (.url s))
  | .binary (.data bytes) _ => some (.resource (.data bytes))
  | _ => none

/-- The properties are of the same class and hold the same. -/
structure Property.Agrees (p q : Property) : Prop where
  cls : p.cls = q.cls
  held : p.held? = q.held?

/-! ### Finding values -/

namespace PropertyElement

theorem toList_qualified (v : Version) (name : String) : (qualified v name).toList =
    ('\x7b' :: (v.xmlNamespace?.getD "None").toList) ++ '\x7d' :: name.toList := by
  simp [qualified, String.toList_append]

/-- The first child that does not hold the parameters. -/
def value? (e : Element) : Option Element :=
  e.children.find? fun x ↦ !Format.isParametersTag x.tag

/-- The value in a property element is a leaf of the tag with the text. -/
def Holds (e : Element) (tag s : String) : Prop :=
  ∃ x, value? e = some x ∧ x.tag = tag ∧ x.children = [] ∧ x.ownText = s

theorem ownText_layout {x : Element} (hx : x.children = []) (indent : Option Nat) (level : Nat) :
    (x.layout indent level).ownText = x.ownText := by
  obtain ⟨tag, attributes, text, tail, children⟩ := x
  obtain rfl : children = [] := hx
  rw [← String.toList_inj]
  simp [Element.layout, Element.laidText, Element.ownText]

theorem find?_layoutAll {indent : Option Nat} {level : Nat} {p : String → Bool} {x : Element}
    (hx : x.children = []) {es : List Element} (h : es.find? (fun y ↦ p y.tag) = some x) :
    ∃ y, (Element.layoutAll indent level es).find? (fun y ↦ p y.tag) = some y ∧ y.tag = x.tag ∧
      y.children = [] ∧ y.ownText = x.ownText := by
  induction es with
  | nil => exact absurd h (by simp)
  | cons e rest ih =>
    rw [Element.layoutAll, List.find?_cons]
    rw [List.find?_cons] at h
    have htag : (e.layout indent (level + 1)).tag = e.tag := by
      cases e
      rfl
    -- an element keeps its tag, so the first one that is found is the same
    cases hp : p e.tag with
    | true =>
      rw [hp, Option.some.injEq] at h
      subst h
      have hchildren : (e.layout indent (level + 1)).children = [] := by
        obtain ⟨tag, attributes, text, tail, children⟩ := e
        obtain rfl : children = [] := hx
        rfl
      simp only [htag, hp]
      exact ⟨_, rfl, rfl, hchildren, ownText_layout hx indent (level + 1)⟩
    | false =>
      rw [hp] at h
      simp only [htag, hp]
      exact ih h

/-- No layout changes the value in a property element. -/
theorem Holds.layout {e : Element} {tag s : String} (h : Holds e tag s) (indent : Option Nat)
    (level : Nat) : Holds (e.layout indent level) tag s := by
  obtain ⟨x, hvalue, rfl, hchildren, rfl⟩ := h
  obtain ⟨own, attributes, text, tail, children⟩ := e
  obtain ⟨y, hy, htag, hleaf, htext⟩ := @find?_layoutAll indent level
    (fun tag ↦ !Format.isParametersTag tag) x hchildren children hvalue
  exact ⟨y, hy, htag, hleaf, htext⟩

/-- A value of the data type of its tag is the first of that data type. -/
theorem Holds.first? {e : Element} {v : Version} {d : Option DataType} {s : String}
    (h : Holds e (valueTag v d) s) : PropertyElement.first? ⟨e, v⟩ d = some s := by
  obtain ⟨x, hvalue, htag, -, rfl⟩ := h
  obtain ⟨hnot, before, after, hchildren, hbefore⟩ := List.find?_eq_some_iff_append.mp hvalue
  have hnone : before.filter (fun y ↦ y.tag == valueTag v d) = [] := by
    refine List.filter_eq_nil_iff.mpr fun y hy heq ↦ ?_
    have hparameters := hbefore y hy
    rw [eq_of_beq heq, ← htag] at hparameters
    simp [hnot] at hparameters
  have hself : (x.tag == valueTag v d) = true := beq_iff_eq.mpr htag
  rw [PropertyElement.first?, all, valueElements]
  simp only [hchildren, List.filter_append, hnone, List.nil_append, List.filter_cons, hself,
    if_true, List.map_cons, List.head?_cons]

/-- A value after nothing but parameters is the value. -/
theorem holds_append {e : Element} {d : Option DataType}
    (hparameters : ∀ x ∈ e.children, Format.isParametersTag x.tag = true)
    (htag : Format.isParametersTag (valueTag .v4_0 d) = false) (s : String) :
    Holds (PropertyElement.append ⟨e, .v4_0⟩ d (.text s)).element (valueTag .v4_0 d) s := by
  have hvalue : value? (PropertyElement.append ⟨e, .v4_0⟩ d (.text s)).element =
      some (valueElement .v4_0 d (.text s)) := by
    have hbefore : e.children.find? (fun x ↦ !Format.isParametersTag x.tag) = none :=
      List.find?_eq_none.mpr fun x hx ↦ by simp [hparameters x hx]
    show (e.children ++ [valueElement .v4_0 d (.text s)]).find? _ = _
    rw [List.find?_append, hbefore, Option.none_or, List.find?_cons]
    simp only [valueElement, Element.leaf, htag, Bool.not_false]
  exact ⟨_, hvalue, rfl, rfl, rfl⟩

end PropertyElement

/-! ### Codecs and values -/

/-- In XML the codec writes the property as a value of a data type, with the text, and reads back a
property that agrees with it wherever it finds that value. -/
structure Codec.Carries (c : Codec) (p : Property) (d : Option DataType) (s : String) : Prop where
  write : ∀ e, c.writeXml p ⟨e, .v4_0⟩ =
    .ok (.emit (PropertyElement.append ⟨e, .v4_0⟩ d (.text s)).element)
  read : ∀ e ps, PropertyElement.Holds e (PropertyElement.valueTag .v4_0 d) s →
    ∃ reading, c.readXml ⟨e, .v4_0⟩ ps = .ok reading ∧ reading.property.Agrees p

variable {p : Property} {s : String} {d : Option DataType}

/-- A value that is no resource is written as it is. -/
theorem encodeXml_withVerbatimText {f : Format} (hvalue : p.heldValue = .ok (.text s))
    (hd : f.dataType p .v4_0 = .ok d) (e : Element) :
    f.withVerbatimText.encodeXml p ⟨e, .v4_0⟩ =
      .ok (.emit (PropertyElement.append ⟨e, .v4_0⟩ d (.text s)).element) := by
  simp only [Format.withVerbatimText, hvalue, hd]
  rfl

/-- A property without a value is left out. -/
theorem encodeXml_withVerbatimText_null {f : Format} (hvalue : p.heldValue = .ok .null)
    (e : Element) :
    f.withVerbatimText.encodeXml p ⟨e, .v4_0⟩ = .ok (.omit "Property has no value.") := by
  simp only [Format.withVerbatimText, hvalue]
  rfl

/-- Codecs of texts read what was escaped as the text that it was. -/
theorem readText_escape (label : String) {c : PropertyClass} (hc : c.shape = .text) (t : DataType)
    (s : String) (d : Option DataType) (v : Version) (ps : Parameters) :
    (Codec.ofClass label c (.text t)).readText (escape s) d v ps =
      .ok (Codec.withParameters ps ⟨.ofText c (some s), []⟩) := by
  show Except.ok (Codec.withParameters ps ⟨.ofTextLike c (unescape (escape s)), []⟩) = _
  rw [unescape_escape, Property.ofTextLike, hc]

/-- In XML they find a text of their data type and escape it before they read it. -/
theorem readXml_text (label : String) {c : PropertyClass} (hc : c.shape = .text) {t : DataType}
    {e : Element} (h : PropertyElement.Holds e (PropertyElement.valueTag .v4_0 (some t)) s)
    (ps : Parameters) :
    (Codec.ofClass label c (.text t)).readXml ⟨e, .v4_0⟩ ps =
      .ok (Codec.withParameters ps ⟨.ofText c (some s), []⟩) := by
  rw [← readText_escape label hc t s (some t) .v4_0 ps]
  show (TextFormat.decodeXml _ _ ⟨e, .v4_0⟩ ps).map _ = _
  simp only [TextFormat.decodeXml, h.first?]
  rfl

/-- Codecs of texts carry texts. -/
theorem carries_text (label : String) {c : PropertyClass} (hc : c.shape = .text) {t : DataType}
    (hcls : p.cls = c) (hcontent : p.content = .text (some s)) :
    (Codec.ofClass label c (.text t)).Carries p (some t) s := by
  have hvalue : p.heldValue = .ok (.text s) := by rw [Property.heldValue, hcontent]; rfl
  refine ⟨encodeXml_withVerbatimText hvalue rfl, fun e ps h ↦
    ⟨_, readXml_text label hc h ps, hcls.symm, ?_⟩⟩
  rw [Property.held?, Property.held?, hcontent]
  rfl

/-- Codecs of extension properties find any value and take the data type from its tag. -/
theorem readXml_extension (name : String) {e : Element} {tag : String}
    (h : PropertyElement.Holds e tag s) (ps : Parameters) :
    (Codec.extension name).readXml ⟨e, .v4_0⟩ ps =
      .ok (Codec.withParameters ps (Format.extensionReading ⟨.extension, some (toUpper name)⟩ s
        (Format.taggedDataType tag))) := by
  obtain ⟨x, hx, rfl, -, rfl⟩ := h
  show (Format.decodeExtensionXml _ ⟨e, .v4_0⟩ ps).map _ = _
  rw [PropertyElement.value?] at hx
  simp only [Format.decodeExtensionXml, hx]
  rfl

/-- Codecs of extension properties carry texts of any data type. -/
theorem carries_extension (name : String) (hcls : p.cls = .extension)
    (hcontent : p.content = .extension (some s) d) :
    (Codec.extension name).Carries p d s := by
  have hvalue : p.heldValue = .ok (.text s) := by rw [Property.heldValue, hcontent]; rfl
  have hd : p.dataType = .ok d := by rw [Property.dataType, hcontent]
  refine ⟨encodeXml_withVerbatimText hvalue hd, fun e ps h ↦
    ⟨_, readXml_extension name h ps, hcls.symm, ?_⟩⟩
  rw [Property.held?, Property.held?, hcontent]
  rfl

/-- Codecs of binary properties carry resources. -/
theorem carries_binary (label : String) {c : PropertyClass} {k : MediaClass} {r : Resource}
    {t : Option MediaType} (hcls : p.cls = c) (hcontent : p.content = .binary r t) (hr : r.IsProper)
    (ht : ∀ bytes, r = .data bytes → DataUri.splitAtMarker? (embeddedMediaType t).toList = none) :
    (Codec.binary label c k).Carries p (some .uri) (encodeResource (.of .v4_0) t r) := by
  refine ⟨fun e ↦ ?_, fun e ps h ↦ ?_⟩
  · show (do
      let s ← Format.encodeBinary p .v4_0
      return Outcome.emit _) = _
    rw [Format.encodeBinary_eq hcontent]
    rfl
  · have hread : (Codec.binary label c k).readXml ⟨e, .v4_0⟩ ps =
        .ok (Codec.withParameters ps (decodeCurrent ⟨c, c.name⟩ k
          (describedContentType (.of .v4_0) k ps) (encodeResource (.of .v4_0) t r))) := by
      simp only [Codec.readXml, Codec.binary, Format.binary, h.first?]
      rfl
    refine ⟨_, hread, ?_⟩
    rw [decodeCurrent_encodeResource _ _ _ _ hr ht]
    refine ⟨hcls.symm, ?_⟩
    rw [Property.held?, Property.held?, hcontent]
    cases r with
    | absent => exact hr.elim
    | _ => rfl

end ContactCard
