import ContactCard.Error
import ContactCard.Version
import ContactCard.Xml.Element

/-!
# Properties in XML

In the XML form of a card a property is an element whose children hold the values: a value element
is named after the data type of its value, in the namespace of the version of the card.
-/

namespace ContactCard

open Text Xml

/-- An XML element that holds a property of a card of the given version. -/
structure PropertyElement where
  element : Element
  version : Version

namespace PropertyElement

/-- Something as the element of a property; it must be an element. -/
def ofElement (e : Option Element) (v : Version) : Except Error PropertyElement :=
  match e with
  | some e => .ok ⟨e, v⟩
  | none => .error .elementRequired

/-- A name in the namespace of the version. The versions without an XML form have a namespace of
their own, too. -/
def qualified (v : Version) (name : String) : String :=
  "\x7b" ++ v.xmlNamespace?.getD "None" ++ "\x7d" ++ name

/-- The local name of the elements that hold values of no known data type. -/
def unknownName : String := "unknown"

/-- The tag of the elements that hold values of a data type. -/
def valueTag (v : Version) (d : Option DataType) : String :=
  qualified v (d.elim unknownName fun d ↦ toLower d.name)

/-- A new value element. -/
def valueElement (v : Version) (d : Option DataType) (value : Value) : Element :=
  .leaf (valueTag v d) value

/-- The property element with one more value. -/
def append (p : PropertyElement) (d : Option DataType) (value : Value) : PropertyElement :=
  { p with element := p.element.append (valueElement p.version d value) }

/-- The value elements of a data type. -/
def valueElements (p : PropertyElement) (d : Option DataType) : List Element :=
  p.element.children.filter fun e ↦ e.tag == valueTag p.version d

/-- All values of a data type. -/
def all (p : PropertyElement) (d : Option DataType) : List String :=
  (p.valueElements d).map Element.ownText

/-- The first value of a data type. -/
def first? (p : PropertyElement) (d : Option DataType) : Option String := (p.all d).head?

/-- A value is found again if no other child looks like one of its data type. -/
theorem first?_append {p : PropertyElement} {d : Option DataType}
    (h : ∀ e ∈ p.element.children, e.tag ≠ valueTag p.version d) (s : String) :
    (p.append d (.text s)).first? d = some s := by
  have hnone : p.element.children.filter (fun e ↦ e.tag == valueTag p.version d) = [] :=
    List.filter_eq_nil_iff.mpr fun e he ↦ by simp [h e he]
  have hvalues : (p.append d (.text s)).valueElements d = [valueElement p.version d (.text s)] := by
    simp only [valueElements, append, Element.append, List.filter_append, hnone, List.nil_append]
    simp [valueElement, Element.leaf]
  rw [first?, all, hvalues]
  rfl

end PropertyElement

end ContactCard
