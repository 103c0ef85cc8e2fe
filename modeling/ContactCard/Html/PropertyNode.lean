import ContactCard.Error
import ContactCard.Html.Reader
import ContactCard.Url.Basic

/-!
# Properties in HTML

In the HTML form of a card a property is an element of the page. Its value is the text in the
element; URLs in its attributes are relative to that of the page.
-/

namespace ContactCard

open Text Html

/-- An element of a page. -/
structure PropertyNode where
  tag : String
  attributes : OrderedMap String AttributeValue
  children : List Node
  /-- The URL of the page. -/
  baseUrl : Option String

namespace PropertyNode

/-- A node as an element of a page; it must be an element. -/
def ofNode (n : Option Node) (baseUrl : Option String) : Except Error PropertyNode :=
  match n with
  | some (.element tag attributes children) => .ok ⟨tag, attributes, children, baseUrl⟩
  | _ => .error .htmlElementRequired

/-- The first element of an HTML text. -/
def ofHtml (html : String) (baseUrl : Option String) : Except Error PropertyNode :=
  match (read html).find? Node.isElement with
  | none => .error .noHtmlElement
  | n => ofNode n baseUrl

/-- The name of the element in lower case. -/
def tagName (p : PropertyNode) : String := toLower p.tag

/-- The value of an attribute, empty if there is none. -/
def attr (p : PropertyNode) (name : String) : String :=
  (p.attributes.get? name).elim "" AttributeValue.toText

/-- Whether the text begins like a data URI, which is never relative. -/
def isDataUrl (s : String) : Bool := "data:".toList.isPrefixOf (toLower s).toList

/-- The value of an attribute as a URL relative to that of the page, empty if there is none. -/
def absoluteUrl (p : PropertyNode) (name : String) : Except Fault String :=
  let value := strip (p.attr name)
  if value.isEmpty then .ok ""
  else
    match p.baseUrl with
    | none => .ok value
    | some base => if base.isEmpty || isDataUrl value then .ok value else Url.join base value

/-- The text in the element. -/
def value (p : PropertyNode) : String := strip (Node.innerTextAll p.children)

end PropertyNode

end ContactCard
