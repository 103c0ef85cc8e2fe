import ContactCard.Text.Blank
import ContactCard.Value

/-!
# XML elements

An element tree: a tag in the form `{namespace}local`, attributes, the text before the first child,
the children, and the text that follows the element in its parent. In the place of the text there may
be a value of another kind, which a tree can hold and no writer can write, or null for none.

Two trees are compared by what a reader would make of them: blanks around texts, the order of
attributes and the texts after elements do not count.
-/

namespace ContactCard.Xml

open Text

/-- An element with all that is below it. -/
structure Element where
  tag : String
  attributes : List (String × String)
  text : Value
  tail : Option String
  children : List Element
  deriving Inhabited

namespace Element

/-- An element that has only a tag and attributes. -/
def bare (tag : String) (attributes : List (String × String)) : Element :=
  ⟨tag, attributes, .null, none, []⟩

/-- An element that holds a text and nothing else. -/
def leaf (tag : String) (text : Value) : Element := ⟨tag, [], text, none, []⟩

/-- The element with one more child at the end. -/
def append (e child : Element) : Element := { e with children := e.children ++ [child] }

/-- The text of the element, empty if it has none. -/
def ownText (e : Element) : String := e.text.text?.getD ""

/-- The text that a comparison looks at. -/
def strippedText (text : Value) : String := strip (text.text?.getD "")

mutual

/-- Equality of elements up to blanks, order of attributes and texts after elements. -/
def same : Element → Element → Bool
  | ⟨tag, attributes, text, _, children⟩, b =>
    tag == b.tag && strippedText text == strippedText b.text &&
      attributes.isPerm b.attributes && sameAll children b.children

/-- Equality of lists of elements, one by one. -/
def sameAll : List Element → List Element → Bool
  | [], [] => true
  | a :: as, b :: bs => same a b && sameAll as bs
  | _, _ => false

end

/-- As `same`, with the texts of the two elements themselves left out of account. -/
def sameApartFromText (a b : Element) : Bool :=
  a.tag == b.tag && a.attributes.isPerm b.attributes && sameAll a.children b.children

/-- Whether both elements are there and equal. -/
def sameOption (ignoreText : Bool) : Option Element → Option Element → Bool
  | some a, some b => if ignoreText then sameApartFromText a b else same a b
  | _, _ => false

end Element

end ContactCard.Xml
