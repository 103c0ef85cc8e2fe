import ContactCard.Html.Node
import ContactCard.Html.Token

/-!
# Reading HTML

The tree that the tokens of an HTML text make up. An element that is not closed ends with its parent;
an end tag without its element is passed over. A text of nothing but blanks becomes a single one,
except where blanks are to be kept.

Elements of some names never have content: their start tag ends them. An end tag that comes after
all the same is passed over once for each of them, and the text around it is one text.

Elements of some other names hold texts that are not part of the text around them. Of a tree, the
reader keeps the texts that are part of the text of the outermost element.
-/

namespace ContactCard.Html

open Text

/-- The names of the elements that have no content. -/
def voidElements : List String :=
  ["area", "base", "br", "col", "embed", "hr", "img", "input", "keygen", "link", "menuitem", "meta",
   "param", "source", "track", "wbr", "basefont", "bgsound", "command", "frame", "image", "isindex",
   "nextid", "spacer"]

/-- The names of the elements whose texts are not part of the text around them. -/
def apartElements : List String := ["rt", "rp", "style", "script", "template"]

/-- The names of the elements in which blanks are kept. -/
def preformattedElements : List String := ["pre", "textarea"]

/-- The attributes that hold words in elements of any name. -/
def commonWordAttributes : List String := ["class", "accesskey", "dropzone"]

/-- The attributes that hold words in elements of one name. -/
def wordAttributes : List (String × List String) :=
  [("a", ["rel", "rev"]), ("link", ["rel", "rev"]), ("td", ["headers"]), ("th", ["headers"]),
   ("form", ["accept-charset"]), ("object", ["archive"]), ("area", ["rel"]), ("icon", ["sizes"]),
   ("iframe", ["sandbox"]), ("output", ["for"])]

/-- The value of an attribute, taken apart if it holds words. -/
def attributeValue (tag name value : String) : AttributeValue :=
  if commonWordAttributes.contains name || ((wordAttributes.lookup tag).getD []).contains name then
    .words (words value)
  else .text value

/-- The attributes of an element. The last of several with one name counts. -/
def attributeMap (tag : String) (attributes : List (String × String)) :
    OrderedMap String AttributeValue :=
  .ofList (attributes.map fun (name, value) ↦ (name, attributeValue tag name value))

/-- A blank of ASCII that a text can be made up of. -/
def isSpace (c : Char) : Bool := c = ' ' || c = '\n' || c = '\t' || c = '\x0c' || c = '\r'

/-- A text with blanks only becomes one line end, if it has any, or one space. -/
def collapse (s : String) : String :=
  if s.toList.all isSpace then if s.toList.contains '\n' then "\n" else " " else s

/-- An element whose end has not been met, with its children in reverse order. -/
structure OpenElement where
  tag : String
  attributes : OrderedMap String AttributeValue
  children : List Node

/-- An element that has ended, with more nodes, in reverse order, after its children. -/
def OpenElement.close (e : OpenElement) (more : List Node) : Node :=
  .element e.tag e.attributes (more ++ e.children).reverse

/-- The open elements, the innermost first; what lies outside of them all, in reverse order; the text
that has been read since the last node; and the names of the elements without content whose end tags
may still come. -/
structure TreeBuilder where
  stack : List OpenElement
  roots : List Node
  text : String
  ended : List String

namespace TreeBuilder

/-- Before the first token. -/
def initial : TreeBuilder := ⟨[], [], "", []⟩

/-- Adds a node to the innermost open element. -/
def add (b : TreeBuilder) (n : Node) : TreeBuilder :=
  match b.stack with
  | [] => { b with roots := n :: b.roots }
  | e :: rest => { b with stack := { e with children := n :: e.children } :: rest }

/-- The name of the innermost open element whose texts stand apart. -/
def apartName? (stack : List OpenElement) : Option String :=
  (stack.map OpenElement.tag).find? apartElements.contains

/-- Whether a text here is part of the text of the outermost open element. -/
def isPartOfText (b : TreeBuilder) : Bool :=
  apartName? b.stack == apartName? b.stack.getLast?.toList

/-- Whether blanks are to be kept here. -/
def keepsBlanks (b : TreeBuilder) : Bool :=
  b.stack.any fun e ↦ preformattedElements.contains e.tag

/-- Adds a text, of which only a single blank remains if it is made up of blanks. -/
def addText (b : TreeBuilder) (s : String) : TreeBuilder :=
  b.add (.text (if b.keepsBlanks then s else collapse s))

/-- Ends the text that has been read. -/
def endText (b : TreeBuilder) : TreeBuilder :=
  let read := { b with text := "" }
  if b.text.isEmpty || !b.isPartOfText then read else read.addText b.text

/-- Adds a section of character data, which is part of a text unless the outermost element stands
apart. -/
def addData (b : TreeBuilder) (s : String) : TreeBuilder :=
  if (apartName? b.stack.getLast?.toList).isNone then b.endText.addText s else b.endText

/-- Ends open elements up to and including the first with the name. `inner` is what has ended since
the innermost of them. -/
def closeThrough (tag : String) (b : TreeBuilder) (inner : List Node) :
    List OpenElement → TreeBuilder
  | [] => { b with stack := [], roots := inner ++ b.roots }
  | e :: rest =>
    if e.tag = tag then add { b with stack := rest } (e.close inner)
    else closeThrough tag b [e.close inner] rest

/-- Ends the innermost open element of that name, if there is one, with all that is open inside it. -/
def close (b : TreeBuilder) (tag : String) : TreeBuilder :=
  let b := b.endText
  if b.stack.any fun e ↦ e.tag = tag then closeThrough tag b [] b.stack else b

/-- Takes in an end tag. -/
def endTag (b : TreeBuilder) (tag : String) : TreeBuilder :=
  if b.ended.contains tag then { b with ended := b.ended.erase tag } else b.close tag

/-- Opens an element. -/
def openElement (b : TreeBuilder) (t : StartTag) : TreeBuilder :=
  let b := b.endText
  { b with stack := ⟨t.name, attributeMap t.name t.attributes, []⟩ :: b.stack }

/-- Takes in a start tag. -/
def startTag (b : TreeBuilder) (t : StartTag) : TreeBuilder :=
  let b := b.openElement t
  if t.isEmptyElement then b.endTag t.name
  else if voidElements.contains t.name then
    let b := b.close t.name
    { b with ended := t.name :: b.ended }
  else b

/-- Takes in one token. -/
def step (b : TreeBuilder) : Token → TreeBuilder
  | .text s => { b with text := b.text ++ s }
  | .data s => b.addData s
  | .comment s => b.endText.add (.comment s)
  | .start t => b.startTag t
  | .close tag => b.endTag tag

/-- Ends all open elements. -/
def closeAll (inner : List Node) : List OpenElement → List Node → List Node
  | [], roots => inner ++ roots
  | e :: rest, roots => closeAll [e.close inner] rest roots

end TreeBuilder

/-- The trees of an HTML text. -/
def read (s : String) : List Node :=
  let b := ((tokens s).foldl TreeBuilder.step .initial).endText
  (TreeBuilder.closeAll [] b.stack b.roots).reverse

end ContactCard.Html
