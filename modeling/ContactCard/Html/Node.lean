import ContactCard.OrderedMap

/-!
# HTML trees

An HTML tree: elements with attributes and children, texts and comments. An attribute whose values
are separated by blanks may be held as a list of words.
-/

namespace ContactCard.Html

/-- What an attribute holds. -/
inductive AttributeValue where
  | text (s : String)
  | words (ws : List String)
  deriving DecidableEq

/-- The value as one text, in which a single blank separates the words. -/
def AttributeValue.toText : AttributeValue → String
  | .text s => s
  | .words ws => " ".intercalate ws

/-- A part of an HTML tree. -/
inductive Node where
  | text (s : String)
  | comment (s : String)
  | element (tag : String) (attributes : OrderedMap String AttributeValue) (children : List Node)
  deriving Inhabited

namespace Node

mutual

/-- The text in a tree. Comments are not part of it. -/
def innerText : Node → String
  | .text s => s
  | .comment _ => ""
  | .element _ _ children => innerTextAll children

/-- The text in a list of trees. -/
def innerTextAll : List Node → String
  | [] => ""
  | n :: rest => innerText n ++ innerTextAll rest

end

/-- Whether the node is an element. -/
def isElement : Node → Bool
  | .element _ _ _ => true
  | _ => false

end Node

end ContactCard.Html
