import ContactCard.Text.Blank

/-!
# XML markup

An element as it is written: the name with its prefix, the attributes, and the namespace declarations
of its start tag. Writing it out escapes texts and attribute values; a non-negative indentation puts
every child on a line of its own, one step further in than its parent, and drops the blanks around
the text of an element that has children.

Characters that XML does not allow are written as the replacement character.
-/

namespace ContactCard.Xml

open Text

/-- An element as it is written. A declaration pairs a namespace with its prefix, which is empty for
the default namespace. -/
structure Markup where
  name : String
  attributes : List (String × String)
  declarations : List (String × String)
  text : String
  children : List Markup

namespace Markup

/-! ### Characters -/

/-- A character of a text as it is written. -/
def escapeChar (c : Char) : List Char :=
  if c = '&' then "&amp;".toList
  else if c = '<' then "&lt;".toList
  else if c = '>' then "&gt;".toList
  else [c]

/-- A text as it is written. -/
def escapeText (cs : List Char) : List Char := cs.flatMap escapeChar

/-- A character of an attribute value as it is written, quotes apart. -/
def escapeAttributeChar (c : Char) : List Char :=
  if c = '\n' then "&#10;".toList
  else if c = '\r' then "&#13;".toList
  else if c = '\t' then "&#9;".toList
  else escapeChar c

/-- An attribute value with its quotes: single ones around a value that holds double quotes only,
double ones otherwise. -/
def quoteValue (cs : List Char) : List Char :=
  let escaped := cs.flatMap escapeAttributeChar
  if cs.contains '"' then
    if cs.contains '\'' then
      '"' :: (escaped.flatMap fun c ↦ if c = '"' then "&quot;".toList else [c]) ++ ['"']
    else '\'' :: escaped ++ ['\'']
  else '"' :: escaped ++ ['"']

/-- A control character that XML does not allow. -/
def isForbidden (c : Char) : Bool :=
  let n := c.toNat
  n ≤ 8 || n == 11 || n == 12 || (14 ≤ n && n ≤ 31)

/-- The character that is written for `c`. -/
def allowedChar (c : Char) : Char := if isForbidden c then '\ufffd' else c

/-- The text without characters that XML does not allow. -/
def clean (s : String) : String := String.ofList (s.toList.map allowedChar)

/-! ### Tags -/

/-- A name and a value, with the blank before them. -/
def renderPair (name : List Char) (value : String) : List Char :=
  ' ' :: name ++ '=' :: quoteValue value.toList

/-- A namespace declaration. -/
def renderDeclaration (d : String × String) : List Char :=
  let name := if d.2.isEmpty then "xmlns".toList else "xmlns:".toList ++ d.2.toList
  renderPair name d.1

/-- The start tag up to its last bracket. -/
def renderStart (name : String) (attributes declarations : List (String × String)) : List Char :=
  '<' :: name.toList ++ (attributes.flatMap fun a ↦ renderPair a.1.toList a.2) ++
    declarations.flatMap renderDeclaration

/-- A line end and the indentation of a level. -/
def lineBreak (indent level : Nat) : List Char := '\n' :: List.replicate (indent * level) ' '

mutual

/-- The characters of an element at some level of nesting; without an indentation everything stands
on one line. -/
def render (indent : Option Nat) (level : Nat) : Markup → List Char
  | ⟨name, attributes, declarations, text, children⟩ =>
    let start := renderStart name attributes declarations
    let close := '<' :: '/' :: name.toList ++ ['>']
    match children, indent with
    | [], _ =>
      if text.isEmpty then start ++ ['/', '>'] else start ++ '>' :: escapeText text.toList ++ close
    | child :: rest, none =>
      start ++ '>' :: escapeText text.toList ++ renderAll none level (child :: rest) ++ close
    | child :: rest, some width =>
      start ++ '>' :: escapeText (stripChars text.toList) ++
        renderAll (some width) level (child :: rest) ++ lineBreak width level ++ close

/-- The characters of the children of an element at that level. -/
def renderAll (indent : Option Nat) (level : Nat) : List Markup → List Char
  | [] => []
  | m :: rest =>
    (match indent with
      | none => []
      | some width => lineBreak width (level + 1)) ++
      render indent (level + 1) m ++ renderAll indent level rest

end

end Markup

end ContactCard.Xml
