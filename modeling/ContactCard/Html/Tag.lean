import ContactCard.Html.Reference
import ContactCard.Text.Blank
import ContactCard.Text.Case

/-!
# HTML start tags

A start tag is a name and attributes between brackets. Blanks and slashes separate the attributes; a
slash right before the closing bracket says that the element has no content. An attribute has a value
if an equals sign comes after its name: in quotes, or bare, up to the next blank or the closing
bracket. More equals signs may follow the first one at once, while one that comes after a blank is a
part of the value.

What looks like a value in quotes but has no second quote is none. The blanks before it are then an
empty value; without any, the last of several equals signs begins a bare value; and a single equals
sign belongs to no value at all, so that the name is all there is of the attribute.

A function that reads something gives what it read and the characters after it.
-/

namespace ContactCard.Html

open Text

/-- A start tag. Attributes stand in the order in which they appear. -/
structure StartTag where
  name : String
  attributes : List (String × String)
  /-- Whether the tag says that the element has no content. -/
  isEmptyElement : Bool
  deriving DecidableEq

/-- What stands after an opening bracket and a letter. -/
inductive TagReading where
  | complete (tag : StartTag) (rest : List Char)
  /-- The name of a tag and nothing that could follow it. -/
  | nameOnly (name rest : List Char)
  | unfinished
  deriving DecidableEq

/-! ### Characters -/

/-- A character that ends the name of a tag. -/
def endsTagName (c : Char) : Bool :=
  c = '\t' || c = '\n' || c = '\r' || c = '\x0c' || c = ' ' || c = '/' || c = '>' || c = '\x00'

def isQuote (c : Char) : Bool := c = '"' || c = '\''

/-- A character that separates attributes. -/
def isSeparator (c : Char) : Bool := c = '/' || isBlank c

/-- A character right after which an attribute may begin. -/
def precedesKey (c : Char) : Bool := isQuote c || isSeparator c

/-- A character that the name of an attribute may begin with. -/
def beginsKey (c : Char) : Bool := !isSeparator c && c != '>'

/-- A character of the name of an attribute after the first. -/
def isKeyChar (c : Char) : Bool := beginsKey c && c != '='

/-- A character of a bare value. -/
def isBareChar (c : Char) : Bool := !isBlank c && c != '>'

/-- The last characters of `cs`, as many as there are in `rest`: where `rest` is the end of `cs`,
that is `rest` itself. -/
def ending (cs rest : List Char) : List Char := cs.drop (cs.length - rest.length)

theorem length_ending_le (cs rest : List Char) : (ending cs rest).length ≤ cs.length := by
  simp [ending]

/-! ### Attributes -/

/-- A bare value. -/
def bareValue (cs : List Char) : List Char × List Char :=
  (cs.takeWhile isBareChar, cs.dropWhile isBareChar)

/-- A value in quotes, if the second quote is there. -/
def quotedValue? : List Char → Option (List Char × List Char)
  | [] => none
  | mark :: cs =>
    if cs.contains mark then
      some (cs.takeWhile (· != mark), (cs.dropWhile (· != mark)).drop 1)
    else none

/-- The value of an attribute whose name stands before these characters. -/
def value? (cs : List Char) : Option (List Char × List Char) :=
  match cs.dropWhile isBlank with
  | '=' :: more =>
    let afterEquals := more.dropWhile (· = '=')
    let begun := afterEquals.dropWhile isBlank
    if begun.head?.elim false isQuote then
      match quotedValue? begun with
      | some found => some found
      | none =>
        if afterEquals.head?.elim false isBlank then some ([], afterEquals)
        else if more.head? = some '=' then some (bareValue ('=' :: afterEquals))
        else none
    else some (bareValue begun)
  | _ => none

/-- The attributes from here on. Before each there must be a separator or a quote; `isApart` tells
whether one stands right before these characters. A slash right before the closing bracket is left to
the tag. -/
def readAttributes (isApart : Bool) : List Char → List (List Char × List Char) × List Char
  | [] => ([], [])
  | c :: cs =>
    if isSeparator c && !(c = '/' && cs.head? = some '>') then readAttributes true cs
    else if isApart && beginsKey c then
      let key := c :: cs.takeWhile isKeyChar
      let after := cs.dropWhile isKeyChar
      let (value, isApart, rest) := match value? after with
        | some (value, rest) => (value, true, rest)
        | none => ([], key.getLast?.elim false precedesKey, after)
      let (others, rest) := readAttributes isApart (ending cs rest)
      ((key, value) :: others, rest)
    else ([], c :: cs)
termination_by cs => cs.length
decreasing_by
  · simp
  · exact Nat.lt_succ_of_le (length_ending_le cs _)

/-! ### Tags -/

/-- An attribute with its name in lower case and the references in its value resolved. -/
def finishAttribute (a : List Char × List Char) : String × String :=
  (toLower (String.ofList a.1), String.ofList (attributeCharacters a.2))

/-- The start tag whose name these characters begin with. -/
def readStartTag (cs : List Char) : TagReading :=
  let name := cs.takeWhile fun c ↦ !endsTagName c
  let after := cs.dropWhile fun c ↦ !endsTagName c
  let (attributes, rest) := readAttributes (name.getLast?.elim false precedesKey) after
  let tag (isEmptyElement : Bool) : StartTag :=
    ⟨toLower (String.ofList name), attributes.map finishAttribute, isEmptyElement⟩
  match rest with
  | '>' :: rest => .complete (tag false) rest
  | '/' :: '>' :: rest => .complete (tag true) rest
  | '\x00' :: rest => .nameOnly name ('\x00' :: rest)
  | _ => .unfinished

end ContactCard.Html
