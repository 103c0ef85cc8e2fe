import ContactCard.Html.Tag

/-!
# HTML tokens

The tags, texts and comments of an HTML text, read piece by piece: each piece begins with an opening
bracket or an ampersand, or is text up to the next of the two.

The content of some elements is raw: up to the end tag of the element there are neither tags nor
references in it, and without the end tag all of it is lost. A section marked as character data is
text in which there are no references either.

A construct that is not finished is text: up to its first closing bracket, or else up to the next
opening one, or else no more of it than its own opening bracket. The reader remembers that this has
happened. Where the number of a reference cannot be read, only its first two characters are text, but
all that is left of the document is if something has gone wrong before or no semicolon is left.
-/

namespace ContactCard.Html

open Text

/-- A piece of an HTML text. -/
inductive Token where
  | text (s : String)
  | start (tag : StartTag)
  | close (tag : String)
  | comment (s : String)
  /-- A section marked as character data. -/
  | data (s : String)
  deriving DecidableEq

/-- The tokens of a piece, the characters after it, and whether something could not be read by
then. -/
structure Piece where
  tokens : List Token
  rest : List Char
  hasFailed : Bool

/-- The token of a text. -/
def textToken (cs : List Char) : Token := .text (String.ofList cs)

/-! ### Searching -/

/-- The characters before the first place where `stop?` finds something, and those after what it
finds. -/
def cutAt (stop? : List Char → Option (List Char)) : List Char → Option (List Char × List Char)
  | [] => none
  | c :: cs =>
    match stop? (c :: cs) with
    | some rest => some ([], rest)
    | none => (cutAt stop? cs).map fun (before, rest) ↦ (c :: before, rest)

/-- What follows a character. -/
def after? (c : Char) : List Char → Option (List Char)
  | [] => none
  | d :: cs => if d = c then some cs else none

/-- What follows the end of a comment: two hyphens and, perhaps after blanks, a closing bracket. -/
def afterCommentEnd? (cs : List Char) : Option (List Char) := do
  let cs ← after? '-' (← after? '-' cs)
  after? '>' (cs.dropWhile isBlank)

/-- What follows the end of a condition: a square bracket and, perhaps after blanks, a closing one. -/
def afterConditionEnd? (cs : List Char) : Option (List Char) := do
  after? '>' ((← after? ']' cs).dropWhile isBlank)

/-- What follows the end of a marked section: two square brackets and a closing one, perhaps with
blanks between them. -/
def afterSectionEnd? (cs : List Char) : Option (List Char) := do
  afterConditionEnd? ((← after? ']' cs).dropWhile isBlank)

/-- What follows the end tag of an element with raw content. The case of its name does not matter. -/
def afterRawEnd? (name : List Char) (cs : List Char) : Option (List Char) := do
  let cs := (← after? '/' (← after? '<' cs)).dropWhile isBlank
  if name.isPrefixOf (cs.map Char.toLower) then after? '>' ((cs.drop name.length).dropWhile isBlank)
  else none

/-! ### Constructs

Each function reads the characters after an opening bracket and what comes with it, and has no answer
if the construct is not finished. -/

/-- The names of the elements with raw content. -/
def rawElements : List String := ["script", "style"]

/-- The tokens that a start tag begins, and the characters after them. -/
def startTokens (tag : StartTag) (rest : List Char) : List Token × List Char :=
  if !tag.isEmptyElement && rawElements.contains tag.name then
    match cutAt (afterRawEnd? tag.name.toList) rest with
    | some (content, rest) => ([.start tag, textToken content, .close tag.name], rest)
    | none => ([.start tag], [])
  else ([.start tag], rest)

/-- Reads a start tag. A name that nothing of a tag could follow is text. -/
def readStart? (cs : List Char) : Option (List Token × List Char) :=
  match readStartTag cs with
  | .complete tag rest => some (startTokens tag rest)
  | .nameOnly name rest => some ([textToken ('<' :: name)], rest)
  | .unfinished => none

/-- A character of the name in an end tag that holds nothing else. -/
def isCloseChar (c : Char) : Bool :=
  c.isAlphanum || c == '-' || c == '.' || c == ':' || c == '_'

/-- Reads an end tag that holds nothing but a name and blanks. -/
def readPlainClose? (cs : List Char) : Option (List Token × List Char) := do
  let cs := cs.dropWhile isBlank
  guard (cs.head?.elim false Char.isAlpha)
  let rest ← after? '>' ((cs.dropWhile isCloseChar).dropWhile isBlank)
  return ([.close (toLower (String.ofList (cs.takeWhile isCloseChar)))], rest)

/-- Reads an end tag of any form, after its slash. One that does not begin with a name is a comment,
and an empty one is nothing. -/
def readClose? (cs : List Char) : Option (List Token × List Char) := do
  let (inner, rest) ← cutAt (after? '>') cs
  match readPlainClose? cs with
  | some found => return found
  | none =>
    if inner.isEmpty then return ([], rest)
    else if inner.head?.elim false Char.isAlpha then
      return ([.close (toLower (String.ofList (inner.takeWhile fun c ↦ !endsTagName c)))], rest)
    else return ([.comment (String.ofList inner)], rest)

/-- Reads a comment that ends where `stop?` finds its end. -/
def readComment? (stop? : List Char → Option (List Char)) (cs : List Char) :
    Option (List Token × List Char) :=
  (cutAt stop? cs).map fun (s, rest) ↦ ([.comment (String.ofList s)], rest)

/-- What the content of a section marked as character data begins with. -/
def dataMark : List Char := "cdata[".toList

/-- The token of a marked section. -/
def sectionToken (cs : List Char) : Token :=
  if dataMark.isPrefixOf (cs.map Char.toLower) then .data (String.ofList (cs.drop dataMark.length))
  else .comment (String.ofList cs)

/-- Reads a marked section, after its square bracket. A condition ends as soon as one square bracket
does. -/
def readSection? (cs : List Char) : Option (List Token × List Char) :=
  let keyword := toLower (String.ofList (cs.takeWhile Char.isAlpha))
  let stop? :=
    if ["if", "else", "endif"].contains keyword then afterConditionEnd? else afterSectionEnd?
  (cutAt stop? cs).map fun (s, rest) ↦ ([sectionToken s], rest)

/-- Reads a construct. A bracket that begins none is text. -/
def readConstruct? : List Char → Option (List Token × List Char)
  | '/' :: cs => readClose? cs
  | '!' :: '-' :: '-' :: cs => readComment? afterCommentEnd? cs
  | '!' :: '[' :: cs => readSection? cs
  | '!' :: cs => readComment? (after? '>') cs
  | '?' :: cs => readComment? (after? '>') cs
  | cs => if cs.head?.elim false Char.isAlpha then readStart? cs else some ([textToken ['<']], cs)

/-- What of an unfinished construct is text, and the characters after that. -/
def unfinishedText (cs : List Char) : List Char × List Char :=
  match cutAt (after? '>') cs with
  | some (inner, rest) => ('<' :: inner ++ ['>'], rest)
  | none =>
    if cs.contains '<' then ('<' :: cs.takeWhile (· != '<'), cs.dropWhile (· != '<'))
    else (['<'], cs)

/-! ### Pieces -/

/-- The piece that an opening bracket begins. -/
def bracketPiece (hasFailed : Bool) (cs : List Char) : Piece :=
  match readConstruct? cs with
  | some (tokens, rest) => ⟨tokens, rest, hasFailed⟩
  | none =>
    let (s, rest) := unfinishedText cs
    ⟨[textToken s], rest, true⟩

/-- The piece that an ampersand begins. -/
def referencePiece (hasFailed : Bool) (cs : List Char) : Piece :=
  match textReference? cs with
  | some (s, rest) => ⟨[textToken s], rest, hasFailed⟩
  | none =>
    if hasFailed || !cs.contains ';' then ⟨[textToken ('&' :: cs)], [], true⟩
    else ⟨[textToken ['&', '#']], cs.drop 1, true⟩

/-- The piece that a character begins. -/
def pieceOf (hasFailed : Bool) (c : Char) (cs : List Char) : Piece :=
  let isPlain (c : Char) : Bool := c != '<' && c != '&'
  if c = '<' then bracketPiece hasFailed cs
  else if c = '&' then referencePiece hasFailed cs
  else ⟨[textToken (c :: cs.takeWhile isPlain)], cs.dropWhile isPlain, hasFailed⟩

/-- The tokens from here on. -/
def tokensFrom (hasFailed : Bool) : List Char → List Token
  | [] => []
  | c :: cs =>
    let p := pieceOf hasFailed c cs
    p.tokens ++ tokensFrom p.hasFailed (ending cs p.rest)
termination_by cs => cs.length
decreasing_by exact Nat.lt_succ_of_le (length_ending_le cs _)

/-- The tokens of an HTML text. -/
def tokens (s : String) : List Token := tokensFrom false s.toList

end ContactCard.Html
