import ContactCard.Html.Reference
import ContactCard.Proofs.Xml.Name

/-!
# Reading XML

A reader for XML 1.0 with namespaces. It reads documents that are made of elements, attributes,
texts and references, and it refuses what it does not read: comments, processing instructions,
marked sections, document types. What it does read has one meaning to every reader of XML.

A document is read in three stages:

```
scan     characters to tokens, one character at a time
tree?    tokens to an element, the tags with the names that are written
resolve  written names to expanded names
```

The first two stages are folds over what they read, and neither looks ahead. So what each of them
does with a text follows from what it does with the parts of the text (`Reads.trans`), from
whatever state it comes to them.
-/

namespace ContactCard.Xml

/-! ### Tokens -/

/-- A tag, or the text between two tags. A tag that opens and closes an element at once is two
tokens. -/
inductive Token where
  | text (s : String)
  | opening (name : String) (attributes : List (String × String))
  | closing (name : String)

/-- A start tag as far as it was read. -/
structure TagHead where
  name : String
  attributes : List (String × String)

/-- What the next character belongs to, with what was read of it so far. -/
inductive Mode where
  | text (cs : List Char)
  | textReference (cs reference : List Char)
  | tagOpen
  | startName (name : List Char)
  | inTag (head : TagHead)
  | attributeName (head : TagHead) (key : List Char)
  | beforeEquals (head : TagHead) (key : List Char)
  | beforeValue (head : TagHead) (key : List Char)
  | value (head : TagHead) (key : List Char) (quote : Char) (cs : List Char)
  | valueReference (head : TagHead) (key : List Char) (quote : Char) (cs reference : List Char)
  | afterValue (head : TagHead)
  | emptyEnd (head : TagHead)
  | closeOpen
  | closeName (name : List Char)
  | closeEnd (name : List Char)

def isSpace (c : Char) : Bool := c == ' ' || c == '\t' || c == '\n' || c == '\r'

/-- The characters that begin names as they are written, colons among them. -/
def isWrittenNameStart (c : Char) : Bool := c == ':' || isNameStart c

def isWrittenNamePart (c : Char) : Bool := c == ':' || isNamePart c

/-- The entities that need no declaration. -/
def entities : List (List Char × Char) :=
  [("amp".toList, '&'), ("lt".toList, '<'), ("gt".toList, '>'), ("quot".toList, '"'),
   ("apos".toList, '\'')]

/-- The character with a number. -/
def numberedChar? (n : Nat) : Option Char :=
  let c := Char.ofNat n
  if c.toNat = n ∧ isXmlChar c then some c else none

/-- The character that the name or the number between an ampersand and a semicolon means. -/
def referencedChar? : List Char → Option Char
  | '#' :: 'x' :: digits =>
    if !digits.isEmpty ∧ digits.all Html.isHexDigit then
      numberedChar? (Html.digitsNumber 16 digits)
    else none
  | '#' :: digits =>
    if !digits.isEmpty ∧ digits.all Char.isDigit then
      numberedChar? (Html.digitsNumber 10 digits)
    else none
  | name => entities.lookup name

/-- The token of the text between two tags, if there is any. -/
def textTokens (cs : List Char) : List Token :=
  if cs.isEmpty then [] else [.text (String.ofList cs)]

/-- What a character that is part of no name and no value does in a start tag. -/
def finishHead (head : TagHead) (c : Char) : Option (Mode × List Token) :=
  if c = '>' then some (.text [], [.opening head.name head.attributes])
  else if c = '/' then some (.emptyEnd head, [])
  else if isSpace c then some (.inTag head, [])
  else none

/-- Reads a character. A text must not hold the end of a marked section. -/
def step : Mode → Char → Option (Mode × List Token)
  | .text cs, c =>
    if c = '<' then some (.tagOpen, textTokens cs)
    else if c = '&' then some (.textReference cs [], [])
    else if c = '>' ∧ "]]".toList.isSuffixOf cs then none
    else some (.text (cs ++ [c]), [])
  | .textReference cs reference, c =>
    if c = ';' then (referencedChar? reference).map fun d ↦ (.text (cs ++ [d]), [])
    else some (.textReference cs (reference ++ [c]), [])
  | .tagOpen, c =>
    if c = '/' then some (.closeOpen, [])
    else if isWrittenNameStart c then some (.startName [c], [])
    else none
  | .startName name, c =>
    if isWrittenNamePart c then some (.startName (name ++ [c]), [])
    else finishHead ⟨String.ofList name, []⟩ c
  | .inTag head, c =>
    if isWrittenNameStart c then some (.attributeName head [c], []) else finishHead head c
  | .attributeName head key, c =>
    if isWrittenNamePart c then some (.attributeName head (key ++ [c]), [])
    else if c = '=' then some (.beforeValue head key, [])
    else if isSpace c then some (.beforeEquals head key, [])
    else none
  | .beforeEquals head key, c =>
    if c = '=' then some (.beforeValue head key, [])
    else if isSpace c then some (.beforeEquals head key, [])
    else none
  | .beforeValue head key, c =>
    if c = '"' ∨ c = '\'' then some (.value head key c [], [])
    else if isSpace c then some (.beforeValue head key, [])
    else none
  | .value head key quote cs, c =>
    if c = quote then
      some (.afterValue ⟨head.name,
        head.attributes ++ [(String.ofList key, String.ofList cs)]⟩, [])
    else if c = '<' then none
    else if c = '&' then some (.valueReference head key quote cs [], [])
    else some (.value head key quote (cs ++ [if isSpace c then ' ' else c]), [])
  | .valueReference head key quote cs reference, c =>
    if c = ';' then
      (referencedChar? reference).map fun d ↦ (.value head key quote (cs ++ [d]), [])
    else some (.valueReference head key quote cs (reference ++ [c]), [])
  | .afterValue head, c => finishHead head c
  | .emptyEnd head, c =>
    if c = '>' then some (.text [], [.opening head.name head.attributes, .closing head.name])
    else none
  | .closeOpen, c => if isWrittenNameStart c then some (.closeName [c], []) else none
  | .closeName name, c =>
    if isWrittenNamePart c then some (.closeName (name ++ [c]), [])
    else if c = '>' then some (.text [], [.closing (String.ofList name)])
    else if isSpace c then some (.closeEnd name, [])
    else none
  | .closeEnd name, c =>
    if c = '>' then some (.text [], [.closing (String.ofList name)])
    else if isSpace c then some (.closeEnd name, [])
    else none

/-- Reads characters up to the end of the document, where nothing may be unfinished. -/
def scan : Mode → List Char → Option (List Token)
  | .text cs, [] => some (textTokens cs)
  | _, [] => none
  | mode, c :: cs => do
    let (mode, tokens) ← step mode c
    return tokens ++ (← scan mode cs)

/-! ### Trees -/

namespace Element

/-- The element with a text at its end: its own text, or the one after its last child. -/
def addText (e : Element) (s : String) : Element :=
  match e.children.getLast? with
  | none => { e with text := .text s }
  | some last => { e with children := e.children.dropLast ++ [{ last with tail := some s }] }

end Element

/-- The open elements, the innermost first, and the root once it is closed. -/
structure Nest where
  stack : List Element
  root : Option Element

namespace Nest

/-- Closes the innermost element. -/
def close (n : Nest) (e : Element) : List Element → Nest
  | [] => ⟨[], some e⟩
  | parent :: stack => ⟨parent.append e :: stack, n.root⟩

/-- Adds a token. No text stands outside the root. -/
def add (n : Nest) : Token → Option Nest
  | .text s =>
    match n.stack with
    | [] => none
    | e :: stack => some ⟨e.addText s :: stack, n.root⟩
  | .opening name attributes =>
    if (attributes.map Prod.fst).Nodup ∧ n.root.isNone then
      some ⟨.bare name attributes :: n.stack, n.root⟩
    else none
  | .closing name =>
    match n.stack with
    | [] => none
    | e :: stack => if e.tag = name then some (n.close e stack) else none

end Nest

/-- The element that the tokens make up. -/
def tree? (tokens : List Token) : Option Element := do
  let n ← tokens.foldlM Nest.add ⟨[], none⟩
  if n.stack.isEmpty then n.root else none

/-! ### Documents -/

/-- The characters with every line end as a line feed. -/
def normalizeLineEnds : List Char → List Char
  | '\r' :: '\n' :: cs => '\n' :: normalizeLineEnds cs
  | '\r' :: cs => '\n' :: normalizeLineEnds cs
  | c :: cs => c :: normalizeLineEnds cs
  | [] => []

/-- The declaration that a document may begin with, in the one form that is read. -/
def declaration : List Char := "<?xml version='1.0' encoding='utf-8'?>".toList

/-- The characters after the declaration. -/
def dropDeclaration (cs : List Char) : List Char :=
  if declaration.isPrefixOf cs then cs.drop declaration.length else cs

/-- The characters without the blanks around them. -/
def trim (cs : List Char) : List Char :=
  ((cs.dropWhile isSpace).reverse.dropWhile isSpace).reverse

/-- The root element of a document, with the names that are written. -/
def readWritten (s : String) : Option Element := do
  let cs := normalizeLineEnds s.toList
  if cs.all isXmlChar then tree? (← scan (.text []) (trim (dropDeclaration cs))) else none

/-! ### Namespaces -/

/-- The namespaces of prefixes, the innermost first; the empty prefix is for the default namespace.
-/
abbrev Bindings := List (String × String)

/-- The prefix that an attribute of this name declares. -/
def declaredPrefix? (name : String) : Option String :=
  if name = "xmlns" then some ""
  else
    match splitPrefix name with
    | (some "xmlns", pre) => some pre
    | _ => none

/-- The bindings inside a start tag with the attributes. -/
def bind (bindings : Bindings) (attributes : List (String × String)) : Bindings :=
  attributes.foldl (fun bindings a ↦
    match declaredPrefix? a.1 with
    | some pre => (pre, a.2) :: bindings
    | none => bindings) bindings

/-- What holds of the bindings outside and of what is declared holds of the bindings inside. -/
theorem forall_mem_bind {P : String × String → Prop} {bindings : Bindings}
    (h : ∀ b ∈ bindings, P b) {attributes : List (String × String)}
    (hdeclared : ∀ a ∈ attributes, ∀ pre, declaredPrefix? a.1 = some pre → P (pre, a.2)) :
    ∀ b ∈ bind bindings attributes, P b := by
  induction attributes generalizing bindings with
  | nil => exact h
  | cons a rest ih =>
    obtain ⟨hfirst, hrest⟩ := List.forall_mem_cons.mp hdeclared
    rw [bind, List.foldl_cons, ← bind]
    cases hpre : declaredPrefix? a.1 with
    | none => exact ih h hrest
    | some pre => exact ih (List.forall_mem_cons.mpr ⟨hfirst pre hpre, h⟩) hrest

/-- The expanded name of an element. -/
def resolveTag (bindings : Bindings) (name : String) : Option String :=
  match splitPrefix name with
  | (some pre, plain) => (bindings.lookup pre).map fun ns ↦ expandedName ns plain
  | (none, plain) =>
    let ns := (bindings.lookup "").getD ""
    some (if ns.isEmpty then plain else expandedName ns plain)

/-- The expanded name of an attribute, which has no namespace if it has no prefix. -/
def resolveAttributeName (bindings : Bindings) (name : String) : Option String :=
  match splitPrefix name with
  | (some pre, plain) => (bindings.lookup pre).map fun ns ↦ expandedName ns plain
  | (none, plain) => some plain

/-- The attributes with expanded names, declarations left out. -/
def resolveAttributes (bindings : Bindings) :
    List (String × String) → Option (List (String × String))
  | [] => some []
  | (name, value) :: rest =>
    match declaredPrefix? name with
    | some _ => resolveAttributes bindings rest
    | none => do
      let name ← resolveAttributeName bindings name
      return (name, value) :: (← resolveAttributes bindings rest)

namespace Element

mutual

/-- The element with expanded names, if every prefix is declared. -/
def resolve (bindings : Bindings) : Element → Option Element
  | ⟨tag, attributes, text, tail, children⟩ => do
    let inner := bind bindings attributes
    let tag ← resolveTag inner tag
    let attributes ← resolveAttributes inner attributes
    return ⟨tag, attributes, text, tail, ← resolveAll inner children⟩

/-- The elements with expanded names. -/
def resolveAll (bindings : Bindings) : List Element → Option (List Element)
  | [] => some []
  | e :: rest => do
    let e ← resolve bindings e
    return e :: (← resolveAll bindings rest)

end

mutual

/-- The element and all elements below it. -/
def nodes : Element → List Element
  | ⟨tag, attributes, text, tail, children⟩ =>
    ⟨tag, attributes, text, tail, children⟩ :: nodesAll children

/-- The elements and all elements below them. -/
def nodesAll : List Element → List Element
  | [] => []
  | e :: rest => nodes e ++ nodesAll rest

end

theorem nodesAll_eq_flatMap (es : List Element) : nodesAll es = es.flatMap nodes := by
  induction es with
  | nil => rfl
  | cons e rest ih => rw [nodesAll, ih, List.flatMap_cons]

theorem nodes_eq (e : Element) : e.nodes = e :: e.children.flatMap nodes := by
  rw [← nodesAll_eq_flatMap]
  cases e
  rfl

theorem mem_nodes_self (e : Element) : e ∈ e.nodes := by
  rw [nodes_eq]
  exact List.mem_cons_self

theorem forall_mem_nodes_iff {P : Element → Prop} {e : Element} :
    (∀ x ∈ e.nodes, P x) ↔ P e ∧ ∀ child ∈ e.children, ∀ x ∈ child.nodes, P x := by
  rw [nodes_eq, List.forall_mem_cons]
  simp only [List.mem_flatMap, forall_exists_index, and_imp]
  exact and_congr_right fun _ ↦
    ⟨fun h child hchild x hx ↦ h x child hchild hx, fun h x child hchild hx ↦ h child hchild x hx⟩

theorem forall_mem_nodes_of_childless {P : Element → Prop} {e : Element} (he : e.children = []) :
    (∀ x ∈ e.nodes, P x) ↔ P e := by
  rw [forall_mem_nodes_iff, he]
  simp

theorem forall_mem_nodes_of_child {P : Element → Prop} {e child : Element}
    (he : e.children = [child]) :
    (∀ x ∈ e.nodes, P x) ↔ P e ∧ ∀ x ∈ child.nodes, P x := by
  rw [forall_mem_nodes_iff, he, List.forall_mem_singleton]

end Element

/-- The namespace of declarations. -/
def xmlnsNamespace : String := "http://www.w3.org/2000/xmlns/"

/-- The bindings outside the root. -/
def outerBindings : Bindings := [("xml", xmlNamespace)]

/-- Whether a written name is a name with or without a prefix. -/
def isQName (name : String) : Bool :=
  match splitPrefix name with
  | (some pre, plain) => isNCName pre.toList && isNCName plain.toList
  | (none, plain) => isNCName plain.toList

/-- Whether a prefix may be declared for a namespace. An expanded name could not be told apart if
its namespace held a closing brace. -/
def isLegalBinding (pre ns : String) : Bool :=
  pre != "xmlns" && ns != xmlnsNamespace && (pre == "xml") == (ns == xmlNamespace) &&
    (pre.isEmpty || !ns.isEmpty) && !ns.toList.contains '\x7d'

/-- Whether the names of an element and its attributes are names, and its declarations legal. -/
def hasLegalNames (e : Element) : Bool :=
  isQName e.tag && e.attributes.all fun a ↦
    isQName a.1 && (declaredPrefix? a.1).elim true fun pre ↦ isLegalBinding pre a.2

/-- Reads a document: its root element, with expanded names. No element has two attributes of one
name. -/
def read (s : String) : Option Element := do
  let written ← readWritten s
  if written.nodes.all hasLegalNames then
    let e ← written.resolve outerBindings
    if ∀ x ∈ e.nodes, (x.attributes.map Prod.fst).Nodup then some e else none
  else none

end ContactCard.Xml
