import ContactCard.Error
import ContactCard.OrderedMap
import ContactCard.Xml.Element
import ContactCard.Xml.Markup

/-!
# Writing XML

An element tree is written in two steps: names with namespaces are turned into names with prefixes,
which gives markup, and the markup is written out.

The elements of one namespace, the default one, have no prefix. Any other namespace gets the prefix
that is in scope for it; else the one registered for it; else a new one, `ns` and a number. A start
tag declares the prefixes that its name and its attributes bring into scope. The number of the next
new prefix belongs to the writer and only grows, also when a tree cannot be written.

A setting may register values of any kind. One that is registered for a namespace and is no text can
be written only if it counts as false, and then stands for no prefix. One that cannot be the key of a
map can not be told from the used prefixes, so that there are no new ones.
-/

namespace ContactCard.Xml

/-- The namespace whose prefix `xml` needs no declaration. -/
def xmlNamespace : String := "http://www.w3.org/XML/1998/namespace"

/-! ### Names -/

/-- The namespace and the local part of a name in the form `{namespace}local`. An attribute need not
have a namespace. -/
def splitName (name : String) (isElement : Bool) : Except Error (Option String × String) :=
  match name.toList with
  | '\x7b' :: rest =>
    match rest.dropWhile (· != '\x7d') with
    | _ :: tail =>
      .ok (some (String.ofList (rest.takeWhile (· != '\x7d'))), String.ofList tail)
    | [] => .error (.fault .unclosedNamespace)
  | _ => if isElement then .error (.unqualifiedElement name) else .ok (none, name)

/-- A local name with its prefix, if it has one. -/
def joinName (pre name : String) : String := if pre.isEmpty then name else pre ++ ":" ++ name

/-! ### Prefixes -/

/-- The prefixes of namespaces; an empty one stands for none. -/
abbrev PrefixTable := OrderedMap String String

/-- What a writer knows between two trees. -/
structure Writer where
  defaultNamespace : Option String
  prefixes : PrefixTable
  /-- What is registered otherwise than as a text for a text, with what it is registered for. -/
  oddities : List (Value × Value)
  nextNumber : Nat

/-- The new prefix with a number. -/
def numberedPrefix (n : Nat) : String := "ns" ++ toString n

/-- The first number from `n` on whose prefix is not used. Of more numbers than there are used
prefixes, one is free, so the fuel need only be as large as their number. -/
def firstFree (used : List String) : Nat → Nat → Nat
  | 0, n => n
  | fuel + 1, n => if used.contains (numberedPrefix n) then firstFree used fuel (n + 1) else n

namespace Writer

/-- A writer that knows only the prefix of the namespace of XML. -/
def new (defaultNamespace : Option String) : Writer :=
  ⟨defaultNamespace, OrderedMap.empty.insert xmlNamespace "xml", [], 1⟩

/-- Registers a prefix for a namespace. The prefix `xml` is reserved. -/
def addPrefix (w : Writer) (ns pre : String) : Except Error Writer :=
  if pre = "xml" ∧ ns ≠ xmlNamespace then .error .reservedPrefix
  else .ok { w with prefixes := w.prefixes.insert ns pre }

/-- Registers a value for a value. -/
def addValue (w : Writer) (ns pre : Value) : Except Error Writer :=
  match ns, pre with
  | .text ns, .text pre => w.addPrefix ns pre
  | _, .text "xml" => .error .reservedPrefix
  | ns, pre => .ok { w with oddities := w.oddities ++ [(ns, pre)] }

/-- A writer with what a setting describes registered. -/
def ofValue (defaultNamespace : Option String) : Value → Except Error Writer
  | .map entries => entries.foldlM (fun w e ↦ w.addValue e.1 e.2) (new defaultNamespace)
  | v => if v.isTruthy then .error (.fault .missingPart) else .ok (new defaultNamespace)

/-- A writer with the given prefixes registered. -/
def withPrefixes (defaultNamespace : Option String) (prefixes : List (String × String)) :
    Except Error Writer :=
  prefixes.foldlM (fun w e ↦ w.addPrefix e.1 e.2) (new defaultNamespace)

end Writer

/-- The prefixes in scope, and those of them that the current start tag declares. -/
structure Naming where
  scope : PrefixTable
  declared : List (String × String)

/-- Adds a declaration to the current start tag. -/
def Naming.declare (st : Naming) (ns pre : String) : Naming :=
  ⟨st.scope.insert ns pre, st.declared ++ [(ns, pre)]⟩

/-- A step of writing, which may be refused and may use up numbers for prefixes in any case. -/
abbrev Numbering := ExceptT Error (StateM Nat)

/-- Passes on a result. -/
def Numbering.ofExcept {α : Type} (x : Except Fault α) : Numbering α :=
  match x with
  | .ok a => return a
  | .error f => throw (.fault f)

/-- The next free number, counted as used. -/
def takeNumber (used : List String) : Numbering Nat := do
  let n := firstFree used used.length (← get)
  set (n + 1)
  return n

/-- What a value that is registered for a namespace is written as. -/
def writtenPrefix (v : Value) : Except Fault String :=
  if v.isTruthy then .error .wrongKind else .ok ""

/-- The text of an element as it is written. -/
def writtenText : Value → Except Fault String
  | .text s => .ok s
  | .bytes (_ :: _) => .error .wrongKind
  | v => if v.isTruthy then .error .missingPart else .ok ""

namespace Writer

/-- What no new prefix may be, if that can be told. -/
def usedPrefixes (w : Writer) (st : Naming) : Except Fault (List String) :=
  if w.oddities.all fun e ↦ e.2.isHashable then
    .ok (w.prefixes.values ++ st.scope.values ++ w.oddities.filterMap fun e ↦ e.2.text?)
  else .error .wrongKind

/-- The prefix of a namespace, with the declarations that it takes. -/
def prefixOf (w : Writer) (isElement : Bool) (st : Naming) (ns : String) :
    Numbering (String × Naming) :=
  match st.scope.get? ns with
  | some pre => return (pre, st)
  | none =>
    if ns = xmlNamespace then return ("xml", st)
    else if isElement ∧ w.defaultNamespace = some ns then return ("", st.declare ns "")
    else
      match w.prefixes.get? ns, w.oddities.lookup (.text ns) with
      | some pre, _ => return (pre, st.declare ns pre)
      | none, some v => do
        let pre ← Numbering.ofExcept (writtenPrefix v)
        return (pre, st.declare ns pre)
      | none, none => do
        let used ← Numbering.ofExcept (w.usedPrefixes st)
        let pre := numberedPrefix (← takeNumber used)
        return (pre, st.declare ns pre)

/-- The name that is written for a tag or the name of an attribute. -/
def writtenName (w : Writer) (isElement : Bool) (st : Naming) (name : String) :
    Numbering (String × Naming) :=
  match splitName name isElement with
  | .error e => throw e
  | .ok (none, plain) => return (plain, st)
  | .ok (some ns, plain) => do
    let (pre, st) ← w.prefixOf isElement st ns
    return (joinName pre plain, st)

/-- The attributes with the names that are written for them. -/
def writtenAttributes (w : Writer) (st : Naming) :
    List (String × String) → Numbering (List (String × String) × Naming)
  | [] => return ([], st)
  | (name, value) :: rest => do
    let (name, st) ← w.writtenName false st name
    let (rest, st) ← w.writtenAttributes st rest
    return ((name, value) :: rest, st)

mutual

/-- The markup of an element inside a scope. -/
def markup (w : Writer) (scope : PrefixTable) : Element → Numbering Markup
  | ⟨tag, attributes, text, _, children⟩ => do
    let (name, st) ← w.writtenName true ⟨scope, []⟩ tag
    let (attributes, st) ← w.writtenAttributes st attributes
    let children ← markupAll w st.scope children
    return ⟨name, attributes, st.declared, ← Numbering.ofExcept (writtenText text), children⟩

/-- The markup of elements inside a scope. -/
def markupAll (w : Writer) (scope : PrefixTable) : List Element → Numbering (List Markup)
  | [] => return []
  | e :: rest => do
    let m ← markup w scope e
    let rest ← markupAll w scope rest
    return m :: rest

end

/-- The markup of a whole tree, and the writer afterwards. -/
def markupOf (w : Writer) (e : Element) : Except Error Markup × Writer :=
  let (m, n) := (w.markup ∅ e).run.run w.nextNumber
  (m, { w with nextNumber := n })

/-- The indentation that a width asks for: none if it is negative. -/
def indentation (indent : Int) : Option Nat := if indent < 0 then none else some indent.toNat

/-- Writes an element. -/
def writeElement (w : Writer) (e : Element) (indent : Int) : Except Error String × Writer :=
  let (m, w) := w.markupOf e
  (m.map fun m ↦ Markup.clean (String.ofList (m.render (indentation indent) 0)), w)

/-- Writes a document: a declaration that names the character encoding, and the element. With an
indentation, each ends its line. -/
def writeDocument (w : Writer) (e : Element) (indent : Int) (encoding : String) :
    Except Error String × Writer :=
  let separator := if indent < 0 then "" else "\n"
  let (s, w) := w.writeElement e indent
  (s.map fun s ↦
    "<?xml version='1.0' encoding='" ++ encoding ++ "'?>" ++ separator ++ s ++ separator, w)

/-- Writes one element with a new writer, whose default namespace is that of the element unless
another one is given. -/
def writeAlone (e : Element) (namespace? : Option String) (indent : Int) : Except Error String := do
  let ns ← match namespace? with
    | some ns => pure (some ns)
    | none => (splitName e.tag true).map Prod.fst
  ((new ns).writeElement e indent).1

end Writer

end ContactCard.Xml
