import ContactCard.Text.Printable

/-!
# Quoted text

How a text or a sequence of bytes is shown inside a message. Single quotes stand around it, or
double quotes where it holds a single quote and no double one; a backslash goes before a backslash
and before the quote in use; line feed, carriage return and tab have letters of their own; any other
character that cannot be printed is shown by its number.
-/

namespace ContactCard.Text

/-- The quote that surrounds a text with these characters. -/
def quoteMark (cs : List Char) : Char :=
  if cs.contains '\'' && !cs.contains '"' then '"' else '\''

/-- The lower-case hexadecimal digits of `n`, at least `width` of them. -/
def hexDigits (width n : Nat) : List Char :=
  let digits := Nat.toDigits 16 n
  List.replicate (width - digits.length) '0' ++ digits

/-- A character by its number, in the shortest form that holds it. -/
def numericEscape (n : Nat) : List Char :=
  if n < 0x100 then '\\' :: 'x' :: hexDigits 2 n
  else if n < 0x10000 then '\\' :: 'u' :: hexDigits 4 n
  else '\\' :: 'U' :: hexDigits 8 n

/-- One character of a quoted text. -/
def quoteChar (mark : Char) (printable : Char → Bool) (c : Char) : List Char :=
  if c = '\\' || c = mark then ['\\', c]
  else if c = '\n' then ['\\', 'n']
  else if c = '\r' then ['\\', 'r']
  else if c = '\t' then ['\\', 't']
  else if printable c then [c]
  else numericEscape c.toNat

/-- Characters between quotes. -/
def quoteChars (printable : Char → Bool) (cs : List Char) : List Char :=
  let mark := quoteMark cs
  mark :: cs.flatMap (quoteChar mark printable) ++ [mark]

/-- The text between quotes. -/
def quoted (s : String) : String := String.ofList (quoteChars isPrintable s.toList)

/-- Bytes between quotes, marked as bytes. Only the printable characters of ASCII are shown as they
are. -/
def quotedBytes (bytes : List UInt8) : String :=
  let cs := bytes.map fun b ↦ Char.ofNat b.toNat
  String.ofList ('b' :: quoteChars (fun c ↦ 0x20 ≤ c.toNat && c.toNat ≤ 0x7E) cs)

/-- The quoted text, or `None` where there is none. -/
def quotedOption : Option String → String
  | some s => quoted s
  | none => "None"

end ContactCard.Text
