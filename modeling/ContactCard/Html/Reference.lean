import ContactCard.Text.Split

/-!
# Character references

An ampersand may begin a reference to a character: by name, or by number in decimal or hexadecimal
form, with a semicolon at its end. In text, numbers below 256 mean the characters of the Windows
code page for western Europe. In attribute values only the numbers of control characters do, the
numbers of characters that no document may hold mean nothing, and a reference by name may run into
the text after it. Zero always means the replacement character.

Where the document ends there is no telling whether a reference has ended. A number is not read
there, and a name only as far as it is known to have ended.

In text, a number has ended only before a character that is no digit, not even a hexadecimal one.
-/

namespace ContactCard.Html

open Text

/-- The names of characters. -/
def namedCharacters : List (List Char × Char) :=
  [("amp".toList, '&'), ("lt".toList, '<'), ("gt".toList, '>'), ("quot".toList, '"'),
   ("nbsp".toList, '\u00a0'), ("eacute".toList, 'é'), ("copy".toList, '©')]

/-- The characters that the Windows code page has in place of the control characters from 128 to
159; zero marks a place without one. -/
def windowsCharacters : List Nat :=
  [0x20AC, 0, 0x201A, 0x0192, 0x201E, 0x2026, 0x2020, 0x2021, 0x02C6, 0x2030, 0x0160, 0x2039,
   0x0152, 0, 0x017D, 0, 0, 0x2018, 0x2019, 0x201C, 0x201D, 0x2022, 0x2013, 0x2014, 0x02DC, 0x2122,
   0x0161, 0x203A, 0x0153, 0, 0x017E, 0x0178]

/-- The number of the character that the Windows code page has for a number. -/
def windowsNumber (n : Nat) : Nat :=
  if 128 ≤ n ∧ n < 160 then
    let m := windowsCharacters.getD (n - 128) 0
    if m = 0 then n else m
  else n

/-- Whether a number is that of a character. -/
def isCharacterNumber (n : Nat) : Bool := n < 0xD800 || (0xDFFF < n && n < 0x110000)

/-- The character that a number means in text. -/
def textCharacter (n : Nat) : List Char :=
  [if n ≠ 0 ∧ isCharacterNumber n then Char.ofNat (windowsNumber n) else '\ufffd']

/-- Whether a number is that of a character that no document may hold. -/
def isExcludedNumber (n : Nat) : Bool :=
  (1 ≤ n && n ≤ 8) || n == 11 || (14 ≤ n && n ≤ 31) || (127 ≤ n && n ≤ 159) ||
    (0xFDD0 ≤ n && n ≤ 0xFDEF) || n % 0x10000 == 0xFFFE || n % 0x10000 == 0xFFFF

/-- The character that a number means in an attribute value, if it means one. -/
def attributeCharacter (n : Nat) : List Char :=
  if n = 0 ∨ !isCharacterNumber n then ['\ufffd']
  else if 128 ≤ n ∧ n < 160 then [Char.ofNat (windowsNumber n)]
  else if isExcludedNumber n then []
  else [Char.ofNat n]

/-- The value of a digit. -/
def digitNumber (c : Char) : Nat :=
  if c.isDigit then c.toNat - '0'.toNat
  else if 'a' ≤ c ∧ c ≤ 'f' then c.toNat - 'a'.toNat + 10
  else c.toNat - 'A'.toNat + 10

/-- The value of digits. -/
def digitsNumber (base : Nat) (digits : List Char) : Nat :=
  digits.foldl (fun n c ↦ n * base + digitNumber c) 0

def isHexDigit (c : Char) : Bool :=
  c.isDigit || ('a' ≤ c && c ≤ 'f') || ('A' ≤ c && c ≤ 'F')

/-- The number at the beginning of what follows an ampersand, and the rest. -/
def number? : List Char → Option (Nat × List Char)
  | '#' :: x :: rest =>
    let hex := x = 'x' ∨ x = 'X'
    let cs := if hex then rest else x :: rest
    let isNumeral := if hex then isHexDigit else Char.isDigit
    let digits := cs.takeWhile isNumeral
    if digits.isEmpty then none
    else some (digitsNumber (if hex then 16 else 10) digits, cs.dropWhile isNumeral)
  | _ => none

/-- What stands after the semicolon, if one ends a reference here. -/
def afterSemicolon : List Char → List Char
  | ';' :: rest => rest
  | cs => cs

/-- A character in the name of a reference after the first. -/
def isNameChar (c : Char) : Bool := c.isAlphanum || c == '-' || c == '.'

/-- What a reference by name stands for in text: itself, without its semicolon, if the name is not
known. -/
def namedText (name : List Char) : List Char :=
  match namedCharacters.lookup name with
  | some c => [c]
  | none => '&' :: name

/-- A name at the end of the document up to its last hyphen or point, and the rest of it. -/
def splitUnfinished (cs : List Char) : List Char × List Char :=
  let name := ((cs.reverse.dropWhile Char.isAlphanum).drop 1).reverse
  (name, cs.drop name.length)

/-- What an ampersand before these characters, which are a name at the end of the document, begins.
One that a single letter follows is lost. -/
def lastReference (cs : List Char) : List Char × List Char :=
  let (name, rest) := splitUnfinished cs
  if !name.isEmpty then (namedText name, rest)
  else if cs.length = 1 then ([], cs)
  else (['&'], cs)

/-- What an ampersand before these characters begins in text: what it and the characters that belong
to it stand for, and the characters after those. There is no answer where a number should stand and
none can be read. -/
def textReference? : List Char → Option (List Char × List Char)
  | '#' :: cs =>
    match number? ('#' :: cs) with
    | some (n, c :: rest) =>
      if isHexDigit c then none else some (textCharacter n, afterSemicolon (c :: rest))
    | _ => none
  | cs =>
    if cs.head?.elim false Char.isAlpha then
      match cs.dropWhile isNameChar with
      | [] => some (lastReference cs)
      | rest => some (namedText (cs.takeWhile isNameChar), afterSemicolon rest)
    else some (['&'], cs)

/-- What an ampersand in an attribute value and the characters up to the next one stand for. -/
def resolveInAttribute (cs : List Char) : List Char :=
  match number? cs with
  | some (n, rest) => attributeCharacter n ++ afterSemicolon rest
  | none =>
    match namedCharacters.find? fun e ↦ e.1.isPrefixOf cs with
    | some (name, c) => c :: afterSemicolon (cs.drop name.length)
    | none => '&' :: cs

/-- The characters of an attribute value with their references resolved. -/
def attributeCharacters (cs : List Char) : List Char :=
  match split '&' cs with
  | [] => []
  | first :: rest => first ++ rest.flatMap resolveInAttribute

end ContactCard.Html
