/-!
# Escaped text values

In the plain-text syntax a backslash, a comma and a semicolon inside a value are written with a
backslash before them. Reading is more lenient than writing: a backslash before `n` or `N` stands
for a line feed, before any other character for that character, and at the very end for itself.
-/

namespace ContactCard.Text

/-- A character that a value writes with a backslash before it. -/
def isSpecial (c : Char) : Bool := c = '\\' || c = ',' || c = ';'

/-- The characters with their special ones escaped. -/
def escapeChars (cs : List Char) : List Char :=
  cs.flatMap fun c ↦ if isSpecial c then ['\\', c] else [c]

/-- The character that a backslash before `c` stands for. -/
def escapedChar (c : Char) : Char := if c = 'n' || c = 'N' then '\n' else c

/-- The characters with their escapes resolved. -/
def unescapeChars : List Char → List Char
  | [] => []
  | [c] => [c]
  | c :: d :: rest =>
    if c = '\\' then escapedChar d :: unescapeChars rest else c :: unescapeChars (d :: rest)

/-- The text as the plain-text syntax writes it. -/
def escape (s : String) : String := String.ofList (escapeChars s.toList)

/-- The text that an escaped value stands for. -/
def unescape (s : String) : String := String.ofList (unescapeChars s.toList)

end ContactCard.Text
