/-!
# Base64

Bytes as text over sixty-four characters, three bytes to four characters, the last group filled up
with `=`. Writing uses the standard alphabet. Reading is lenient: the text is first brought into the
strict form, which drops everything from the first `=` on, takes the characters of the URL-safe
alphabet for the standard ones, drops all others and a single character left over in the last group,
and fills the group up. The strict form can always be decoded.
-/

namespace ContactCard.Base64

/-- The characters for 0 to 63. -/
def alphabet : List Char :=
  "ABCDEFGHIJKLMNOPQRSTUVWXYZabcdefghijklmnopqrstuvwxyz0123456789+/".toList

/-- The character for a number below 64. -/
def digit (n : Nat) : Char := alphabet.getD n 'A'

/-- The number that a character stands for. -/
def digitValue? (c : Char) : Option Nat :=
  let n := c.toNat
  if 65 ≤ n ∧ n ≤ 90 then some (n - 65)
  else if 97 ≤ n ∧ n ≤ 122 then some (n - 71)
  else if 48 ≤ n ∧ n ≤ 57 then some (n + 4)
  else if c = '+' then some 62
  else if c = '/' then some 63
  else none

/-- The characters of three bytes, and of what is left over at the end. -/
def encodeBytes : List UInt8 → List Char
  | [] => []
  | [a] => [digit (a.toNat / 4), digit (a.toNat % 4 * 16), '=', '=']
  | [a, b] =>
    [digit (a.toNat / 4), digit (a.toNat % 4 * 16 + b.toNat / 16), digit (b.toNat % 16 * 4), '=']
  | a :: b :: c :: rest =>
    digit (a.toNat / 4) :: digit (a.toNat % 4 * 16 + b.toNat / 16) ::
      digit (b.toNat % 16 * 4 + c.toNat / 64) :: digit (c.toNat % 64) :: encodeBytes rest

/-- The text of the bytes. -/
def encode (bytes : List UInt8) : String := String.ofList (encodeBytes bytes)

/-- The bytes of a text in groups of four characters, of which only the last may be filled up. -/
def decodeStrict? : List Char → Option (List UInt8)
  | [] => some []
  | a :: b :: c :: d :: rest => do
    let x ← digitValue? a
    let y ← digitValue? b
    let first := UInt8.ofNat (x * 4 + y / 16)
    if c = '=' ∧ d = '=' ∧ rest = [] then return [first]
    let z ← digitValue? c
    let second := UInt8.ofNat (y % 16 * 16 + z / 4)
    if d = '=' ∧ rest = [] then return [first, second]
    let w ← digitValue? d
    let third := UInt8.ofNat (z % 4 * 64 + w)
    let more ← decodeStrict? rest
    return first :: second :: third :: more
  | _ => none

/-- The character of the standard alphabet for one of the URL-safe alphabet. -/
def standardChar (c : Char) : Char := if c = '-' then '+' else if c = '_' then '/' else c

/-- The characters that count: those before the first `=` that belong to either alphabet. -/
def significant (cs : List Char) : List Char :=
  ((cs.takeWhile (· != '=')).map standardChar).filter fun c ↦ (digitValue? c).isSome

/-- The strict form of a text. -/
def normalize (cs : List Char) : List Char :=
  let kept := significant cs
  let whole := if kept.length % 4 = 1 then kept.dropLast else kept
  whole ++ List.replicate ((4 - whole.length % 4) % 4) '='

/-- The bytes of a text, whatever it holds. -/
def decode (s : String) : List UInt8 := (decodeStrict? (normalize s.toList)).getD []

end ContactCard.Base64
