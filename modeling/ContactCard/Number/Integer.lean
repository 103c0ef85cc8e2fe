import ContactCard.Text.Blank
import ContactCard.Text.Digit

/-!
# Integers as text

An integer is written as an optional sign and decimal digits, of any scripts, with at most one
underscore between two digits. Blanks around it are dropped; among the ASCII characters only the
space and the five controls from tab to carriage return count as blank here. What has too many digits
is neither read nor written.
-/

namespace ContactCard.Integer

open Text

/-- A blank that may stand around an integer. -/
def isPadding (c : Char) : Bool := isBlank c && !(28 ≤ c.toNat && c.toNat ≤ 31)

/-- The number whose leading digits make up `acc` and whose other digits follow. -/
def digitsFrom (acc : Nat) : List Char → Option Nat
  | [] => some acc
  | c :: rest =>
    match digitValue? c with
    | some d => digitsFrom (10 * acc + d) rest
    | none =>
      match c, rest with
      | '_', d :: rest' => (digitValue? d).bind fun v ↦ digitsFrom (10 * acc + v) rest'
      | _, _ => none

/-- The most digits that are read or written. -/
def maxDigits : Nat := 4300

/-- Whether the integer has few enough digits to be written; its sign does not count. -/
def isWritable (i : Int) : Bool := decide ((Nat.toDigits 10 i.natAbs).length ≤ maxDigits)

/-- A number without a sign. -/
def natural? : List Char → Option Nat
  | [] => none
  | c :: rest =>
    if ((c :: rest).filter (· != '_')).length ≤ maxDigits then
      (digitValue? c).bind fun d ↦ digitsFrom d rest
    else none

/-- A number after its padding was dropped. -/
def signed? : List Char → Option Int
  | '+' :: rest => (natural? rest).map Int.ofNat
  | '-' :: rest => (natural? rest).map fun n ↦ -(n : Int)
  | cs => (natural? cs).map Int.ofNat

/-- The integer that the characters spell. -/
def ofChars? (cs : List Char) : Option Int :=
  signed? ((cs.dropWhile isPadding).reverse.dropWhile isPadding).reverse

/-- The integer that a text spells. -/
def ofText? (s : String) : Option Int := ofChars? s.toList

/-- The integer that bytes spell, each one an ASCII character. -/
def ofBytes? (bytes : List UInt8) : Option Int :=
  if bytes.all (· < 128) then ofChars? (bytes.map fun b ↦ Char.ofNat b.toNat) else none

end ContactCard.Integer
