/-!
# Double-precision numbers

A double is a sign, a mantissa and a power of two, or an infinity, or not a number. Everything the
library does with doubles is exact arithmetic on those parts.

What is not a number equals no other double, but whatever holds it finds it again. So each occurrence
of it has a number of its own and equals itself only, which makes equality reflexive.
-/

namespace ContactCard

/-- A number of the binary64 format. A finite one is `± mantissa * 2 ^ exponent`. -/
inductive Double where
  | nan (occurrence : Nat)
  | infinite (negative : Bool)
  | finite (negative : Bool) (mantissa : Nat) (exponent : Int)
  deriving DecidableEq

namespace Double

/-- The double with the given sixty-four bits: a sign bit, eleven bits of exponent, fifty-two of
fraction. -/
def ofBits (bits : UInt64) : Double :=
  let n := bits.toNat
  let negative := n / Nat.pow 2 63 == 1
  let exponent : Nat := n / Nat.pow 2 52 % Nat.pow 2 11
  let fraction : Nat := n % Nat.pow 2 52
  if exponent = 2047 then
    if fraction = 0 then .infinite negative else .nan 0
  else if exponent = 0 then .finite negative fraction (-1074)
  else .finite negative (Nat.pow 2 52 + fraction) ((exponent : Int) - 1075)

/-- `n * 2 ^ e` with the fraction cut off. -/
def scaleDown (n : Nat) (e : Int) : Nat := n * Nat.pow 2 e.toNat / Nat.pow 2 (-e).toNat

/-- Whether `a * 2 ^ d = b * 2 ^ e`. -/
def sameMagnitude (a : Nat) (d : Int) (b : Nat) (e : Int) : Bool :=
  a * Nat.pow 2 (d - e).toNat == b * Nat.pow 2 (e - d).toNat

/-- Numerical equality: a zero equals the zero of the other sign, and what is not a number equals
itself only. -/
def same : Double → Double → Bool
  | .finite s a d, .finite t b e =>
    if a = 0 then b == 0 else s == t && sameMagnitude a d b e
  | .infinite s, .infinite t => s == t
  | .nan i, .nan j => i == j
  | _, _ => false

@[simp] theorem same_self (x : Double) : x.same x = true := by
  cases x with
  | nan i => exact beq_self_eq_true i
  | infinite s => exact beq_self_eq_true s
  | finite s a e => by_cases h : a = 0 <;> simp [same, sameMagnitude, h]

/-- Whether the double is the integer `i`. -/
def sameInt (x : Double) (i : Int) : Bool := x.same (.finite (i < 0) i.natAbs 0)

/-- Whether the double is a zero. -/
def isZero : Double → Bool
  | .finite _ a _ => a == 0
  | _ => false

/-- The integer part of a finite double. -/
def truncate? : Double → Option Int
  | .finite s a e => some (if s then -(scaleDown a e : Int) else scaleDown a e)
  | _ => none

end Double

end ContactCard
