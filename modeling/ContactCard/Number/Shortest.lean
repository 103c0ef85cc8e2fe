import ContactCard.Number.Double

/-!
# The shortest decimal of a double

A double is shown with the fewest significant digits that still single it out. The reals that round
to the double `m * 2 ^ q` make up an interval around it, whose ends belong to it just if `m` is even.
For one digit, two digits and so on the two decimals of that many digits on either side of the
double are tried, and the first number of digits for which one lies in the interval is taken; of two
that do, the nearer one, and the one with the even last digit if they are equally near.

The interval is measured in quarters of the last binary place, so its ends and the double itself are
natural numbers: `4 * m`, `4 * m + 2`, and `4 * m - 2` or, at a power of two, `4 * m - 1`.
-/

namespace ContactCard.Double

/-- The number of decimal digits of `n`. -/
def digitCount (n : Nat) : Nat := (Nat.toDigits 10 n).length

/-- The decimal exponent of the leading digit of `num / den`. -/
def leadingExponent (num den : Nat) : Int :=
  if den ≤ num then digitCount (num / den) - 1 else -digitCount ((den - 1) / num)

/-- The lower end of the interval of `m * 2 ^ q`, in quarters of the last place. -/
def lowerEnd (m : Nat) (q : Int) : Nat :=
  if m = Nat.pow 2 52 ∧ -1074 < q then 4 * m - 1 else 4 * m - 2

/-- The decimal on the grid of multiples of `10 ^ k` that stands for `m * 2 ^ q`, if the interval
of the double holds one. With `p = q - 2`, `c * 10 ^ k` is compared with `x * 2 ^ p` by comparing
`c * tens` with `x * twos`. -/
def onGrid? (m : Nat) (q k : Int) : Option Nat :=
  let p := q - 2
  let tens := Nat.pow 10 k.toNat * Nat.pow 2 (-p).toNat
  let twos := Nat.pow 2 p.toNat * Nat.pow 10 (-k).toNat
  let middle := 4 * m * twos
  let low := lowerEnd m q * twos
  let high := (4 * m + 2) * twos
  let inside (x : Nat) : Bool :=
    if m % 2 = 0 then low ≤ x && x ≤ high else low < x && x < high
  let below := middle / tens
  let above := below + 1
  if inside (below * tens) then
    if inside (above * tens) then
      let down := middle - below * tens
      let up := above * tens - middle
      if down < up || (down = up && below % 2 = 0) then some below else some above
    else some below
  else if inside (above * tens) then some above
  else none

/-- The digits and the power of ten of the shortest decimal of `m * 2 ^ q`. -/
def shortest (m : Nat) (q : Int) : Nat × Int :=
  let lead := leadingExponent (m * Nat.pow 2 q.toNat) (Nat.pow 2 (-q).toNat)
  match (List.range 17).findSome? fun (n : Nat) ↦
      let k := lead - (n : Nat)
      (onGrid? m q k).map fun c ↦ (c, k) with
  | some r => r
  | none => (m, 0)

/-- The digits of `n` without zeros at the end. -/
def significantDigits (n : Nat) : List Char :=
  ((Nat.toDigits 10 n).reverse.dropWhile (· == '0')).reverse

/-- A decimal with the given digits, the first of which stands for a multiple of `10 ^ lead`: with a
point from `10 ^ (-4)` up to below `10 ^ 16`, with an exponent outside. -/
def layout (digits : List Char) (lead : Int) : List Char :=
  if -4 ≤ lead ∧ lead < 16 then
    if lead < 0 then '0' :: '.' :: List.replicate (-lead - 1).toNat '0' ++ digits
    else
      let whole := lead.toNat + 1
      let fraction := digits.drop whole
      digits.take whole ++ List.replicate (whole - digits.length) '0' ++
        '.' :: (if fraction.isEmpty then ['0'] else fraction)
  else
    let sign := if lead < 0 then '-' else '+'
    let power := Nat.toDigits 10 lead.natAbs
    let mantissa :=
      match digits with
      | [] => []
      | [d] => [d]
      | d :: rest => d :: '.' :: rest
    mantissa ++ 'e' :: sign :: List.replicate (2 - power.length) '0' ++ power

/-- The text of a double. -/
def toText : Double → String
  | .nan _ => "nan"
  | .infinite s => if s then "-inf" else "inf"
  | .finite s m q =>
    let body :=
      if m = 0 then ['0', '.', '0']
      else
        let (c, k) := shortest m q
        layout (significantDigits c) (k + digitCount c - 1)
    String.ofList (if s then '-' :: body else body)

end ContactCard.Double
