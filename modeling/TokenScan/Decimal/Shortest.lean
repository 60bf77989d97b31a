import TokenScan.Decimal.Binary

/-!
# Shortest decimals

The decimal with the fewest digits that reads back as a given binary number, and of those the
nearest one.

A number `m · 2 ^ q` is read back from every real in an interval around it that reaches half way to
each neighbour; the two ends belong to it exactly when `m` is even, since a tie is read towards the
even mantissa. `RoundingInterval` holds that interval, scaled by four so that all three of its
points are integers times one power of two.

For a digit count `n`, only the two `n`-digit decimals around the number can be the nearest ones;
`pick?` takes the nearer one that lies in the interval (an exact tie goes to the even digit), and
`shortest` takes the first `n` for which there is one. Seventeen digits always suffice for 64-bit
floats.
-/

namespace TokenScan

/-- A decimal number `significand · 10 ^ exponent`. -/
structure Decimal where
  /-- The digits, read as a whole number. -/
  significand : Nat
  /-- The power of ten of the last digit. -/
  exponent : Int
  deriving DecidableEq, Repr

/-- The reals that are read back as one binary number: from `low` to `high`, in units of
`2 ^ exponent`, around `centre`. -/
structure RoundingInterval where
  /-- The lower end. -/
  low : Nat
  /-- The number itself. -/
  centre : Nat
  /-- The upper end. -/
  high : Nat
  /-- The unit is two to this power. -/
  exponent : Int
  /-- Whether the ends belong to the interval. -/
  closed : Bool
  deriving DecidableEq, Repr

namespace RoundingInterval

/-- The interval of `m · 2 ^ q`. The neighbour below a power of two is only half as far away, unless
the number is among those with the least exponent. -/
def ofBinary (m : Nat) (q : Int) : RoundingInterval where
  low :=
    if m = Nat.pow 2 FloatValue.fractionBits ∧ q ≠ FloatValue.leastExponent then 4 * m - 1
    else 4 * m - 2
  centre := 4 * m
  high := 4 * m + 2
  exponent := q - 2
  closed := m % 2 == 0

/-- The interval measured in units of `10 ^ p`: its three points become numerators over the common
denominator that comes second. -/
def scaled (i : RoundingInterval) (p : Int) : RoundingInterval × Nat :=
  let (up, down) := FloatValue.powerRatio 2 i.exponent
  let (tenUp, tenDown) := FloatValue.powerRatio 10 p
  let k := up * tenDown
  ({ i with low := i.low * k, centre := i.centre * k, high := i.high * k }, down * tenUp)

/-- Whether the interval holds the point with the given numerator. -/
def contains (i : RoundingInterval) (x : Nat) : Bool :=
  if i.closed then i.low ≤ x && x ≤ i.high else i.low < x && x < i.high

/-- The exponent of the leading decimal digit of the number in the centre, which is positive. -/
def leadingExponent (i : RoundingInterval) : Int :=
  let (up, down) := FloatValue.powerRatio 2 i.exponent
  let num := i.centre * up
  let guess : Int := (Nat.toDigits 10 num).length - (Nat.toDigits 10 down).length
  let (tenUp, tenDown) := FloatValue.powerRatio 10 guess
  if down * tenUp ≤ num * tenDown then guess else guess - 1

/-- The nearest multiple of `10 ^ p` in the interval, among the two around its centre. -/
def pick? (i : RoundingInterval) (p : Int) : Option Decimal :=
  let (j, unit) := i.scaled p
  let below := j.centre / unit
  let rest := j.centre % unit
  let above := below + 1
  let nearer := if 2 * rest < unit ∨ (2 * rest = unit ∧ below % 2 = 0) then below else above
  let farther := if nearer = below then above else below
  if j.contains (nearer * unit) then some ⟨nearer, p⟩
  else if j.contains (farther * unit) then some ⟨farther, p⟩
  else none

end RoundingInterval

/-- The most digits a 64-bit float ever needs. -/
def mostDigits : Nat := 17

/-- The shortest decimal that reads back as `m · 2 ^ q`, for positive `m`. -/
def shortest (m : Nat) (q : Int) : Decimal :=
  let i := RoundingInterval.ofBinary m q
  let e := i.leadingExponent
  ((List.range mostDigits).findSome? fun (n : Nat) ↦ i.pick? (e - n)).getD ⟨0, 0⟩

end TokenScan
