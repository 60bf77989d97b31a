/-!
# The exact value of a binary floating-point number

A 64-bit float is a sign, an eleven-bit exponent field and a 52-bit fraction. `FloatValue` is what
those bits *mean*: not a number, an infinity, or `± mantissa · 2 ^ exponent` with natural mantissa
and integer exponent, exactly. Everything that has to be exact about floats (their shortest decimal
text, their comparison with integers) is computed from this value in natural-number arithmetic, and
never by floating-point operations.
-/

namespace TokenScan

/-- The exact meaning of a 64-bit binary float. -/
inductive FloatValue where
  /-- Not a number. -/
  | nan
  /-- An infinity. -/
  | infinite (negative : Bool)
  /-- The number `± mantissa · 2 ^ exponent`. The sign is kept for a zero, too. -/
  | finite (negative : Bool) (mantissa : Nat) (exponent : Int)
  deriving DecidableEq, Repr

namespace FloatValue

/-- The width of the fraction field. -/
def fractionBits : Nat := 52

/-- The exponent of the last place of the numbers nearest to zero. -/
def leastExponent : Int := -1074

/-- Reads the three fields of a float. A zero exponent field marks the numbers nearest to zero,
which have no implicit leading bit; a full one marks the infinities and the non-numbers. -/
def ofBits (bits : UInt64) : FloatValue :=
  let n := bits.toNat
  let negative := Nat.pow 2 63 ≤ n
  let field := n / Nat.pow 2 fractionBits % Nat.pow 2 11
  let fraction := n % Nat.pow 2 fractionBits
  if field = Nat.pow 2 11 - 1 then
    if fraction = 0 then .infinite negative else .nan
  else if field = 0 then .finite negative fraction leastExponent
  else .finite negative (Nat.pow 2 fractionBits + fraction) (leastExponent + (field - 1 : Nat))

/-- The exact value of a float. -/
def ofFloat (x : Float) : FloatValue := ofBits x.toBits

/-- The value of an integer. -/
def ofInt (n : Int) : FloatValue := .finite (n < 0) n.natAbs 0

/-- Whether the value is a zero of either sign. -/
def isZero : FloatValue → Bool
  | .finite _ m _ => m == 0
  | _ => false

/-- The power `b ^ e` as a fraction of two natural numbers, one of which is `1`. -/
def powerRatio (b : Nat) (e : Int) : Nat × Nat :=
  if 0 ≤ e then (b.pow e.toNat, 1) else (1, b.pow (-e).toNat)

/-- Exact numeric equality: zeros of both signs are equal, and so are two spellings of one number
with different mantissas. Two non-numbers count as equal, as they do inside a compared record. -/
def same : FloatValue → FloatValue → Bool
  | .nan, .nan => true
  | .infinite s, .infinite t => s == t
  | .finite s m e, .finite t n f =>
    if m = 0 ∨ n = 0 then m == n
    else
      let (up, down) := powerRatio 2 (e - f)
      s == t && m * up == n * down
  | _, _ => false

end FloatValue

end TokenScan
