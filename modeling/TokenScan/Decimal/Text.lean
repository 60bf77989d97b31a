import TokenScan.Decimal.Shortest

/-!
# Decimal text

Numbers as text and back. Whole numbers are written in plain decimal. Floats are written with the
digits of their shortest decimal, laid out by a `DecimalFormat`: positionally with at least one
digit after the point while the exponent of the leading digit is in the format's range, and in
scientific notation outside it.

Reading a float takes the digits before and after the point and the exponent as three pieces and
rounds once, to the nearest float; a number too large for any float becomes an infinity.
-/

namespace TokenScan

/-! ### Whole numbers -/

/-- A natural number in decimal. -/
def natText (n : Nat) : List Char := Nat.toDigits 10 n

/-- An integer in decimal, with a minus sign if it is negative. -/
def intText : Int → List Char
  | .ofNat n => natText n
  | .negSucc n => '-' :: natText (n + 1)

/-- The value of a run of decimal digits. -/
def digitsValue (ds : List Char) : Nat := Nat.ofDigitChars 10 ds 0

/-! ### Floats -/

/-- The conventions of a decimal format for floats. -/
structure DecimalFormat where
  /-- The least exponent of the leading digit that is still written positionally. -/
  positionalFrom : Int
  /-- The first exponent of the leading digit that is no longer written positionally. -/
  positionalBelow : Int
  /-- The least number of digits of a written exponent. -/
  exponentWidth : Nat
  /-- The name of a value that is not a number. -/
  nan : String
  /-- The name of the positive infinity. -/
  infinity : String

/-- The format of messages: positional from `0.0001` up to sixteen digits before the point. -/
def DecimalFormat.message : DecimalFormat := ⟨-4, 16, 2, "nan", "inf"⟩

/-- The format of serialized text: that of messages, with other names for the special values. -/
def DecimalFormat.serialized : DecimalFormat :=
  { DecimalFormat.message with nan := "NaN", infinity := "Infinity" }

/-- Digits with the point after the leading digit's place `e`; missing places are filled with
zeros, and at least one digit follows the point. -/
def positionalText (ds : List Char) (e : Int) : List Char :=
  if e < 0 then '0' :: '.' :: (List.replicate (-e - 1).toNat '0' ++ ds)
  else
    let places := e.toNat + 1
    let whole := ds.take places ++ List.replicate (places - ds.length) '0'
    let fraction := ds.drop places
    whole ++ '.' :: (if fraction.isEmpty then ['0'] else fraction)

/-- Digits in scientific notation: a point only if more than one digit stands before the mark, and
an exponent with a sign and at least `width` digits. -/
def scientificText (width : Nat) (ds : List Char) (e : Int) : List Char :=
  let fraction := ds.drop 1
  let exponent := natText e.natAbs
  ds.take 1 ++ (if fraction.isEmpty then [] else '.' :: fraction) ++
    'e' :: (if e < 0 then '-' else '+') ::
      (List.replicate (width - exponent.length) '0' ++ exponent)

/-- A decimal laid out by a format. Zeros at the end of the digits are not significant. -/
def DecimalFormat.layOut (format : DecimalFormat) (d : Decimal) : List Char :=
  let all := natText d.significand
  let ds := (all.reverse.dropWhile (· == '0')).reverse
  let e := d.exponent + (all.length - 1 : Nat)
  if format.positionalFrom ≤ e ∧ e < format.positionalBelow then positionalText ds e
  else scientificText format.exponentWidth ds e

/-- The text of an exact float value. -/
def FloatValue.text (format : DecimalFormat) : FloatValue → List Char
  | .nan => format.nan.toList
  | .infinite negative => (if negative then ['-'] else []) ++ format.infinity.toList
  | .finite negative m q =>
    (if negative then ['-'] else []) ++
      (if m = 0 then positionalText [] 0 else format.layOut (shortest m q))

/-- The text of a float. -/
def floatText (format : DecimalFormat) (x : Float) : List Char :=
  (FloatValue.ofFloat x).text format

/-- The float nearest to a decimal given by the digits before its point, those after it and its
exponent. -/
def readFloat (negative : Bool) (whole fraction : List Char) (exponent : Int) : Float :=
  let e := exponent - fraction.length
  let x := Float.ofScientific (digitsValue (whole ++ fraction)) (e < 0) e.natAbs
  if negative then -x else x

end TokenScan
