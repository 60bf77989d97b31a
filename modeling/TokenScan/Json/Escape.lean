import TokenScan.Text.CharClass
import TokenScan.Text.Hex

/-!
# Escapes in JSON strings

Serialized strings hold printable ASCII only. The quote, the backslash and five control characters
have short escapes; every other character outside `0x20`–`0x7E` is written by its 16-bit code units,
each as `\u` with four hexadecimal digits. A character beyond `0xFFFF` takes two code units, the
*surrogates*, which `joinSurrogates` puts together again (`joinSurrogates_surrogates`).
-/

namespace TokenScan.Json

/-- The character that a short escape stands for. -/
def shortEscape? : Char → Option Char
  | '"' => some '"'
  | '\\' => some '\\'
  | '/' => some '/'
  | 'b' => some '\x08'
  | 'f' => some '\x0c'
  | 'n' => some '\n'
  | 'r' => some '\r'
  | 't' => some '\t'
  | _ => none

/-- Whether a code unit is the first of a pair. -/
def isHighSurrogate (u : Nat) : Bool := 0xD800 ≤ u && u ≤ 0xDBFF

/-- Whether a code unit is the second of a pair. -/
def isLowSurrogate (u : Nat) : Bool := 0xDC00 ≤ u && u ≤ 0xDFFF

/-- The first of the two code units of a code point beyond `0xFFFF`. -/
def highSurrogate (n : Nat) : Nat := 0xD800 + (n - 0x10000) / 0x400

/-- The second of the two code units of a code point beyond `0xFFFF`. -/
def lowSurrogate (n : Nat) : Nat := 0xDC00 + (n - 0x10000) % 0x400

/-- The code point that two surrogates stand for together. -/
def joinSurrogates (high low : Nat) : Nat :=
  0x10000 + (high - 0xD800) * 0x400 + (low - 0xDC00)

/-- **Pairs read back**: a code point is recovered from its two surrogates. -/
theorem joinSurrogates_surrogates {n : Nat} (h : 0x10000 ≤ n) :
    joinSurrogates (highSurrogate n) (lowSurrogate n) = n := by
  unfold joinSurrogates highSurrogate lowSurrogate
  omega

/-- The escape of one 16-bit code unit. -/
def unitEscape (u : Nat) : List Char := '\\' :: 'u' :: hexDigits 4 u

/-- One character as it stands in a serialized string. -/
def escapeChar (c : Char) : List Char :=
  if c = '"' then ['\\', '"']
  else if c = '\\' then ['\\', '\\']
  else if c = '\n' then ['\\', 'n']
  else if c = '\r' then ['\\', 'r']
  else if c = '\t' then ['\\', 't']
  else if c = '\x0c' then ['\\', 'f']
  else if c = '\x08' then ['\\', 'b']
  else if isPrintable c then [c]
  else if c.toNat < 0x10000 then unitEscape c.toNat
  else unitEscape (highSurrogate c.toNat) ++ unitEscape (lowSurrogate c.toNat)

/-- A string as it is serialized, between its quotes. -/
def stringText (s : String) : List Char :=
  '"' :: s.toList.flatMap escapeChar ++ ['"']

end TokenScan.Json
