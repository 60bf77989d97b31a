import TokenScan.Decimal.Text
import TokenScan.Position

/-!
# Faults in JSON text

Why a text is no JSON value, and where. While reading, a fault is kept with the text that was still
unread at the place to blame; once the whole text is known, that becomes a position in it.
-/

namespace TokenScan.Json

/-- Why reading stopped. -/
inductive Cause where
  /-- The text opens with a byte order mark. -/
  | byteOrderMark
  /-- No value starts here. -/
  | noValue
  /-- The value has ended and text follows. -/
  | extraData
  /-- Neither a comma nor the closing bracket follows an item. -/
  | noComma
  /-- No colon follows the name of a field. -/
  | noColon
  /-- No name of a field starts here. -/
  | noName
  /-- A string is not closed. -/
  | openString
  /-- A control character stands in a string. -/
  | controlCharacter
  /-- A backslash opens no known escape. -/
  | unknownEscape
  /-- An escape by code has too few or wrong digits. -/
  | badCode
  /-- A whole number has more digits than allowed. -/
  | tooManyDigits (limit count : Nat)
  deriving DecidableEq, Repr

/-- A fault found while reading: its cause and the text from the place to blame on. -/
structure Fault where
  /-- Why reading stopped. -/
  cause : Cause
  /-- The text from the place to blame on. -/
  rest : List Char
  deriving DecidableEq, Repr

/-- A fault at its position in the whole text. -/
structure ReadError where
  /-- Why reading stopped. -/
  cause : Cause
  /-- The place to blame. -/
  position : Position
  deriving DecidableEq, Repr

/-- The words for a cause. -/
def Cause.words : Cause → String
  | .byteOrderMark => "Unexpected UTF-8 BOM (decode using utf-8-sig)"
  | .noValue => "Expecting value"
  | .extraData => "Extra data"
  | .noComma => "Expecting ',' delimiter"
  | .noColon => "Expecting ':' delimiter"
  | .noName => "Expecting property name enclosed in double quotes"
  | .openString => "Unterminated string starting at"
  | .controlCharacter => "Invalid control character at"
  | .unknownEscape => "Invalid \\escape"
  | .badCode => "Invalid \\uXXXX escape"
  | .tooManyDigits limit count =>
    s!"Exceeds the limit ({limit} digits) for integer string conversion: value has {count} digits; "
      ++ "use sys.set_int_max_str_digits() to increase the limit"

/-- The message for an error. One about the size of a number does not name its place. -/
def ReadError.message (e : ReadError) : String :=
  match e.cause with
  | .tooManyDigits .. => e.cause.words
  | _ =>
    let p := e.position
    s!"{e.cause.words}: line {p.line} column {p.column} (char {p.offset})"

/-- Locates a fault in the text whose end it was found in. -/
def Fault.locate (whole : List Char) (f : Fault) : ReadError :=
  ⟨f.cause, .after (whole.take (whole.length - f.rest.length))⟩

end TokenScan.Json
