import TokenScan.Json.Basic
import TokenScan.Json.Escape
import TokenScan.Json.Fault

/-!
# Reading JSON text

A reader takes the unread text and returns what it read with the text that is left, or the first
fault. Blanks are space, tab, line feed and carriage return. Besides the standard values it knows
the three names `NaN`, `Infinity` and `-Infinity`.

## Numbers end where they stop making sense

A number takes as much text as fits its grammar and leaves the rest: `01` is `0` followed by text
that belongs to nothing, and `1.` is `1`. A number with a fraction or an exponent is a float, any
other a whole number. A limit on the number of digits of a whole number is a parameter.

## Lone surrogates

A surrogate is half of a character, and a string holds whole characters only. So a text in which an
escape names a surrogate without its other half denotes no value here, and lies outside of what this
library describes. Reading such a text still ends: `unitChar` puts the replacement character in the
place of the half.

## Recursion

Strings and values recurse on an explicit bound, which is handed down. A string takes a character
for each step, `readValue` calls `readItems` only behind a bracket, and every further item is behind
a comma; so twice the length of the text is bound enough, and `readAll` supplies it.
-/

namespace TokenScan.Json

/-- What a reader returns: a result with the text left over, or a fault. -/
abbrev Read (α : Type) := Except Fault (α × List Char)

/-- Goes on with what a reader returned; a fault stays. -/
def Read.andThen {α β : Type} (r : Read α) (next : α → List Char → Read β) : Read β :=
  match r with
  | .ok (a, rest) => next a rest
  | .error fault => .error fault

@[simp] theorem Read.andThen_ok {α β : Type} (a : α) (rest : List Char)
    (next : α → List Char → Read β) : Read.andThen (.ok (a, rest)) next = next a rest := rfl

@[simp] theorem Read.andThen_error {α β : Type} (fault : Fault)
    (next : α → List Char → Read β) : Read.andThen (.error fault) next = .error fault := rfl

/-- A blank between the parts of JSON text. -/
def isSpace (c : Char) : Bool := c == ' ' || c == '\t' || c == '\n' || c == '\r'

/-- Drops the blanks at the front. -/
def skipSpaces (cs : List Char) : List Char := cs.dropWhile isSpace

/-! ### Strings -/

/-- The character for a lone code unit. Surrogates stand for no character of their own and become
the replacement character. -/
def unitChar (u : Nat) : Char :=
  if isHighSurrogate u || isLowSurrogate u then '\uFFFD' else Char.ofNat u

/-- Reads the four digits of an escape by code, behind its `u`. At least one more character
has to follow them, since no string can end there. -/
def readUnit (cs : List Char) : Read Nat :=
  match cs with
  | a :: b :: c :: d :: e :: rest =>
    match hexValue? [a, b, c, d] with
    | some u => .ok (u, e :: rest)
    | none => .error ⟨.badCode, 'u' :: cs⟩
  | _ => .error ⟨.badCode, 'u' :: cs⟩

/-- Reads the second half of a pair behind its first half `high`. Text that is too short for an
escape, or that holds another escape, is left unread. -/
def readPair (high : Nat) (cs : List Char) : Read Char :=
  match cs with
  | '\\' :: 'u' :: rest =>
    if (rest.drop 4).isEmpty then .ok (unitChar high, cs)
    else
      (readUnit rest).andThen fun low rest ↦
        if isLowSurrogate low then .ok (Char.ofNat (joinSurrogates high low), rest)
        else .ok (unitChar high, cs)
  | _ => .ok (unitChar high, cs)

/-- Reads an escape behind its backslash, in the string that opened at `opened`. -/
def readEscape (opened : List Char) (cs : List Char) : Read Char :=
  match cs with
  | [] => .error ⟨.openString, opened⟩
  | c :: rest =>
    match shortEscape? c with
    | some x => .ok (x, rest)
    | none =>
      if c = 'u' then
        (readUnit rest).andThen fun u rest ↦
          if isHighSurrogate u then readPair u rest else .ok (unitChar u, rest)
      else .error ⟨.unknownEscape, '\\' :: cs⟩

/-- Reads the characters of a string up to its closing quote. -/
def readChars (opened : List Char) : Nat → List Char → Read (List Char)
  | 0, _ => .error ⟨.openString, opened⟩
  | _ + 1, [] => .error ⟨.openString, opened⟩
  | n + 1, c :: cs =>
    if c = '"' then .ok ([], cs)
    else if c.toNat < 0x20 then .error ⟨.controlCharacter, c :: cs⟩
    else if c = '\\' then
      (readEscape opened cs).andThen fun x rest ↦
        (readChars opened n rest).andThen fun xs rest ↦ .ok (x :: xs, rest)
    else (readChars opened n cs).andThen fun xs rest ↦ .ok (c :: xs, rest)

/-- Reads a string behind its opening quote. -/
def readString (bound : Nat) (cs : List Char) : Read String :=
  (readChars ('"' :: cs) bound cs).andThen fun xs rest ↦ .ok (String.ofList xs, rest)

/-! ### Numbers and names -/

/-- The digits at the front, and the text behind them. -/
def spanDigits (cs : List Char) : List Char × List Char :=
  (cs.takeWhile Char.isDigit, cs.dropWhile Char.isDigit)

/-- The digits of a whole number at the front: a zero stands alone. -/
def spanWhole : List Char → List Char × List Char
  | '0' :: rest => (['0'], rest)
  | cs => spanDigits cs

/-- The digits of a fraction at the front, if a point and a digit are there. -/
def spanFraction : List Char → List Char × List Char
  | '.' :: rest => if (spanDigits rest).1.isEmpty then ([], '.' :: rest) else spanDigits rest
  | cs => ([], cs)

/-- The sign of an exponent, if there is one. -/
def spanSign : List Char → Bool × List Char
  | '+' :: rest => (false, rest)
  | '-' :: rest => (true, rest)
  | cs => (false, cs)

/-- The exponent at the front, if a mark and a digit are there. -/
def spanExponent : List Char → Option Int × List Char
  | c :: rest =>
    if c = 'e' ∨ c = 'E' then
      let (negative, digits) := spanSign rest
      let (ds, behind) := spanDigits digits
      if ds.isEmpty then (none, c :: rest)
      else (some (if negative then -(digitsValue ds : Int) else digitsValue ds), behind)
    else (none, c :: rest)
  | [] => (none, [])

/-- Reads a number. -/
def readNumber (maxDigits : Nat) (cs : List Char) : Read Json :=
  let (negative, unsigned) := match cs with
    | '-' :: rest => (true, rest)
    | _ => (false, cs)
  let (whole, behindWhole) := spanWhole unsigned
  if whole.isEmpty then .error ⟨.noValue, cs⟩
  else
    let (fraction, behindFraction) := spanFraction behindWhole
    let (exponent, rest) := spanExponent behindFraction
    if fraction.isEmpty && exponent.isNone then
      if maxDigits < whole.length then .error ⟨.tooManyDigits maxDigits whole.length, cs⟩
      else
        let n : Int := digitsValue whole
        .ok (.int (if negative then -n else n), rest)
    else .ok (.float (readFloat negative whole fraction (exponent.getD 0)), rest)

/-- The values that are written by name. -/
def named : List (List Char × Json) :=
  [(['n', 'u', 'l', 'l'], .null), (['t', 'r', 'u', 'e'], .bool true),
    (['f', 'a', 'l', 's', 'e'], .bool false), (['N', 'a', 'N'], .float (0.0 / 0.0)),
    (['I', 'n', 'f', 'i', 'n', 'i', 't', 'y'], .float (1.0 / 0.0)),
    (['-', 'I', 'n', 'f', 'i', 'n', 'i', 't', 'y'], .float (-1.0 / 0.0))]

/-- Reads a value that is written by name, or else a number. -/
def readScalar (maxDigits : Nat) (cs : List Char) : Read Json :=
  match named.findSome? fun entry ↦ (entry.1.isPrefixOf? cs).map fun rest ↦ (entry.2, rest) with
  | some result => .ok result
  | none => readNumber maxDigits cs

/-! ### Values -/

mutual

/-- Reads a value that starts at the front of the text. -/
def readValue (maxDigits : Nat) : Nat → List Char → Read Json
  | 0, cs => .error ⟨.noValue, cs⟩
  | bound + 1, cs =>
    match cs with
    | '"' :: rest => (readString bound rest).andThen fun s rest ↦ .ok (.str s, rest)
    | '[' :: rest =>
      match skipSpaces rest with
      | ']' :: rest => .ok (.arr [], rest)
      | rest => (readItems maxDigits bound rest).andThen fun items rest ↦ .ok (.arr items, rest)
    | '\x7b' :: rest =>
      match skipSpaces rest with
      | '\x7d' :: rest => .ok (.obj [], rest)
      | rest =>
        (readFields maxDigits bound rest).andThen fun fields rest ↦
          .ok (.obj (collectFields fields), rest)
    | _ => readScalar maxDigits cs

/-- Reads the items of an array from one of them to the closing bracket. -/
def readItems (maxDigits : Nat) : Nat → List Char → Read (List Json)
  | 0, cs => .error ⟨.noValue, cs⟩
  | bound + 1, cs =>
    (readValue maxDigits bound cs).andThen fun v rest ↦
      match skipSpaces rest with
      | ']' :: rest => .ok ([v], rest)
      | ',' :: rest =>
        (readItems maxDigits bound (skipSpaces rest)).andThen fun vs rest ↦ .ok (v :: vs, rest)
      | rest => .error ⟨.noComma, rest⟩

/-- Reads the fields of an object from one of them to the closing brace. -/
def readFields (maxDigits : Nat) : Nat → List Char → Read Fields
  | 0, cs => .error ⟨.noName, cs⟩
  | bound + 1, cs =>
    match cs with
    | '"' :: rest =>
      (readString bound rest).andThen fun name rest ↦
        match skipSpaces rest with
        | ':' :: rest =>
          (readValue maxDigits bound (skipSpaces rest)).andThen fun v rest ↦
            match skipSpaces rest with
            | '\x7d' :: rest => .ok ([(name, v)], rest)
            | ',' :: rest =>
              (readFields maxDigits bound (skipSpaces rest)).andThen fun fields rest ↦
                .ok ((name, v) :: fields, rest)
            | rest => .error ⟨.noComma, rest⟩
        | rest => .error ⟨.noColon, rest⟩
    | _ => .error ⟨.noName, cs⟩

end

/-- Reads a whole text as one value with blanks around it. -/
def readAll (maxDigits : Nat) (cs : List Char) : Except Fault Json :=
  match cs with
  | '\uFEFF' :: _ => .error ⟨.byteOrderMark, cs⟩
  | _ =>
    match readValue maxDigits (2 * cs.length + 1) (skipSpaces cs) with
    | .error fault => .error fault
    | .ok (v, rest) =>
      match skipSpaces rest with
      | [] => .ok v
      | rest => .error ⟨.extraData, rest⟩

/-- Reads a text as one JSON value whose whole numbers have at most `maxDigits` digits. -/
def read (maxDigits : Nat) (s : String) : Except ReadError Json :=
  (readAll maxDigits s.toList).mapError (Fault.locate s.toList)

end TokenScan.Json
