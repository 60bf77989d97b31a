import TokenScan.Text.Hex
import TokenScan.Text.Visible

/-!
# Quoted text in messages

How a text is shown inside a message: between quotes, on one line, with everything that has no
visible form written as an escape.

The quote is `'` unless the text holds a `'` and no `"`; then it is `"`. Inside, the backslash and
the chosen quote get a backslash in front, line feed, carriage return and tab have their short
escapes, and any other character without a visible form is written by its code, in two, four or
eight hexadecimal digits, whichever is the first to hold it.
-/

namespace TokenScan

/-- The quote to put around a text. -/
def quoteFor (cs : List Char) : Char :=
  if cs.contains '\'' && !cs.contains '"' then '"' else '\''

/-- The code of a character as an escape of two, four or eight digits. -/
def codeEscape (c : Char) : List Char :=
  if c.toNat < 0x100 then '\\' :: 'x' :: hexDigits 2 c.toNat
  else if c.toNat < 0x10000 then '\\' :: 'u' :: hexDigits 4 c.toNat
  else '\\' :: 'U' :: hexDigits 8 c.toNat

/-- One character as it is shown between two quotes `q`. -/
def quotedChar (q c : Char) : List Char :=
  if c = '\\' then ['\\', '\\']
  else if c = q then ['\\', q]
  else if c = '\n' then ['\\', 'n']
  else if c = '\r' then ['\\', 'r']
  else if c = '\t' then ['\\', 't']
  else if isVisible c then [c]
  else codeEscape c

/-- A text as it is shown in messages. -/
def quoted (s : String) : String :=
  let q := quoteFor s.toList
  String.ofList (q :: s.toList.flatMap (quotedChar q) ++ [q])

end TokenScan
