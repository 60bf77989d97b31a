import TokenScan.Json.Describe
import TokenScan.Position

/-!
# Locations

A location says where something lies in a text, for messages: its line and column, the offsets it
spans, optionally where it ends, and the name of the text. It is a record of numbers that may come
from anywhere, so nothing is assumed of them; `length` may be negative.

The name of the text is any JSON value. It shows up in messages if it counts as true.
-/

namespace TokenScan

/-- Where something lies in a text. -/
structure Location where
  /-- The line it starts in. -/
  line : Int
  /-- The column it starts in. -/
  column : Int
  /-- The offset it starts at. -/
  offset : Int
  /-- The offset behind it. -/
  endOffset : Int
  /-- The line it ends in, if known. -/
  endLine : Option Int
  /-- The column behind it, if known. -/
  endColumn : Option Int
  /-- The name of the text. -/
  origin : Json

namespace Location

/-- The place of a position, of no extent. -/
def ofPosition (p : Position) (origin : Json) : Location :=
  ⟨p.line, p.column, p.offset, p.offset, none, none, origin⟩

/-- The number of characters it spans. -/
def length (l : Location) : Int := l.endOffset - l.offset

/-- Line and column, behind the name of the text if that counts as true. -/
def text (l : Location) : String :=
  if l.origin.truthy then s!"{l.origin.text}:{l.line}:{l.column}" else s!"{l.line}:{l.column}"

/-- An optional number in a message. -/
def optionalText : Option Int → String
  | none => Json.null.describe
  | some n => (Json.int n).describe

/-- All that is known of a location. -/
def describe (l : Location) : String :=
  s!"SourceLocation(lineno={l.line}, col_offset={l.column}, offset={l.offset}, "
    ++ s!"end_offset={l.endOffset}, end_lineno={optionalText l.endLine}, "
    ++ s!"end_col_offset={optionalText l.endColumn}, source_file={l.origin.describe})"

end Location

end TokenScan
