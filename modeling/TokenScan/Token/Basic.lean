import TokenScan.Json.Equality
import TokenScan.Location
import TokenScan.Token.Category

/-!
# Tokens

A token is a lexeme with its category and where it came from: the line and column of its first
character, the offsets it spans and the name of its text. A lexeme never holds a line feed, so a
token ends in the line it starts in, and the column behind it follows from the length of its lexeme.
-/

namespace TokenScan

/-- A classified lexeme and its coordinates. -/
structure Token where
  /-- The text of the token, exactly as it stood in the source. -/
  lexeme : String
  /-- What kind of lexeme it is. -/
  category : Category
  /-- The line of its first character. -/
  line : Int
  /-- The column of its first character. -/
  column : Int
  /-- The offset of its first character. -/
  offset : Int
  /-- The offset behind its last character. -/
  endOffset : Int
  /-- The name of the text it came from. -/
  origin : Json

namespace Token

/-- Where the token lies. -/
def location (t : Token) : Location :=
  ⟨t.line, t.column, t.offset, t.endOffset, some t.line, some (t.column + t.lexeme.length),
    t.origin⟩

@[simp] theorem offset_location (t : Token) : t.location.offset = t.offset := rfl

@[simp] theorem endOffset_location (t : Token) : t.location.endOffset = t.endOffset := rfl

@[simp] theorem origin_location (t : Token) : t.location.origin = t.origin := rfl

/-- Lexeme and category: what was recognized, without where. -/
def pair (t : Token) : String × Category := (t.lexeme, t.category)

/-- Whether the token is a character outside the language. -/
def isMalformed (t : Token) : Bool := t.category == .malformed

/-- Equality of tokens: everything counts, and the names of their texts are compared by meaning. -/
def same (t u : Token) : Bool :=
  t.lexeme == u.lexeme && t.category == u.category && t.line == u.line && t.column == u.column &&
    t.offset == u.offset && t.endOffset == u.endOffset && t.origin.same u.origin

/-- Equality of two lists of tokens. -/
def sameAll (ts us : List Token) : Bool :=
  ts.length == us.length && (ts.zip us).all fun p ↦ p.1.same p.2

/-- The longest lexeme that is shown in full. -/
def shownLength : Nat := 20

/-- A lexeme for display: a long one is cut and ends in three dots that keep it within bounds. -/
def shorten (s : String) : String :=
  if s.length ≤ shownLength then s
  else String.ofList (s.toList.take (shownLength - 3)) ++ "..."

/-- A token in brief. -/
def describe (t : Token) : String :=
  s!"Token({t.category.name}, {quoted (shorten t.lexeme)}, {t.line}:{t.column})"

end Token

end TokenScan
