import TokenScan.Json.Describe

/-!
# Lexical categories

Every lexeme has one of six categories. A category has a display name, by which consumers and
records know it, and a label, by which diagnostics name it.
-/

namespace TokenScan

/-- What kind of lexeme a token is. -/
inductive Category where
  /-- A reserved word. -/
  | keyword
  /-- A word that is not reserved. -/
  | identifier
  /-- A number, with its sign if it has one. -/
  | number
  /-- An operator of one or two characters. -/
  | operator
  /-- A single printable character of no other category. -/
  | punctuation
  /-- A single character that is not part of the language. -/
  | malformed
  deriving DecidableEq, Repr

namespace Category

/-- All categories, in order. -/
def all : List Category := [keyword, identifier, number, operator, punctuation, malformed]

/-- The display name. -/
def name : Category → String
  | keyword => "Keyword"
  | identifier => "Identifier"
  | number => "NumericLiteral"
  | operator => "Operator"
  | punctuation => "Punctuation"
  | malformed => "Malformed"

/-- The label in diagnostics. -/
def label : Category → String
  | keyword => "KEYWORD"
  | identifier => "IDENTIFIER"
  | number => "NUMERIC_LITERAL"
  | operator => "OPERATOR"
  | punctuation => "PUNCTUATION"
  | malformed => "MALFORMED"

/-- The category with a given display name. -/
def ofName? (s : String) : Option Category := all.find? (·.name == s)

/-- The category that a value names; only a string can name one. -/
def ofJson? : Json → Option Category
  | .str s => ofName? s
  | _ => none

/-- A value that names no category. -/
structure Unknown where
  /-- The value that was looked up. -/
  value : Json

/-- The message about a value that names no category. -/
def Unknown.message (u : Unknown) : String := s!"{u.value.describe} is not a valid Category"

/-- Looks a category up by a value. -/
def find (v : Json) : Except Unknown Category :=
  match ofJson? v with
  | some c => .ok c
  | none => .error ⟨v⟩

@[simp] theorem ofName?_name (c : Category) : ofName? c.name = some c := by
  cases c <;> decide

theorem ofName?_eq_some_iff {s : String} {c : Category} : ofName? s = some c ↔ s = c.name := by
  constructor
  · intro h
    have := List.find?_some h
    simpa using (beq_iff_eq.mp this).symm
  · rintro rfl
    exact ofName?_name c

end Category

end TokenScan
