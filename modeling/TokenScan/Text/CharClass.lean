/-!
# Character classes

The alphabet of the scanned language. Letters and digits are the ASCII ones, for which core's
`Char.isAlpha` and `Char.isDigit` are exactly right; the other classes are defined here.

A character is a *blank* if it may stand between two lexemes, and *printable* if its code lies in
`0x20`–`0x7E`. The two overlap in the space only. A character of neither class is *illegal*: no
lexeme of the language can start with it. The vertical tab is no blank, hence illegal.

## Classes of a text

`CharClasses.ofText` answers for a whole string: only a text of exactly one character belongs to
any class, so the empty text (which stands for the end of input) and longer texts have none.
-/

namespace TokenScan

/-- Space, tab, line feed, carriage return and form feed: what may separate two lexemes. -/
def isBlank (c : Char) : Bool :=
  c == ' ' || c == '\t' || c == '\n' || c == '\r' || c == '\x0c'

/-- Printable ASCII, from the space to the tilde. -/
def isPrintable (c : Char) : Bool :=
  0x20 ≤ c.toNat && c.toNat ≤ 0x7E

/-- A character that is neither a blank nor printable, and so starts no lexeme. -/
def isIllegal (c : Char) : Bool :=
  !isBlank c && !isPrintable c

/-- A character that may open a word: a letter or an underscore. -/
def opensWord (c : Char) : Bool :=
  c.isAlpha || c == '_'

/-- A character that may continue a word: a letter, a digit or an underscore. -/
def continuesWord (c : Char) : Bool :=
  c.isAlpha || c.isDigit || c == '_'

/-! ### The classes as lists -/

/-- The ASCII characters of a class, in code order. -/
def asciiWhere (p : Char → Bool) : List Char :=
  ((List.range 128).map Char.ofNat).filter p

/-- All letters, in code order. -/
def letters : List Char := asciiWhere Char.isAlpha

/-- All digits, in code order. -/
def digits : List Char := asciiWhere Char.isDigit

/-- All blanks, in code order. -/
def blanks : List Char := asciiWhere isBlank

/-- All printable characters, in code order. -/
def printables : List Char := asciiWhere isPrintable

/-! ### Membership of a text -/

/-- For each class, whether something belongs to it. -/
structure CharClasses where
  /-- An ASCII letter. -/
  letter : Bool
  /-- An ASCII digit. -/
  digit : Bool
  /-- A blank. -/
  blank : Bool
  /-- Printable ASCII. -/
  printable : Bool
  /-- Neither blank nor printable. -/
  illegal : Bool
  deriving DecidableEq, Repr

namespace CharClasses

/-- The classes of a single character. -/
def ofChar (c : Char) : CharClasses :=
  ⟨c.isAlpha, c.isDigit, isBlank c, isPrintable c, isIllegal c⟩

/-- Membership in no class at all. -/
def none : CharClasses := ⟨false, false, false, false, false⟩

/-- The classes of a text: those of its only character, and none for any other text. -/
def ofText (s : String) : CharClasses :=
  match s.toList with
  | [c] => ofChar c
  | _ => none

end CharClasses

/-! ### Deciding along a list

Characters are finitely many, and one way to decide what holds of all characters of a list is to try
every character there is. Here it is decided along the list. -/

/-- What holds of all characters of a list. -/
scoped instance (priority := high) decidableForallMem (P : Char → Prop) [DecidablePred P]
    (l : List Char) : Decidable (∀ c ∈ l, P c) :=
  List.decidableBAll P l

/-- What holds of some character of a list. -/
scoped instance (priority := high) decidableExistsMem (P : Char → Prop) [DecidablePred P]
    (l : List Char) : Decidable (∃ c ∈ l, P c) :=
  List.decidableBEx P l

/-! ### How the classes meet -/

theorem continuesWord_of_opensWord {c : Char} (h : opensWord c = true) :
    continuesWord c = true := by
  simp only [opensWord, continuesWord, Bool.or_eq_true] at h ⊢
  exact h.imp_left Or.inl

end TokenScan
