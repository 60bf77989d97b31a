import Mathlib.Computability.Language
import TokenScan.Text.CharClass
import TokenScan.Token.Category

/-!
# The grammar of lexemes

Which texts are lexemes, and of which category, said without a scanner: every category has a regular
language, built from single characters by alternatives (`+`), sequence (`*`) and repetition (`∗`).
No definition here refers to the character classes, the reserved words or the phases that scanning
uses; the two descriptions of the language meet only in theorems, of which those about classes stand
at the end.

## Facts about lexemes

Two facts carry all later arguments about the grammar alone.

* `chars_of_mem_language`: the first character of a lexeme fits its category (`Opens`), and every
  further one is a letter, a digit or one of `_ . + - =`. So a lexeme is not empty, holds no blank,
  and holds a slash in first place only.
* `language_unique`: a text is a lexeme of at most one category. The category can be read off the
  text (`shown`): by the first character, except that numbers and operators differ in whether a
  digit occurs, and the two kinds of words in whether the word is reserved.

## Gaps

What stands between lexemes is a sequence of blanks and closed comments. A closed comment is a body
between delimiters that does not hold the closing one; an open comment is the opening delimiter and
text that does not hold the closing one.
-/

open scoped Computability

namespace TokenScan.Grammar

/-! ### Single characters -/

/-- The texts of exactly one character, which has a property. -/
def single (P : Char → Prop) : Language Char := {w | ∃ c, P c ∧ w = [c]}

/-- One text and no other. -/
def literal (s : String) : Language Char := {s.toList}

/-- A decimal digit. -/
def digit : Language Char := single fun c ↦ c.isDigit = true

/-- Space, tab, line feed, carriage return, form feed. -/
def blankChars : List Char := [' ', '\t', '\n', '\r', '\x0c']

/-- The characters of a word behind the first. -/
def WordChar (c : Char) : Prop := c.isAlphanum = true ∨ c = '_'

/-! ### Lexemes -/

/-- A letter or underscore, and any number of letters, digits and underscores. -/
def word : Language Char :=
  single (fun c ↦ c.isAlpha = true ∨ c = '_') * (single WordChar)∗

/-- The words that are keywords. -/
def reserved : List String := ["begin", "end", "print"]

/-- An optional sign. -/
def sign : Language Char := 1 + literal "+" + literal "-"

/-- At least one digit. -/
def numeral : Language Char := digit * digit∗

/-- Digits with an optional fraction, which may be empty, or a fraction alone, which may not. -/
def unsigned : Language Char := numeral * (1 + literal "." * digit∗) + literal "." * numeral

/-- A number: an optional sign and the number without it. -/
def number : Language Char := sign * unsigned

/-- The operators. -/
def operators : List String :=
  [".", "+", "-", "++", "+=", "--", "-=", "*", "/", "=", "*=", "/=", "=="]

/-- The characters that open a number or an operator, or stand alone as an operator. -/
def operatorChars : List Char := ['.', '+', '-', '*', '/', '=']

/-- A printable character that is no space, no part of a word and opens no operator. -/
def Punctuation (c : Char) : Prop :=
  0x20 < c.toNat ∧ c.toNat ≤ 0x7E ∧ ¬ WordChar c ∧ c ∉ operatorChars

/-- A character that is neither printable nor a blank. -/
def Malformed (c : Char) : Prop :=
  ¬ (0x20 ≤ c.toNat ∧ c.toNat ≤ 0x7E) ∧ c ∉ blankChars

end Grammar

open Grammar

/-- The lexemes of a category. -/
def Category.language : Category → Language Char
  | .keyword => {w | w ∈ word ∧ String.ofList w ∈ reserved}
  | .identifier => {w | w ∈ word ∧ String.ofList w ∉ reserved}
  | .number => Grammar.number
  | .operator => {w | String.ofList w ∈ operators}
  | .punctuation => single Punctuation
  | .malformed => single Malformed

namespace Grammar

/-- All lexemes. -/
def lexeme : Language Char := {w | ∃ k : Category, w ∈ k.language}

/-! ### Gaps -/

/-- The delimiter that opens a comment. -/
def opener : List Char := ['/', '*']

/-- The delimiter that closes a comment. -/
def closer : List Char := ['*', '/']

/-- A single blank. -/
def blank : Language Char := single (· ∈ blankChars)

/-- A comment that is closed: its body does not hold the closing delimiter. -/
def comment : Language Char :=
  {w | ∃ body, ¬ closer <:+: body ∧ w = opener ++ (body ++ closer)}

/-- A comment that is not closed. -/
def openComment : Language Char := {w | ∃ body, ¬ closer <:+: body ∧ w = opener ++ body}

/-- What may stand between two lexemes. -/
def gap : Language Char := (blank + comment)∗

/-! ### Membership -/

/-- Repeating a single character gives the texts of such characters. -/
theorem mem_single_kstar {P : Char → Prop} {w : List Char} :
    w ∈ (single P)∗ ↔ ∀ c ∈ w, P c := by
  constructor
  · rintro ⟨parts, rfl, hparts⟩ c hc
    obtain ⟨part, hpart, hc⟩ := List.mem_flatten.1 hc
    obtain ⟨d, hd, rfl⟩ := hparts part hpart
    rwa [List.mem_singleton.1 hc]
  · intro hw
    refine ⟨w.map fun c ↦ [c], (List.flatMap_singleton' w).symm, ?_⟩
    intro part hpart
    obtain ⟨c, hc, rfl⟩ := List.mem_map.1 hpart
    exact ⟨c, hw c hc, rfl⟩

theorem mem_digit_kstar {w : List Char} : w ∈ digit∗ ↔ ∀ c ∈ w, c.isDigit = true :=
  mem_single_kstar

/-- Words, character by character. -/
theorem mem_word {w : List Char} :
    w ∈ word ↔ ∃ c u, w = c :: u ∧ (c.isAlpha = true ∨ c = '_') ∧ ∀ x ∈ u, WordChar x := by
  constructor
  · intro h
    obtain ⟨-, ⟨c, hc, rfl⟩, u, hu, rfl⟩ := Language.mem_mul.1 h
    exact ⟨c, u, rfl, hc, mem_single_kstar.1 hu⟩
  · rintro ⟨c, u, rfl, hc, hu⟩
    exact Language.append_mem_mul (a := [c]) ⟨c, hc, rfl⟩ (mem_single_kstar.2 hu)

/-- Runs of digits, character by character. -/
theorem mem_numeral {w : List Char} :
    w ∈ numeral ↔ ∃ c u, w = c :: u ∧ c.isDigit = true ∧ ∀ x ∈ u, x.isDigit = true := by
  constructor
  · intro h
    obtain ⟨-, ⟨c, hc, rfl⟩, u, hu, rfl⟩ := Language.mem_mul.1 h
    exact ⟨c, u, rfl, hc, mem_digit_kstar.1 hu⟩
  · rintro ⟨c, u, rfl, hc, hu⟩
    exact Language.append_mem_mul (a := [c]) ⟨c, hc, rfl⟩ (mem_digit_kstar.2 hu)

/-- A number without its sign that holds a point. -/
def fractional : Language Char := numeral * (literal "." * digit∗) + literal "." * numeral

theorem unsigned_eq : unsigned = numeral + fractional := by
  rw [unsigned, fractional, mul_add, mul_one, add_assoc]

theorem mem_fractional {w : List Char} :
    w ∈ fractional ↔
      (∃ a b, a ∈ numeral ∧ b ∈ digit∗ ∧ w = a ++ '.' :: b) ∨ ∃ b ∈ numeral, w = '.' :: b := by
  rw [fractional, Language.mem_add]
  refine or_congr ?_ ?_
  · constructor
    · intro h
      obtain ⟨a, ha, v, hv, rfl⟩ := Language.mem_mul.1 h
      obtain ⟨-, rfl, b, hb, rfl⟩ := Language.mem_mul.1 hv
      exact ⟨a, b, ha, hb, rfl⟩
    · rintro ⟨a, b, ha, hb, rfl⟩
      exact Language.append_mem_mul ha (Language.append_mem_mul (a := ['.']) rfl hb)
  · constructor
    · intro h
      obtain ⟨-, rfl, b, hb, rfl⟩ := Language.mem_mul.1 h
      exact ⟨b, hb, rfl⟩
    · rintro ⟨b, hb, rfl⟩
      exact Language.append_mem_mul (a := ['.']) rfl hb

/-- The three forms of a number without its sign. -/
theorem mem_unsigned {w : List Char} :
    w ∈ unsigned ↔
      w ∈ numeral ∨ (∃ a b, a ∈ numeral ∧ b ∈ digit∗ ∧ w = a ++ '.' :: b) ∨
        ∃ b ∈ numeral, w = '.' :: b := by
  rw [unsigned_eq, Language.mem_add, mem_fractional]

/-- A sign is nothing, a plus or a minus. -/
theorem mem_sign {w : List Char} : w ∈ sign ↔ w = [] ∨ w = ['+'] ∨ w = ['-'] := by
  rw [sign, Language.mem_add, Language.mem_add, Language.mem_one, or_assoc]
  rfl

/-- A number is one without a sign, or a sign and one without. -/
theorem mem_number {w : List Char} :
    w ∈ number ↔ w ∈ unsigned ∨ ∃ s u, (s = '+' ∨ s = '-') ∧ u ∈ unsigned ∧ w = s :: u := by
  constructor
  · intro h
    obtain ⟨s, hs, u, hu, rfl⟩ := Language.mem_mul.1 h
    rcases mem_sign.1 hs with rfl | rfl | rfl
    · exact Or.inl hu
    · exact Or.inr ⟨'+', u, Or.inl rfl, hu, rfl⟩
    · exact Or.inr ⟨'-', u, Or.inr rfl, hu, rfl⟩
  · rintro (hu | ⟨s, u, hs, hu, rfl⟩)
    · exact Language.append_mem_mul (a := []) (mem_sign.2 (Or.inl rfl)) hu
    · refine Language.append_mem_mul (a := [s]) (mem_sign.2 (Or.inr ?_)) hu
      rcases hs with rfl | rfl
      · exact Or.inl rfl
      · exact Or.inr rfl

/-! ### Characters by their codes -/

theorem isAlpha_iff_toNat {c : Char} :
    c.isAlpha = true ↔ (65 ≤ c.toNat ∧ c.toNat ≤ 90) ∨ (97 ≤ c.toNat ∧ c.toNat ≤ 122) := by
  show (decide ('A'.val ≤ c.val ∧ c.val ≤ 'Z'.val) ||
    (decide ('a'.val ≤ c.val) && decide (c.val ≤ 'z'.val))) = true ↔ _
  simp only [Bool.or_eq_true, Bool.and_eq_true, decide_eq_true_eq, UInt32.le_iff_toNat_le]
  rfl

theorem isDigit_iff_toNat {c : Char} : c.isDigit = true ↔ 48 ≤ c.toNat ∧ c.toNat ≤ 57 :=
  Char.isDigit_iff_toNat

/-- What opens a word is printable, and no digit. -/
theorem toNat_of_opens_word {c : Char} (h : c.isAlpha = true ∨ c = '_') :
    0x40 < c.toNat ∧ c.toNat ≤ 0x7E := by
  rcases h with h | rfl
  · rw [isAlpha_iff_toNat] at h
    omega
  · decide

/-- What opens a number is printable, and does not open a word. -/
theorem toNat_of_opens_number {c : Char} (h : c.isDigit = true ∨ c = '.' ∨ c = '+' ∨ c = '-') :
    0x20 < c.toNat ∧ c.toNat < 0x40 := by
  rcases h with h | rfl | rfl | rfl
  · rw [isDigit_iff_toNat] at h
    omega
  all_goals decide

/-! ### The characters of a lexeme -/

/-- The characters that may open a lexeme of a category. -/
def Opens (c : Char) : Category → Prop
  | .keyword => c.isAlpha = true ∨ c = '_'
  | .identifier => c.isAlpha = true ∨ c = '_'
  | .number => c.isDigit = true ∨ c = '.' ∨ c = '+' ∨ c = '-'
  | .operator => c ∈ operatorChars
  | .punctuation => Punctuation c
  | .malformed => Malformed c

/-- The characters that may stand in a lexeme behind its first. -/
def Continues (c : Char) : Prop := WordChar c ∨ c ∈ ['.', '+', '-', '=']

theorem wordChar_of_isDigit {c : Char} (h : c.isDigit = true) : WordChar c := by
  simp [WordChar, Char.isAlphanum, h]

theorem continues_of_isDigit {c : Char} (h : c.isDigit = true) : Continues c :=
  Or.inl (wordChar_of_isDigit h)

/-- Every operator is one of its characters and at most one more. -/
theorem operator_chars {w : List Char} (h : w ∈ Category.operator.language) :
    ∃ c u, w = c :: u ∧ c ∈ operatorChars ∧ u ∈ [[], ['+'], ['-'], ['=']] := by
  have hall : ∀ s ∈ operators, ∃ c ∈ operatorChars, ∃ u ∈ [[], ['+'], ['-'], ['=']],
      s.toList = c :: u := by
    decide
  obtain ⟨c, hc, u, hu, hw⟩ := hall _ h
  exact ⟨c, u, by simpa using hw, hc, hu⟩

/-- A number without its sign opens with a digit or a point, holds a digit, and consists of digits
and points. -/
theorem unsigned_chars {w : List Char} (h : w ∈ unsigned) :
    ∃ c u, w = c :: u ∧ (c.isDigit = true ∨ c = '.') ∧ (∃ x ∈ w, x.isDigit = true) ∧
      ∀ x ∈ u, x.isDigit = true ∨ x = '.' := by
  rcases mem_unsigned.1 h with h | ⟨a, b, ha, hb, rfl⟩ | ⟨b, hb, rfl⟩
  · obtain ⟨c, u, rfl, hc, hu⟩ := mem_numeral.1 h
    exact ⟨c, u, rfl, Or.inl hc, ⟨c, by simp, hc⟩, fun x hx ↦ Or.inl (hu x hx)⟩
  · obtain ⟨c, u, rfl, hc, hu⟩ := mem_numeral.1 ha
    refine ⟨c, u ++ '.' :: b, rfl, Or.inl hc, ⟨c, by simp, hc⟩, fun x hx ↦ ?_⟩
    rcases List.mem_append.1 hx with hx | hx
    · exact Or.inl (hu x hx)
    · rcases List.mem_cons.1 hx with rfl | hx
      · exact Or.inr rfl
      · exact Or.inl (mem_digit_kstar.1 hb x hx)
  · obtain ⟨c, u, rfl, hc, hu⟩ := mem_numeral.1 hb
    refine ⟨'.', c :: u, rfl, Or.inr rfl, ⟨c, by simp, hc⟩, fun x hx ↦ Or.inl ?_⟩
    rcases List.mem_cons.1 hx with rfl | hx
    · exact hc
    · exact hu x hx

/-- **The characters of a lexeme**: the first fits the category, the others continue any lexeme. -/
theorem chars_of_mem_language {w : List Char} {k : Category} (h : w ∈ k.language) :
    ∃ c u, w = c :: u ∧ Opens c k ∧ ∀ x ∈ u, Continues x := by
  cases k with
  | keyword =>
    obtain ⟨c, u, rfl, hc, hu⟩ := mem_word.1 h.1
    exact ⟨c, u, rfl, hc, fun x hx ↦ Or.inl (hu x hx)⟩
  | identifier =>
    obtain ⟨c, u, rfl, hc, hu⟩ := mem_word.1 h.1
    exact ⟨c, u, rfl, hc, fun x hx ↦ Or.inl (hu x hx)⟩
  | number =>
    have hcont : ∀ x : Char, x.isDigit = true ∨ x = '.' → Continues x := by
      rintro x (hx | rfl)
      · exact continues_of_isDigit hx
      · exact Or.inr (by decide)
    rcases mem_number.1 h with h | ⟨s, u, hs, hu, rfl⟩
    · obtain ⟨c, u, rfl, hc, -, hu⟩ := unsigned_chars h
      exact ⟨c, u, rfl, hc.imp_right Or.inl, fun x hx ↦ hcont x (hu x hx)⟩
    · obtain ⟨c, u, rfl, hc, -, hu⟩ := unsigned_chars hu
      refine ⟨s, c :: u, rfl, Or.inr (Or.inr hs), fun x hx ↦ hcont x ?_⟩
      rcases List.mem_cons.1 hx with rfl | hx
      · exact hc
      · exact hu x hx
  | operator =>
    obtain ⟨c, u, rfl, hc, hu⟩ := operator_chars h
    refine ⟨c, u, rfl, hc, fun x hx ↦ Or.inr ?_⟩
    have hall : ∀ u ∈ [[], ['+'], ['-'], ['=']], ∀ x ∈ u, x ∈ ['.', '+', '-', '='] := by decide
    exact hall u hu x hx
  | punctuation =>
    obtain ⟨c, hc, rfl⟩ := h
    exact ⟨c, [], rfl, hc, by simp⟩
  | malformed =>
    obtain ⟨c, hc, rfl⟩ := h
    exact ⟨c, [], rfl, hc, by simp⟩

theorem ne_nil_of_mem_lexeme {w : List Char} (h : w ∈ lexeme) : w ≠ [] := by
  obtain ⟨k, hk⟩ := h
  obtain ⟨c, u, rfl, -⟩ := chars_of_mem_language hk
  exact List.cons_ne_nil c u

/-- What continues a lexeme is neither a blank nor part of a delimiter. -/
theorem not_blank_or_delimiter_of_continues {c : Char} (h : Continues c) :
    c ∉ '*' :: '/' :: blankChars := by
  intro hc
  have hall : ∀ x ∈ '*' :: '/' :: blankChars,
      x.isAlphanum = false ∧ x ≠ '_' ∧ x ∉ ['.', '+', '-', '='] := by
    decide
  obtain ⟨halnum, hunder, hothers⟩ := hall c hc
  rcases h with (h | h) | h
  · rw [halnum] at h
    exact absurd h (by simp)
  · exact hunder h
  · exact hothers h

/-- What opens a lexeme is no blank. -/
theorem not_blank_of_opens {c : Char} {k : Category} (h : Opens c k) : c ∉ blankChars := by
  intro hc
  have hall : ∀ x ∈ blankChars, ¬ (x.isAlpha = true ∨ x = '_') ∧
      ¬ (x.isDigit = true ∨ x = '.' ∨ x = '+' ∨ x = '-') ∧ x ∉ operatorChars ∧ x.toNat ≤ 0x20 := by
    decide
  obtain ⟨hword, hnumber, hoperator, hcode⟩ := hall c hc
  cases k with
  | keyword => exact hword h
  | identifier => exact hword h
  | number => exact hnumber h
  | operator => exact hoperator h
  | punctuation => exact absurd h.1 hcode.not_gt
  | malformed => exact h.2 hc

/-! ### One category at most -/

/-- A number holds a digit. -/
theorem exists_isDigit_of_mem_number {w : List Char} (h : w ∈ number) :
    ∃ x ∈ w, x.isDigit = true := by
  rcases mem_number.1 h with h | ⟨s, u, -, hu, rfl⟩
  · obtain ⟨-, -, -, -, hx, -⟩ := unsigned_chars h
    exact hx
  · obtain ⟨-, -, -, -, ⟨x, hx, hd⟩, -⟩ := unsigned_chars hu
    exact ⟨x, List.mem_cons_of_mem s hx, hd⟩

instance (c : Char) : Decidable (WordChar c) :=
  inferInstanceAs (Decidable (_ ∨ _))

instance (c : Char) : Decidable (Malformed c) :=
  inferInstanceAs (Decidable (_ ∧ _))

/-- The category that a lexeme shows, given its first character and the others. -/
def shown (c : Char) (u : List Char) : Category :=
  if Malformed c then .malformed
  else if c.isAlpha = true ∨ c = '_' then
    if String.ofList (c :: u) ∈ reserved then .keyword else .identifier
  else if (c :: u).any Char.isDigit = true then .number
  else if c ∈ operatorChars then .operator
  else .punctuation

/-- Nothing printable is malformed. -/
theorem not_malformed_of_toNat {c : Char} (h : 0x20 ≤ c.toNat ∧ c.toNat ≤ 0x7E) :
    ¬ Malformed c := fun hc ↦ hc.1 h

/-- **A lexeme shows its category.** -/
theorem shown_of_mem_language {c : Char} {u : List Char} {k : Category}
    (h : c :: u ∈ k.language) : shown c u = k := by
  obtain ⟨_, _, he, hc, -⟩ := chars_of_mem_language h
  obtain ⟨rfl, rfl⟩ := List.cons.inj he
  cases k with
  | keyword =>
    have hword : c.isAlpha = true ∨ c = '_' := hc
    have hcode := toNat_of_opens_word hword
    rw [shown, if_neg (not_malformed_of_toNat (by omega)), if_pos hword, if_pos h.2]
  | identifier =>
    have hword : c.isAlpha = true ∨ c = '_' := hc
    have hcode := toNat_of_opens_word hword
    rw [shown, if_neg (not_malformed_of_toNat (by omega)), if_pos hword, if_neg h.2]
  | number =>
    have hcode := toNat_of_opens_number hc
    have hword : ¬ (c.isAlpha = true ∨ c = '_') := by
      intro hw
      have := toNat_of_opens_word hw
      omega
    have hdigit : (c :: u).any Char.isDigit = true :=
      List.any_eq_true.2 (exists_isDigit_of_mem_number h)
    rw [shown, if_neg (not_malformed_of_toNat (by omega)), if_neg hword, if_pos hdigit]
  | operator =>
    -- the operators are finitely many, and no digit occurs in them
    have hall : ∀ s ∈ operators, ∀ x ∈ s.toList.take 1, shown x s.toList.tail = .operator := by
      decide
    simpa using hall _ h c (by simp)
  | punctuation =>
    obtain ⟨_, hp, he⟩ := h
    obtain ⟨rfl, rfl⟩ := List.cons.inj he
    obtain ⟨hlow, hhigh, hword, hop⟩ := hp
    have hfirst : ¬ (c.isAlpha = true ∨ c = '_') := by
      rintro (h | h)
      · exact hword (Or.inl (by simp [Char.isAlphanum, h]))
      · exact hword (Or.inr h)
    have hdigit : ¬ [c].any Char.isDigit = true := by
      intro h
      exact hword (wordChar_of_isDigit (by simpa using h))
    rw [shown, if_neg (not_malformed_of_toNat (by omega)), if_neg hfirst, if_neg hdigit,
      if_neg hop]
  | malformed => exact if_pos hc

/-- **One category at most**: the languages of two categories have no text in common. -/
theorem language_unique {w : List Char} {k l : Category} (hk : w ∈ k.language)
    (hl : w ∈ l.language) : k = l := by
  obtain ⟨c, u, rfl, -⟩ := chars_of_mem_language hk
  exact (shown_of_mem_language hk).symm.trans (shown_of_mem_language hl)

end Grammar

/-! ### The scanner's classes are those of the grammar -/

theorem opensWord_iff {c : Char} : opensWord c = true ↔ c.isAlpha = true ∨ c = '_' := by
  simp [opensWord]

theorem continuesWord_iff {c : Char} : continuesWord c = true ↔ WordChar c := by
  simp [continuesWord, WordChar, Char.isAlphanum]

theorem isBlank_iff {c : Char} : isBlank c = true ↔ c ∈ blankChars := by
  simp [isBlank, blankChars, or_assoc]

theorem isIllegal_iff {c : Char} : isIllegal c = true ↔ Malformed c := by
  have hprint : isPrintable c = true ↔ 0x20 ≤ c.toNat ∧ c.toNat ≤ 0x7E := by
    simp [isPrintable]
  rw [isIllegal, Bool.and_eq_true, Bool.not_eq_true', Bool.not_eq_true', ← Bool.not_eq_true,
    ← Bool.not_eq_true, isBlank_iff, hprint, and_comm]
  rfl

end TokenScan
