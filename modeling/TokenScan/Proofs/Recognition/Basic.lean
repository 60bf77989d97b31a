import TokenScan.Proofs.Grammar
import TokenScan.Recognizer.Basic

/-!
# What the recognizer takes and decides

`Phase.taken` is the text that the recognizer takes from a phase on, and `Phase.verdict` the
category that it decides on, both as functions of the unread text alone. `Recognizer.settle_eq` says
that the recognizer does just that: it moves over the text that is taken, appends it to the lexeme
and ends with the category decided on. Everything else about single lexemes is stated of these two
functions.

The first move is the one with many branches. A character that is no blank is of one of five kinds
(`kind_of_not_blank`), and for each kind there is one equation for the move; nothing later unfolds
it.
-/

namespace TokenScan

open Grammar

namespace Phase

/-! ### What a phase takes -/

/-- What the recognizer takes from unread text, from a phase on. -/
def taken : Phase → List Char → List Char
  | _, [] => []
  | p, c :: rest =>
    match p.move c rest.head? with
    | .shift q => c :: q.taken rest
    | .last _ => [c]
    | .stop => []

/-- The category that the recognizer decides on, from a phase and the lexeme so far. -/
def verdict : Phase → String → List Char → Category
  | p, lexeme, [] => p.closing lexeme
  | p, lexeme, c :: rest =>
    match p.move c rest.head? with
    | .shift q => q.verdict (lexeme.push c) rest
    | .last k => k
    | .stop => p.closing lexeme

section Moves

variable {p q : Phase} {c : Char} {rest : List Char} {k : Category} {lexeme : String}

@[simp] theorem taken_nil (p : Phase) : p.taken [] = [] := by cases p <;> rfl

@[simp] theorem verdict_nil (p : Phase) (lexeme : String) :
    p.verdict lexeme [] = p.closing lexeme := by cases p <;> rfl

theorem taken_of_shift (hm : p.move c rest.head? = .shift q) :
    p.taken (c :: rest) = c :: q.taken rest := by rw [taken, hm]

theorem taken_of_last (hm : p.move c rest.head? = .last k) : p.taken (c :: rest) = [c] := by
  rw [taken, hm]

theorem taken_of_stop (hm : p.move c rest.head? = .stop) : p.taken (c :: rest) = [] := by
  rw [taken, hm]

theorem verdict_of_shift (hm : p.move c rest.head? = .shift q) :
    p.verdict lexeme (c :: rest) = q.verdict (lexeme.push c) rest := by rw [verdict, hm]

theorem verdict_of_last (hm : p.move c rest.head? = .last k) :
    p.verdict lexeme (c :: rest) = k := by rw [verdict, hm]

theorem verdict_of_stop (hm : p.move c rest.head? = .stop) :
    p.verdict lexeme (c :: rest) = p.closing lexeme := by rw [verdict, hm]

end Moves

theorem taken_prefix (p : Phase) (text : List Char) : p.taken text <+: text := by
  induction text generalizing p with
  | nil => rw [taken_nil]
  | cons c rest ih =>
    rcases hm : p.move c rest.head? with q | k | _
    · rw [taken_of_shift hm]
      exact List.cons_prefix_cons.2 ⟨rfl, ih q⟩
    · rw [taken_of_last hm]
      exact List.cons_prefix_cons.2 ⟨rfl, List.nil_prefix⟩
    · rw [taken_of_stop hm]
      exact List.nil_prefix

/-! ### The first character -/

/-- A character that is no blank is of one of five kinds, and the kind decides the first move. -/
theorem kind_of_not_blank {c : Char} (hc : c ∉ blankChars) :
    Malformed c ∨ (c.isAlpha = true ∨ c = '_') ∨ c.isDigit = true ∨ c ∈ operatorChars ∨
      Punctuation c := by
  by_cases hbad : Malformed c
  · exact Or.inl hbad
  by_cases hword : c.isAlpha = true ∨ c = '_'
  · exact Or.inr (Or.inl hword)
  by_cases hdigit : c.isDigit = true
  · exact Or.inr (Or.inr (Or.inl hdigit))
  by_cases hop : c ∈ operatorChars
  · exact Or.inr (Or.inr (Or.inr (Or.inl hop)))
  -- legal, and part of no word, number or operator: that is punctuation
  refine Or.inr (Or.inr (Or.inr (Or.inr ⟨?_, ?_, ?_, hop⟩)))
  · have hspace : c.toNat ≠ ' '.toNat := fun h ↦ hc (by simp [blankChars, Char.toNat_inj.1 h])
    have : 0x20 ≤ c.toNat := by
      by_contra hlt
      exact hbad ⟨by omega, hc⟩
    have : ' '.toNat = 0x20 := rfl
    omega
  · by_contra hlt
    exact hbad ⟨by omega, hc⟩
  · rintro (h | h)
    · rcases Bool.or_eq_true_iff.1 h with h | h
      · exact hword (Or.inl h)
      · exact hdigit h
    · exact hword (Or.inr h)

theorem isIllegal_of_not_malformed {c : Char} (h : ¬ Malformed c) : isIllegal c = false := by
  rw [← Bool.not_eq_true, isIllegal_iff]
  exact h

theorem moveFirst_of_malformed {c : Char} (h : Malformed c) : moveFirst c = .last .malformed := by
  rw [moveFirst, if_pos (isIllegal_iff.2 h)]

theorem moveFirst_of_word {c : Char} (h : c.isAlpha = true ∨ c = '_') :
    moveFirst c = .shift word := by
  have hcode := toNat_of_opens_word h
  have hlegal := isIllegal_of_not_malformed (c := c) (not_malformed_of_toNat (by omega))
  simp [moveFirst, hlegal, opensWord_iff.2 h]

theorem moveFirst_of_digit {c : Char} (h : c.isDigit = true) : moveFirst c = .shift integer := by
  have hcode := toNat_of_opens_number (Or.inl h)
  have hlegal := isIllegal_of_not_malformed (c := c) (not_malformed_of_toNat (by omega))
  have hword : opensWord c = false := by
    rw [← Bool.not_eq_true, opensWord_iff]
    intro hw
    have := toNat_of_opens_word hw
    omega
  simp [moveFirst, hlegal, hword, h]

theorem moveFirst_of_symbol {c : Char} (h : c ∈ symbols) : moveFirst c = .shift symbol := by
  revert h c
  decide

theorem moveFirst_of_punctuation {c : Char} (h : Punctuation c) :
    moveFirst c = .last .punctuation := by
  obtain ⟨hlow, hhigh, hword, hop⟩ := h
  have hlegal := isIllegal_of_not_malformed (c := c) (not_malformed_of_toNat (by omega))
  have hfirst : opensWord c = false := by
    rw [← Bool.not_eq_true]
    exact fun h ↦ hword (continuesWord_iff.1 (continuesWord_of_opensWord h))
  have hdigit : c.isDigit = false := by
    rw [← Bool.not_eq_true]
    exact fun h ↦ hword (wordChar_of_isDigit h)
  simp only [operatorChars, List.mem_cons, List.not_mem_nil, or_false, not_or] at hop
  simp [moveFirst, hlegal, hfirst, hdigit, hop, symbols]

end Phase

namespace Recognizer

/-- **The recognizer does what its phase says**: it moves over the text that is taken, appends it to
the lexeme, and ends with the category that was decided on. Which character it looked at last is
left open. -/
theorem settle_eq {r : Recognizer} {p : Phase} (h : r.state = .scanning p) :
    ∃ current, settle r.cursor.rest r =
      { r with
        cursor :=
          ⟨r.cursor.position.advanceOver (p.taken r.cursor.rest),
            r.cursor.rest.drop (p.taken r.cursor.rest).length⟩
        state := .done
        current
        lexeme := r.lexeme ++ String.ofList (p.taken r.cursor.rest)
        category := some (p.verdict r.lexeme r.cursor.rest) } := by
  generalize hr : r.cursor.rest = rest
  induction rest generalizing r p with
  | nil =>
    refine ⟨none, ?_⟩
    simp only [settle, h]
    rw [step_of_nil hr, show r.cursor = ⟨r.cursor.position, []⟩ by rw [← hr]]
    simp
  | cons c rest ih =>
    simp only [settle, h]
    rcases hm : p.move c rest.head? with q | k | _
    · -- one character is taken, and the recognizer settles from the phase behind it
      rw [step_of_shift hr hm]
      obtain ⟨current, hsettle⟩ := ih (r := { r with
        cursor := ⟨r.cursor.position.advance c, rest⟩
        current := some c
        lexeme := r.lexeme.push c
        state := .scanning q }) rfl rfl
      refine ⟨current, ?_⟩
      have hpush (cs : List Char) :
          r.lexeme.push c ++ String.ofList cs = r.lexeme ++ String.ofList (c :: cs) := by
        simp [← String.toList_inj]
      rw [hsettle, Phase.taken_of_shift hm, Phase.verdict_of_shift hm, ← hpush]
      rfl
    · refine ⟨some c, ?_⟩
      rw [step_of_last hr hm, settle_of_done rfl, Phase.taken_of_last hm, Phase.verdict_of_last hm]
      simp
    · refine ⟨some c, ?_⟩
      rw [step_of_stop hr hm, settle_of_done rfl, Phase.taken_of_stop hm, Phase.verdict_of_stop hm,
        show r.cursor = ⟨r.cursor.position, c :: rest⟩ by rw [← hr]]
      simp

end Recognizer

end TokenScan
