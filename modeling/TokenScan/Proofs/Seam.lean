import TokenScan.Proofs.Session.Scan

/-!
# Texts put side by side

What happens at the seam when one text is put behind another. A character *separates* if no lexeme
goes on with it and no slash before it makes it part of a delimiter. Blanks and slashes separate, so
every gap does that is not empty, and so do all characters that no lexeme of the language can hold.

A text whose first character separates changes nothing before it: lexemes stay the longest
(`Longest.append`), and where no gap started none starts now (`Settled.append`). So scanning two
such texts side by side is scanning one and then the other (`Scan.append`), as long as no comment of
the first text is left open to swallow the second.
-/

namespace TokenScan

open Grammar

namespace Grammar

/-- **A character that separates**: no lexeme goes on with it, and it completes no opening
delimiter. -/
def Separates (c : Char) : Prop := ¬ Continues c ∧ c ≠ '*'

/-- A gap that is not empty starts with a character that separates. -/
theorem separates_of_mem_gap {g : List Char} (hg : g ∈ gap) : ∀ d ∈ g.head?, Separates d := by
  intro d hd
  have hmem := mem_head_of_gap hg d hd
  refine ⟨fun hc ↦ ?_, ?_⟩
  · exact not_blank_or_delimiter_of_continues hc (List.mem_cons_of_mem _ hmem)
  · rintro rfl
    exact absurd hmem (by decide)

end Grammar

section Append

variable {text rest : List Char}

/-- **The longest lexeme stays the longest** when a text is put behind that separates. -/
theorem Longest.append {w : List Char} {k : Category} (h : Longest text w k)
    (hrest : ∀ d ∈ rest.head?, Separates d) : Longest (text ++ rest) w k := by
  refine ⟨h.isPrefix.trans (List.prefix_append text rest), h.mem, fun v hv hlexeme ↦ ?_⟩
  rcases Nat.le_total v.length text.length with hle | hle
  · exact h.longest v (List.prefix_of_prefix_length_le hv (List.prefix_append text rest) hle)
      hlexeme
  · -- a lexeme that reaches over the seam would go on with the character that separates
    obtain ⟨u, rfl⟩ := List.prefix_of_prefix_length_le (List.prefix_append text rest) hv hle
    cases u with
    | nil => exact h.longest _ (by simp) hlexeme
    | cons d u =>
      obtain ⟨_, hbehind⟩ := (List.prefix_append_right_inj text).1 hv
      obtain ⟨c, x, hw, -⟩ := chars_of_mem_language h.mem
      obtain ⟨y, rfl⟩ := h.isPrefix
      obtain ⟨l, hl⟩ := hlexeme
      obtain ⟨_, _, he, -, hcontinues⟩ := chars_of_mem_language hl
      rw [hw] at he
      obtain ⟨-, rfl⟩ := List.cons.inj he
      exact absurd (hcontinues d (by simp)) (hrest d (by simp [← hbehind])).1

/-- **No gap starts** where none did when a text is put behind that separates. -/
theorem Grammar.Settled.append (h : Settled text) (hne : text ≠ [])
    (hrest : ∀ d ∈ rest.head?, Separates d) : Settled (text ++ rest) := by
  obtain ⟨c, u, rfl⟩ := List.exists_cons_of_ne_nil hne
  refine ⟨fun d hd ↦ h.1 d hd, fun hopen ↦ ?_⟩
  obtain ⟨rfl, hstar⟩ := List.cons_prefix_cons.1 hopen
  cases u with
  | nil =>
    -- only a star behind the seam could complete the delimiter
    obtain ⟨body, rfl⟩ := hstar
    exact (hrest '*' rfl).2 rfl
  | cons d u =>
    obtain ⟨rfl, -⟩ := List.cons_prefix_cons.1 hstar
    exact h.2 (by simp [opener])

end Append

/-- **Two texts side by side are scanned one after the other**, if the first leaves no comment open
and the second separates. -/
theorem Scan.append {origin : Json} {p : Position} {text behind : List Char} {ts us : List Token}
    {opened : Option Position} (h : Scan origin p text ts none)
    (hseparates : ∀ d ∈ behind.head?, Separates d)
    (hbehind : Scan origin (p.advanceOver text) behind us opened) :
    Scan origin p (text ++ behind) (ts ++ us) opened := by
  generalize hclosed : (none : Option Position) = closed at h
  induction h with
  | done hg => exact hbehind.gap_append hg
  | unclosed => exact absurd hclosed (by simp)
  | @token p g w rest k ts closed hg hs hw _ ih =>
    have hne : w ++ rest ≠ [] :=
      List.append_ne_nil_of_left_ne_nil (ne_nil_of_mem_lexeme ⟨k, hw.mem⟩) rest
    have hsettled : Settled (w ++ (rest ++ behind)) := by
      rw [← List.append_assoc]
      exact hs.append hne hseparates
    have hlongest : Longest (w ++ (rest ++ behind)) w k := by
      rw [← List.append_assoc]
      exact hw.append hseparates
    rw [← List.append_assoc g, Position.advanceOver_append] at hbehind
    rw [List.append_assoc, List.append_assoc]
    exact .token hg hsettled hlongest (ih hbehind hclosed)

end TokenScan
