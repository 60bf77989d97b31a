import TokenScan.Proofs.Session.Scan

/-!
# Scans cut at a token

A scan can be cut at any of its tokens. What stands before the token is a scan of the text before
it, and what stands behind the token is a scan of the text behind it, at the place where that text
starts (`Scan.around`). Nothing has to be known about the seam: a text that is cut off starts no gap
and makes no lexeme that the longer text does not (`Settled.of_append`, `Longest.of_append`). This
is the opposite of putting texts side by side, where something new can arise.

A text has one scan only (`Scan.unique`), so what is left after a cut is *the* scan of what is left
of the text. The tokens of a scan lie within its text (`Scan.bounds_of_mem`), and with both halves
of a cut being scans this also says that tokens come in order.
-/

namespace TokenScan

open Grammar

section Shorter

variable {text behind : List Char}

/-- A text starts no gap if it starts none with more text behind it. -/
theorem Grammar.Settled.of_append (h : Settled (text ++ behind)) : Settled text := by
  refine ⟨fun c hc ↦ h.1 c ?_, fun hopen ↦ h.2 (hopen.trans (List.prefix_append text behind))⟩
  rw [List.head?_append, hc, Option.some_or]

/-- The longest lexeme stays the longest in every part of the text that still holds it. -/
theorem Longest.of_append {w : List Char} {k : Category} (h : Longest (text ++ behind) w k)
    (hw : w <+: text) : Longest text w k :=
  ⟨hw, h.mem, fun v hv ↦ h.longest v (hv.trans (List.prefix_append text behind))⟩

end Shorter

variable {origin : Json} {p : Position} {text : List Char} {ts : List Token}
  {opened : Option Position}

/-! ### One scan for each text -/

/-- **A scan starts where skipping ends.** Either nothing is unread there, and the scan has no token
and the comment that skipping reports; or the longest lexeme there is its first token. -/
theorem Scan.start_of_skipFrom {skipped : Skipped} (h : Scan origin p text ts opened)
    (hskip : skipFrom none p text = skipped) :
    (skipped.cursor.rest = [] ∧ ts = [] ∧ opened = skipped.openedAt) ∨
      ∃ w rest k us, skipped.cursor.rest = w ++ rest ∧ Longest (w ++ rest) w k ∧
        ts = .ofLexeme origin skipped.cursor.position w k :: us ∧
          Scan origin (skipped.cursor.position.advanceOver w) rest us opened := by
  subst hskip
  cases h with
  | done hg =>
    rw [skipFrom_of_gap hg]
    exact Or.inl ⟨rfl, rfl, rfl⟩
  | unclosed hg hr =>
    rw [skipFrom_gap_append hg, skipFrom_of_openComment hr]
    exact Or.inl ⟨rfl, rfl, rfl⟩
  | @token _ g w rest k us _ hg hs hw h =>
    rw [Position.advanceOver_append] at h
    rw [skipFrom_gap_append hg, skipFrom_of_settled hs]
    exact Or.inr ⟨w, rest, k, us, rfl, hw, rfl, h⟩

/-- **A text has one scan.** Skipping finds the one place where all of them start, and there is one
longest lexeme there. -/
theorem Scan.unique {us : List Token} {opened' : Option Position}
    (h : Scan origin p text ts opened) (h' : Scan origin p text us opened') :
    ts = us ∧ opened = opened' := by
  induction h generalizing us opened' with
  | @done p g hg =>
    obtain ⟨-, rfl, rfl⟩ | ⟨w, rest, k, us, hrest, hw, -⟩ :=
      h'.start_of_skipFrom (skipFrom_of_gap hg)
    · exact ⟨rfl, rfl⟩
    · exact absurd (List.append_eq_nil_iff.1 hrest.symm).1 (ne_nil_of_mem_lexeme ⟨k, hw.mem⟩)
  | @unclosed p g r hg hr =>
    have hskip := (skipFrom_gap_append (p := p) hg).trans (skipFrom_of_openComment hr)
    obtain ⟨-, rfl, rfl⟩ | ⟨w, rest, k, us, hrest, hw, -⟩ := h'.start_of_skipFrom hskip
    · exact ⟨rfl, rfl⟩
    · exact absurd (List.append_eq_nil_iff.1 hrest.symm).1 (ne_nil_of_mem_lexeme ⟨k, hw.mem⟩)
  | @token p g w rest k ts opened hg hs hw _ ih =>
    have hskip := (skipFrom_gap_append (p := p) hg).trans (skipFrom_of_settled hs)
    obtain ⟨hrest, -⟩ | ⟨w', rest', k', us, hrest, hw', rfl, h'⟩ := h'.start_of_skipFrom hskip
    · exact absurd (List.append_eq_nil_iff.1 hrest).1 (ne_nil_of_mem_lexeme ⟨k, hw.mem⟩)
    · have hrest : w ++ rest = w' ++ rest' := hrest
      rw [← hrest] at hw'
      obtain ⟨rfl, rfl⟩ := hw.unique hw'
      obtain rfl : rest = rest' := List.append_cancel_left hrest
      rw [← Position.advanceOver_append] at h'
      obtain ⟨rfl, rfl⟩ := ih h'
      exact ⟨rfl, rfl⟩

/-- The scan of a list of characters is what a session over that text gives. A session holds the
same name for all texts, so the scan may have been found in another one. -/
theorem Session.drain_ofList_of_scan {source : String} {origin : Option String} {config : Config}
    {cs : List Char} (h : Scan (ofSource source origin config).originValue .start cs ts opened) :
    (ofSource (String.ofList cs) origin config).drain.1 = ts ∧
      (ofSource (String.ofList cs) origin config).drain.2.openComment =
        recordOf (ofSource source origin config).originValue opened := by
  rw [← String.toList_ofList (l := cs)] at h
  exact drain_ofSource_of_scan h

/-! ### Where tokens lie -/

/-- **A token lies within the text of its scan**, and is not empty. -/
theorem Scan.bounds_of_mem (h : Scan origin p text ts opened) {t : Token} (ht : t ∈ ts) :
    (p.offset : ℤ) ≤ t.offset ∧ t.offset < t.endOffset ∧
      t.endOffset ≤ p.offset + text.length := by
  obtain ⟨before, w, rest, k, rfl, hw, rfl⟩ := h.exists_of_mem ht
  have hpos := List.length_pos_iff.2 (ne_nil_of_mem_lexeme ⟨k, hw.mem⟩)
  simp only [Token.ofLexeme, Position.offset_advanceOver, List.length_append]
  omega

/-! ### Cutting -/

/-- A token stays the first one when the text behind it is cut. -/
theorem Scan.token_of_append {g w part cut : List Char} {k : Category} (hg : g ∈ gap)
    (hs : Settled (w ++ (part ++ cut))) (hw : Longest (w ++ (part ++ cut)) w k)
    (h : Scan origin (p.advanceOver (g ++ w)) part ts opened) :
    Scan origin p (g ++ (w ++ part)) (.ofLexeme origin (p.advanceOver g) w k :: ts) opened := by
  rw [← List.append_assoc] at hs hw
  exact .token hg hs.of_append (hw.of_append (List.prefix_append w part)) h

/-- **A scan around one of its tokens.** The token stands between a text that the tokens before it
are the scan of, and a text that the tokens behind it are the scan of; and the text up to its end
has no tokens but those up to it. -/
theorem Scan.around {before us : List Token} {x : Token}
    (h : Scan origin p text (before ++ x :: us) opened) :
    ∃ read w rest k, text = read ++ (w ++ rest) ∧
      x = .ofLexeme origin (p.advanceOver read) w k ∧
      Scan origin p read before none ∧ Scan origin p (read ++ w) (before ++ [x]) none ∧
      Scan origin (p.advanceOver read) (w ++ rest) (x :: us) opened ∧
      Scan origin (p.advanceOver (read ++ w)) rest us opened := by
  generalize hts : before ++ x :: us = ts at h
  induction h generalizing before with
  | done | unclosed => exact absurd hts (by simp)
  | @token p g w rest k ts opened hg hs hw hrest ih =>
    cases before with
    | nil =>
      obtain ⟨rfl, rfl⟩ := List.cons.inj hts
      have halone : Scan origin p (g ++ (w ++ []))
          [.ofLexeme origin (p.advanceOver g) w k] none :=
        .token_of_append hg hs hw (.done nil_mem_gap)
      rw [List.append_nil] at halone
      refine ⟨g, w, rest, k, rfl, rfl, .done hg, halone, .token nil_mem_gap hs hw ?_, hrest⟩
      rwa [List.nil_append, ← Position.advanceOver_append]
    | cons y before =>
      obtain ⟨rfl, htail⟩ := List.cons.inj hts
      obtain ⟨read, v, behind, l, rfl, rfl, hread, hupto, hfrom, hbehind⟩ := ih htail
      have hbefore := Scan.token_of_append hg hs hw hread
      rw [← List.append_assoc read] at hs hw
      have hwith := Scan.token_of_append hg hs hw hupto
      rw [← Position.advanceOver_append, List.append_assoc] at hwith hfrom hbehind
      rw [← Position.advanceOver_append, List.append_assoc]
      refine ⟨g ++ (w ++ read), v, behind, l, ?_, rfl, hbefore, ?_, hfrom, ?_⟩
      · simp
      · simpa using hwith
      · simpa using hbehind

end TokenScan
