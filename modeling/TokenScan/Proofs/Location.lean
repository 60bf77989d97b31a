import TokenScan.Proofs.Session.Pull
import TokenScan.Proofs.Session.Scan

/-!
# Locations agree with the text

Lines and columns are kept up to date character by character, through gaps, comments and lexemes;
the end of a token is computed from the length of its lexeme alone. Both agree with what the text
says (`coordinates_agree`): the line of an offset counts the line feeds before it, and its column is
the distance from the last of them.

The first half holds at every moment of a session and needs nothing but the rule that the cursor
moves by characters. The second needs that a lexeme holds no line feed, which is a fact about the
grammar: no character of a lexeme is a blank.
-/

namespace TokenScan

open Grammar

/-- A lexeme holds no line feed. -/
theorem not_mem_of_mem_language {w : List Char} {k : Category} (hw : w ∈ k.language) :
    '\n' ∉ w := by
  obtain ⟨c, u, rfl, hc, hu⟩ := chars_of_mem_language hw
  intro hmem
  rcases List.mem_cons.1 hmem with rfl | hmem
  · exact not_blank_of_opens hc (by decide)
  · exact not_blank_or_delimiter_of_continues (hu '\n' hmem) (by decide)

/-- **The coordinates of a token of a scan** are those of the offsets where its lexeme starts and
ends, if the scan starts at the position that the text before it leads to. -/
theorem Scan.agrees_of_mem {origin : Json} {before text : List Char} {ts : List Token}
    {opened : Option Position} (h : Scan origin (.after before) text ts opened) {t : Token}
    (ht : t ∈ ts) :
    ∃ p q : Position, p.Agrees (before ++ text) ∧ q.Agrees (before ++ text) ∧
      t.offset = p.offset ∧ t.line = p.line ∧ t.column = p.column ∧
        t.endOffset = q.offset ∧ t.location.endLine = some (q.line : ℤ) ∧
          t.location.endColumn = some (q.column : ℤ) := by
  obtain ⟨read, w, rest, k, rfl, hw, rfl⟩ := h.exists_of_mem ht
  have hstart := Position.agrees_after (before ++ read) (w ++ rest)
  have hend := Position.agrees_after (before ++ (read ++ w)) rest
  rw [List.append_assoc, Position.after_append] at hstart hend
  rw [List.append_assoc] at hend
  refine ⟨_, _, hstart, hend, rfl, rfl, rfl, ?_⟩
  -- the lexeme stays in its line, so its length is all that its end takes
  rw [Position.advanceOver_append, Position.advanceOver_of_not_mem (not_mem_of_mem_language hw.mem)]
  simp [Token.ofLexeme, Token.location]

/-- **Locations agree with the text.** The line and column of every token are those of the offset
where it starts, and the end line and end column of its location are those of the offset behind it.
At every moment of a session, between any two characters that it reads, the cursor lies in the
source and its line and column are those of its offset; the sessions that a consumer sees between
requests are among these moments. -/
theorem coordinates_agree (source : String) (origin : Option String) (config : Config) :
    (∀ t ∈ tokenize source origin config, ∃ a b : ℕ, t.offset = a ∧ t.endOffset = b ∧
      t.line = lineAt source.toList a ∧ t.column = columnAt source.toList a ∧
        t.location.endLine = some (lineAt source.toList b : ℤ) ∧
          t.location.endColumn = some (columnAt source.toList b)) ∧
      (∀ m, Moment.Reachable source origin config m →
        m.cursor.position.Agrees source.toList) ∧
      ∀ k, ∃ answer, Moment.Reachable source origin config
        ⟨((Session.ofSource source origin config).pull k).2, .idle answer⟩ := by
  refine ⟨fun t ht ↦ ?_, fun m hm ↦ hm.within.agrees, Moment.reachable_pull source origin config⟩
  obtain ⟨opened, h⟩ := scan_tokenize source origin config
  change Scan _ (.after []) _ _ _ at h
  obtain ⟨p, q, hp, hq, hoffset, hline, hcolumn, hendOffset, hendLine, hendColumn⟩ :=
    h.agrees_of_mem ht
  rw [List.nil_append] at hp hq
  refine ⟨p.offset, q.offset, hoffset, hendOffset, ?_, ?_, ?_, ?_⟩
  · rw [hline, hp.line_eq]
  · rw [hcolumn, hp.column_eq]
  · rw [hendLine, hq.line_eq]
  · rw [hendColumn, hq.column_eq]

/-- A tab and a carriage return take one column each, a line feed inside a comment counts, and the
cursor also knows its place between the two characters of a delimiter. -/
theorem coordinates_agree_comment :
    (⟨"ab", .identifier, 2, 3, 7, 9, .null⟩ : Token) ∈ tokenize "\t\r/*\n*/ab" none .default ∧
      lineAt "\t\r/*\n*/ab".toList 7 = 2 ∧ columnAt "\t\r/*\n*/ab".toList 7 = 3 ∧
        columnAt "\t\r/*\n*/ab".toList 9 = 5 ∧
      ∃ m, Moment.Reachable "\t\r/*\n*/ab" none .default m ∧
        m.stage = .gap none (.opening ⟨2, 1, 3⟩) ∧
          m.cursor.position.Agrees "\t\r/*\n*/ab".toList := by
  have hmem : (⟨"ab", .identifier, 2, 3, 7, 9, .null⟩ : Token) ∈
      tokenize "\t\r/*\n*/ab" none .default := List.mem_singleton.2 rfl
  have hreach : Moment.Reachable "\t\r/*\n*/ab" none .default _ :=
    .tail (.tail (.tail (.tail .refl rfl) rfl) rfl) rfl
  obtain ⟨htokens, hmoments, -⟩ := coordinates_agree "\t\r/*\n*/ab" none .default
  obtain ⟨a, b, ha, hb, hline, hcolumn, -, hend⟩ := htokens _ hmem
  obtain rfl : a = 7 := Int.ofNat.inj ha.symm
  obtain rfl : b = 9 := Int.ofNat.inj hb.symm
  exact ⟨hmem, Int.ofNat.inj hline.symm, hcolumn.symm, (Option.some.inj hend).symm, _, hreach, rfl,
    hmoments _ hreach⟩

end TokenScan
