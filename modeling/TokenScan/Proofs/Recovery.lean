import TokenScan.Proofs.Moving
import TokenScan.Proofs.Seam

/-!
# A malformed character disturbs nothing around it

A character outside the language becomes a token of its own, and that is all it does: the text before
it is scanned as if it ended there, and the text behind it as if it started there
(`tokenize_append_malformed`). The one condition is that the text before leaves no comment open, in
which the character would be a character like any other.

Such a character is a boundary on both of its sides. To what stands before it, it separates: no
lexeme goes on with it and it completes no delimiter (`separates_of_malformed`). To what follows, it
leaves nothing to build on: no lexeme that starts with it has a second character
(`longest_malformed`). So no text at all is needed around it, where two other lexemes may have to be
kept apart by a gap.
-/

namespace TokenScan

open Grammar

namespace Grammar

variable {c : Char}

/-- What continues a lexeme is printable. -/
theorem toNat_of_continues (h : Continues c) : 0x20 ≤ c.toNat ∧ c.toNat ≤ 0x7E := by
  have hothers : ∀ x ∈ ['_', '.', '+', '-', '='], 0x20 ≤ x.toNat ∧ x.toNat ≤ 0x7E := by decide
  rcases h with (h | rfl) | h
  · rw [Char.isAlphanum, Bool.or_eq_true] at h
    rcases h with h | h
    · rw [isAlpha_iff_toNat] at h
      omega
    · rw [isDigit_iff_toNat] at h
      omega
  · exact hothers '_' (by simp)
  · exact hothers c (List.mem_cons_of_mem _ h)

/-- **A malformed character separates.** -/
theorem separates_of_malformed (hc : Malformed c) : Separates c := by
  refine ⟨fun h ↦ not_malformed_of_toNat (toNat_of_continues h) hc, ?_⟩
  rintro rfl
  exact absurd hc (by decide)

/-- No gap starts with a malformed character. -/
theorem settled_malformed (hc : Malformed c) (rest : List Char) : Settled (c :: rest) := by
  refine ⟨?_, ?_⟩
  · intro d hd
    obtain rfl : c = d := Option.some.inj hd
    exact hc.2
  · intro hopen
    obtain ⟨rfl, -⟩ := List.cons_prefix_cons.1 hopen
    exact absurd hc (by decide)

end Grammar

/-- **A malformed character is a whole lexeme**, whatever follows it. -/
theorem longest_malformed {c : Char} (hc : Malformed c) (rest : List Char) :
    Longest (c :: rest) [c] .malformed := by
  refine ⟨⟨rest, rfl⟩, ⟨c, hc, rfl⟩, ?_⟩
  rintro v hv ⟨k, hk⟩
  obtain ⟨d, u, rfl, -⟩ := chars_of_mem_language hk
  obtain ⟨rfl, -⟩ := List.cons_prefix_cons.1 hv
  -- the first character shows the category, and lexemes of that category have no second one
  have hshown := shown_of_mem_language hk
  rw [shown, if_pos hc] at hshown
  subst hshown
  obtain ⟨x, -, hx⟩ := hk
  rw [hx, List.length_singleton, List.length_singleton]

/-- A malformed character is the first token of its text, and scanning goes on right behind it. -/
theorem Scan.malformed_cons {origin : Json} {p : Position} {c : Char} {rest : List Char}
    {ts : List Token} {opened : Option Position} (hc : Malformed c)
    (h : Scan origin (p.advance c) rest ts opened) :
    Scan origin p (c :: rest) (.ofLexeme origin p [c] .malformed :: ts) opened :=
  .token (g := []) (w := [c]) nil_mem_gap (settled_malformed hc rest) (longest_malformed hc rest) h

/-- The token of a malformed character at an offset of a text. Its line and column are read off the
text. -/
def Token.malformedAt (text : List Char) (n : ℕ) (c : Char) (origin : Json) : Token where
  lexeme := String.singleton c
  category := .malformed
  line := lineAt text n
  column := columnAt text n
  offset := n
  endOffset := n + 1
  origin

/-- The token of a lexeme of one malformed character lies where the text before it ends. -/
theorem Token.ofLexeme_malformed (origin : Json) (before rest : List Char) (c : Char) :
    ofLexeme origin (.after before) [c] .malformed =
      malformedAt (before ++ c :: rest) before.length c origin := by
  have hagrees := Position.agrees_after before (c :: rest)
  simp only [ofLexeme, malformedAt, hagrees.line_eq, hagrees.column_eq, Position.offset_after,
    String.singleton_eq_ofList, List.length_singleton]
  rfl

/-- **Error recovery is local.** If a session over a first text records no open comment, then a
malformed character behind it and a second text behind that give the tokens of the first text, one
malformed token, and the moved tokens of the second text, with its record moved as well. So all other
lexemes and categories are those of the two texts alone. -/
theorem tokenize_append_malformed (first second : String) (c : Char) (origin : Option String)
    (config : Config) (hc : Malformed c)
    (hclosed : (Session.ofSource first origin config).drain.2.openComment = none) :
    tokenize (first ++ String.singleton c ++ second) origin config =
        tokenize first origin config ++
          .malformedAt (first ++ String.singleton c ++ second).toList first.length c
              (Session.ofSource first origin config).originValue ::
            (tokenize second origin config).map (Token.moved (first.toList ++ [c])) ∧
      (Session.ofSource (first ++ String.singleton c ++ second) origin
          config).drain.2.openComment =
        (Session.ofSource second origin config).drain.2.openComment.map
          (Location.moved (first.toList ++ [c])) ∧
      (tokenize (first ++ String.singleton c ++ second) origin config).map Token.pair =
        (tokenize first origin config).map Token.pair ++
          (String.singleton c, .malformed) :: (tokenize second origin config).map Token.pair := by
  obtain ⟨opened₁, h₁, hrecord₁⟩ := scan_ofSource first origin config
  obtain ⟨opened₂, h₂, hrecord₂⟩ := scan_ofSource second origin config
  rw [hrecord₁, Session.recordOf, Option.map_eq_none_iff] at hclosed
  subst hclosed
  have hmoved := h₂.moved (Nat.le_refl 1) (first.toList ++ [c])
  rw [Position.moved_start, Position.after_concat] at hmoved
  have hseparates : ∀ d ∈ (c :: second.toList).head?, Separates d := by
    intro d hd
    obtain rfl : c = d := Option.some.inj hd
    exact separates_of_malformed hc
  have htext : (first ++ String.singleton c ++ second).toList =
      first.toList ++ c :: second.toList := by
    simp
  have hwhole := h₁.append hseparates (hmoved.malformed_cons hc)
  -- a session holds the same name for all texts, and the character stands where the first one ends
  change Scan (Session.ofSource (first ++ String.singleton c ++ second) origin config).originValue
    _ _ (_ ++ .ofLexeme _ (.after first.toList) [c] .malformed :: _) _ at hwhole
  rw [Token.ofLexeme_malformed _ _ second.toList, ← htext, String.length_toList] at hwhole
  obtain ⟨htokens, hrecord⟩ := Session.drain_ofSource_of_scan hwhole
  have htokens : tokenize (first ++ String.singleton c ++ second) origin config = _ := htokens
  refine ⟨htokens, ?_, ?_⟩
  · rw [hrecord, hrecord₂]
    simp only [Session.recordOf, Option.map_map]
    exact congrArg (opened₂.map ·) (funext fun p ↦ Location.ofPosition_moved _ _ p)
  · -- moving a token changes neither its lexeme nor its category
    rw [htokens, List.map_append, List.map_cons, List.map_map]
    rfl

/-- Between a sign and its digits, and behind a line feed, a malformed character splits what would
have been one number. -/
theorem tokenize_append_malformed_sign :
    Malformed 'é' ∧ (Session.ofSource "a\n-" none .default).drain.2.openComment = none ∧
      tokenize "a\n-é.5/" none .default =
        [⟨"a", .identifier, 1, 1, 0, 1, .null⟩, ⟨"-", .operator, 2, 1, 2, 3, .null⟩,
          ⟨"é", .malformed, 2, 2, 3, 4, .null⟩, ⟨".5", .number, 2, 3, 4, 6, .null⟩,
          ⟨"/", .operator, 2, 5, 6, 7, .null⟩] := by
  have hc : Malformed 'é' := by decide
  have hclosed : (Session.ofSource "a\n-" none .default).drain.2.openComment = none := rfl
  have h := tokenize_append_malformed "a\n-" ".5/" 'é' none .default hc hclosed
  exact ⟨hc, hclosed, h.1.trans rfl⟩

end TokenScan
