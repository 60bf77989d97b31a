import TokenScan.Proofs.Position
import TokenScan.Proofs.Session.Scan

/-!
# The tokens of a text cover it

Two readings of a scan, both by induction over it.

* Every token is the longest lexeme at its offset, and its category is that of the one language its
  lexeme belongs to (`tokenize_longest_match`).
* The tokens stand in the text one behind the other, each lexeme is the slice between its offsets,
  and what lies before, between and behind them is made of blanks and closed comments, except that a
  comment may be open at the very end (`tokenize_tiles`). So the text can be put together again from
  the lexemes and the gaps.

In both the induction is over the scan of what is left of the text, and what it needs to know of the
text before is only its length: that is the offset of the position at which the scan starts.
-/

namespace TokenScan

open Grammar

section Scans

variable {origin : Json} {p : Position} {text : List Char} {ts : List Token}
  {opened : Option Position}

/-- A token of a scan is the longest lexeme where it starts. -/
theorem Scan.longest_of_mem (h : Scan origin p text ts opened) {t : Token} (ht : t ∈ ts) :
    ∃ n : ℕ, t.offset = p.offset + n ∧ Longest (text.drop n) t.lexeme.toList t.category := by
  obtain ⟨before, w, rest, k, rfl, hw, rfl⟩ := h.exists_of_mem ht
  refine ⟨before.length, by simp [Token.ofLexeme], ?_⟩
  rw [List.drop_left]
  simpa [Token.ofLexeme] using hw

/-- **Longest match.** The languages of the categories have no text in common, and every token of a
source is the longest prefix of the source from its offset on that is a lexeme at all; its category
is the one whose language the lexeme is in. -/
theorem tokenize_longest_match (source : String) (origin : Option String) (config : Config) :
    (∀ (k l : Category) (w : List Char), w ∈ k.language → w ∈ l.language → k = l) ∧
      ∀ t ∈ tokenize source origin config,
        ∃ n : ℕ, t.offset = n ∧ Longest (source.toList.drop n) t.lexeme.toList t.category := by
  refine ⟨fun _ _ _ hk hl ↦ language_unique hk hl, fun t ht ↦ ?_⟩
  obtain ⟨opened, h⟩ := scan_tokenize source origin config
  obtain ⟨n, hn, hlongest⟩ := h.longest_of_mem ht
  exact ⟨n, by simpa [Position.start] using hn, hlongest⟩

/-- The number behind the letter reaches over sign, point and digit, up to the second point. -/
theorem longest_match_signed :
    (⟨"+.5", .number, 1, 2, 1, 4, .null⟩ : Token) ∈ tokenize "a+.5.-/*x*/" none .default ∧
      ∃ n : ℕ, (1 : ℤ) = n ∧ Longest ("a+.5.-/*x*/".toList.drop n) "+.5".toList .number := by
  have hmem : (⟨"+.5", .number, 1, 2, 1, 4, .null⟩ : Token) ∈
      tokenize "a+.5.-/*x*/" none .default := by
    rw [show tokenize "a+.5.-/*x*/" none .default =
      [⟨"a", .identifier, 1, 1, 0, 1, .null⟩, ⟨"+.5", .number, 1, 2, 1, 4, .null⟩,
        ⟨".", .operator, 1, 5, 4, 5, .null⟩, ⟨"-", .operator, 1, 6, 5, 6, .null⟩] from rfl]
    simp
  exact ⟨hmem, (tokenize_longest_match "a+.5.-/*x*/" none .default).2 _ hmem⟩

/-! ### Tilings -/

/-- **Tokens that tile a text from an offset on.** Before each token lies a gap, its lexeme is the
slice between its offsets and is not empty, and the rest of the tokens tile from its end on. Behind
the last token lies a gap, and an open comment at most. -/
def Tiles (text : List Char) : ℕ → List Token → Prop
  | n, [] => text.drop n ∈ gap * (1 + openComment)
  | n, t :: ts =>
    ∃ a b : ℕ, t.offset = a ∧ t.endOffset = b ∧ n ≤ a ∧ a < b ∧ b ≤ text.length ∧
      text.extract n a ∈ gap ∧ t.lexeme.toList = text.extract a b ∧ Tiles text b ts

/-- A scan tiles what is left of a text. -/
theorem Scan.tiles (h : Scan origin p text ts opened) (before : List Char)
    (hp : p.offset = before.length) : Tiles (before ++ text) before.length ts := by
  induction h generalizing before with
  | @done p g hg =>
    rw [Tiles, List.drop_left]
    exact ⟨g, hg, [], Or.inl rfl, List.append_nil g⟩
  | @unclosed p g r hg hr =>
    rw [Tiles, List.drop_left]
    exact Language.append_mem_mul hg (Or.inr hr)
  | @token p g w rest k ts opened hg _ hw _ ih =>
    have hpos : 0 < w.length :=
      List.length_pos_iff.2 (ne_nil_of_mem_lexeme ⟨k, hw.mem⟩)
    -- what is left now starts behind the gap and the lexeme
    have hrest := ih (before ++ (g ++ w)) (by simp [hp])
    have htext : before ++ (g ++ w) ++ rest = before ++ (g ++ (w ++ rest)) := by simp
    rw [htext] at hrest
    refine ⟨before.length + g.length, (before ++ (g ++ w)).length, ?_, ?_, ?_, ?_, ?_, ?_, ?_,
      hrest⟩
    · simp [Token.ofLexeme, hp]
    · simp [Token.ofLexeme, hp]
      omega
    · omega
    · simp only [List.length_append]
      omega
    · simp only [List.length_append]
      omega
    · simpa using hg
    · simp [Token.ofLexeme, ← List.drop_drop, ← Nat.add_assoc]

end Scans

/-- **A tiling puts the text together**: gaps and lexemes in turn, and what lies behind the last
lexeme. -/
theorem Tiles.drop_eq_flatten_append {text : List Char} {ts : List Token} {n : ℕ}
    (h : Tiles text n ts) :
    ∃ (gaps : List (List Char)) (behind : List Char), gaps.length = ts.length ∧
      (∀ g ∈ gaps, g ∈ gap) ∧ behind ∈ gap * (1 + openComment) ∧
        text.drop n =
          (List.zipWith (· ++ ·) gaps (ts.map (·.lexeme.toList))).flatten ++ behind := by
  induction ts generalizing n with
  | nil => exact ⟨[], text.drop n, rfl, by simp, h, rfl⟩
  | cons t ts ih =>
    obtain ⟨a, b, -, -, hna, hab, -, hgap, hlexeme, hrest⟩ := h
    obtain ⟨gaps, behind, hlen, hgaps, hbehind, hdrop⟩ := ih hrest
    refine ⟨text.extract n a :: gaps, behind, by simp [hlen], ?_, hbehind, ?_⟩
    · exact List.forall_mem_cons.2 ⟨hgap, hgaps⟩
    · rw [drop_eq_extract_append hna, drop_eq_extract_append hab.le, hdrop, ← hlexeme]
      simp

/-- **Nothing is lost.** The tokens of a source tile it, and so the source is their lexemes in
order, with gaps before and between them, and a gap and at most an open comment behind the last. -/
theorem tokenize_tiles (source : String) (origin : Option String) (config : Config) :
    Tiles source.toList 0 (tokenize source origin config) ∧
      ∃ (gaps : List (List Char)) (behind : List Char),
        gaps.length = (tokenize source origin config).length ∧ (∀ g ∈ gaps, g ∈ gap) ∧
          behind ∈ gap * (1 + openComment) ∧
            source.toList =
              (List.zipWith (· ++ ·) gaps
                ((tokenize source origin config).map (·.lexeme.toList))).flatten ++ behind := by
  obtain ⟨opened, h⟩ := scan_tokenize source origin config
  have htiles : Tiles source.toList 0 (tokenize source origin config) := h.tiles [] rfl
  exact ⟨htiles, htiles.drop_eq_flatten_append⟩

end TokenScan
