import TokenScan.Proofs.Seam

/-!
# Scanning undoes printing

A list of lexemes is printed with gaps around them: one before the first, and one behind each, which
may be empty only behind the last. Scanning such a text gives the lexemes back, each with the
category of its language, and no comment is left open (`tokenize_printed`).

What has to be seen is that printing never builds anything new at a seam. A lexeme alone is the
longest one of its own text and starts no gap (`longest_of_mem_language`,
`settled_of_mem_language`), and a gap behind it separates; so no lexeme reaches into the gap, and
none turns into part of a delimiter. With that the printed text has the scan that its pieces
describe (`scan_printed`).
-/

namespace TokenScan

open Grammar

/-! ### Lexemes alone -/

/-- A lexeme is the longest one of its own text. -/
theorem longest_of_mem_language {w : List Char} {k : Category} (hw : w ∈ k.language) :
    Longest w w k := ⟨List.prefix_refl w, hw, fun _ hv _ ↦ hv.length_le⟩

/-- **A lexeme starts no gap.** -/
theorem settled_of_mem_language {w : List Char} {k : Category} (hw : w ∈ k.language) :
    Settled w := by
  obtain ⟨c, u, rfl, hc, hu⟩ := chars_of_mem_language hw
  refine ⟨?_, fun hopen ↦ ?_⟩
  · rintro d hd
    obtain rfl : c = d := Option.some.inj hd
    exact not_blank_of_opens hc
  · -- a lexeme holds no star behind its first character
    obtain ⟨-, hstar⟩ := List.cons_prefix_cons.1 hopen
    have hmem : '*' ∈ u := hstar.subset List.mem_cons_self
    exact not_blank_or_delimiter_of_continues (hu '*' hmem) List.mem_cons_self

/-! ### Printed texts -/

/-- **A lexeme to be printed**, with its category and the gap behind it. -/
structure Piece where
  /-- The lexeme. -/
  lexeme : List Char
  /-- The category in whose language it is. -/
  category : Category
  /-- The text between it and what is printed next. -/
  gap : List Char
  /-- The lexeme is one of the category. -/
  lexeme_mem : lexeme ∈ category.language
  /-- What is printed behind it is a gap. -/
  gap_mem : gap ∈ Grammar.gap

namespace Piece

/-- Lexeme and category of a piece, as a token shows them. -/
def pair (x : Piece) : String × Category := (String.ofList x.lexeme, x.category)

/-- The text of the pieces. -/
def printed (pieces : List Piece) : List Char := pieces.flatMap fun x ↦ x.lexeme ++ x.gap

/-- The text behind a lexeme separates. -/
theorem separates_behind {x : Piece} {pieces : List Piece} (h : x.gap ≠ [] ∨ pieces = []) :
    ∀ d ∈ (x.gap ++ printed pieces).head?, Separates d := by
  intro d hd
  refine separates_of_mem_gap x.gap_mem d ?_
  rcases h with hne | rfl
  · rwa [List.head?_append_of_ne_nil _ hne] at hd
  · rwa [printed, List.flatMap_nil, List.append_nil] at hd

/-- **The scan of a printed text**: one token for each piece, and no comment left open. -/
theorem scan_printed (origin : Json) (p : Position) {pieces : List Piece}
    (h : ∀ x ∈ pieces.dropLast, x.gap ≠ []) :
    ∃ ts, Scan origin p (printed pieces) ts none ∧ ts.map Token.pair = pieces.map pair := by
  induction pieces generalizing p with
  | nil => exact ⟨[], .done nil_mem_gap, rfl⟩
  | cons x pieces ih =>
    have hbehind : x.gap ≠ [] ∨ pieces = [] := by
      cases pieces with
      | nil => exact Or.inr rfl
      | cons y pieces => exact Or.inl (h x (by simp))
    have htail : ∀ y ∈ pieces.dropLast, y.gap ≠ [] := by
      intro y hy
      cases pieces with
      | nil => exact absurd hy List.not_mem_nil
      | cons z pieces => exact h y (by simp [hy])
    obtain ⟨ts, hscan, hpairs⟩ := ih ((p.advanceOver x.lexeme).advanceOver x.gap) htail
    have hseparates := separates_behind hbehind
    have hne := ne_nil_of_mem_lexeme ⟨_, x.lexeme_mem⟩
    refine ⟨.ofLexeme origin p x.lexeme x.category :: ts, ?_, ?_⟩
    · rw [printed, List.flatMap_cons, List.append_assoc]
      exact .token nil_mem_gap ((settled_of_mem_language x.lexeme_mem).append hne hseparates)
        ((longest_of_mem_language x.lexeme_mem).append hseparates) (hscan.gap_append x.gap_mem)
    · rw [List.map_cons, hpairs]
      rfl

end Piece

/-- **Scanning undoes printing.** Any lexemes, printed with a gap before the first, gaps that are
not empty between them and a gap behind the last, are scanned back one by one, each with the
category of its language, and the session records no open comment. -/
theorem tokenize_printed (before : List Char) (pieces : List Piece) (origin : Option String)
    (config : Config) (hbefore : before ∈ gap) (hgaps : ∀ x ∈ pieces.dropLast, x.gap ≠ []) :
    (tokenize (String.ofList (before ++ Piece.printed pieces)) origin config).map Token.pair =
        pieces.map Piece.pair ∧
      (Session.ofSource (String.ofList (before ++ Piece.printed pieces)) origin
        config).drain.2.openComment = none := by
  set source := String.ofList (before ++ Piece.printed pieces) with hsource
  obtain ⟨ts, hscan, hpairs⟩ := Piece.scan_printed
    (Session.ofSource source origin config).originValue (Position.start.advanceOver before) hgaps
  have h := hscan.gap_append hbefore
  rw [← String.toList_ofList (l := before ++ Piece.printed pieces), ← hsource] at h
  obtain ⟨hts, hopen⟩ := Session.drain_ofSource_of_scan h
  rw [tokenize, hts, hopen]
  exact ⟨hpairs, rfl⟩

/-- Slashes and stars against comments, and a number that needs two characters of lookahead. -/
theorem tokenize_printed_slashes :
    (∀ x ∈ [[' '], "/*c*/".toList, "/**/".toList, ['\t']], x ∈ gap ∧ x ≠ []) ∧
      (tokenize " //*c*/*/**/-.5\té" none .default).map Token.pair =
        [("/", .operator), ("*", .operator), ("-.5", .number), ("é", .malformed)] ∧
      (Session.ofSource " //*c*/*/**/-.5\té" none .default).drain.2.openComment = none := by
  have hspace : [' '] ∈ gap := blank_mem_gap (by decide)
  have htab : ['\t'] ∈ gap := blank_mem_gap (by decide)
  have hcomment : opener ++ (['c'] ++ closer) ∈ gap := comment_mem_gap (by decide)
  have hempty : opener ++ ([] ++ closer) ∈ gap := comment_mem_gap (by decide)
  have hfive : ['5'] ∈ numeral := mem_numeral.2 ⟨'5', [], rfl, rfl, by simp⟩
  have hnumber : "-.5".toList ∈ number := mem_number.2 <| Or.inr
    ⟨'-', ['.', '5'], Or.inr rfl, mem_unsigned.2 (Or.inr (Or.inr ⟨['5'], hfive, rfl⟩)), rfl⟩
  have hletter : Malformed 'é' := by decide
  have h := tokenize_printed [' ']
    [⟨['/'], .operator, "/*c*/".toList, show "/" ∈ operators by decide, hcomment⟩,
      ⟨['*'], .operator, "/**/".toList, show "*" ∈ operators by decide, hempty⟩,
      ⟨"-.5".toList, .number, ['\t'], hnumber, htab⟩,
      ⟨['é'], .malformed, [], ⟨'é', hletter, rfl⟩, nil_mem_gap⟩]
    none .default hspace (by simp)
  refine ⟨by simpa [hspace, htab] using ⟨hcomment, hempty⟩, ?_⟩
  simpa [Piece.printed, Piece.pair] using h

end TokenScan
