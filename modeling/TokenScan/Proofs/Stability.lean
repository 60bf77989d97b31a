import TokenScan.Proofs.Cutting

/-!
# What appended text leaves alone

Text that is put behind another can change how the end of the first is scanned, and nothing else.
The tokens of the whole that end within the first text are tokens of the first text alone, from the
first one on, and of those at most two are missing at the end (`tokenize_stable`).

## How far a change can reach

A token is lost when a longer lexeme takes its place, or when it turns into part of a delimiter. The
second can only happen to a slash at the very end. As to the first, a longer lexeme reaches over the
seam, so all that was left of the first text is a prefix of it. Lexemes are *almost* closed under
prefixes (`mem_lexeme_of_isPrefix`): what was left is a lexeme itself, and then it was the last
token; or it is a sign and a point before a digit. Those are two tokens, and there is no third case.
Nor is there any other lexeme with a prefix that is none, which is where the bound of two comes
from.

Inside a comment that is open at the end of the first text nothing is lost: whatever is appended,
that comment reaches to the seam at least (`length_le_of_openComment`).

In the other direction, a text that is cut behind one of its tokens has the tokens up to that one.
This needs no bound, since cutting makes no lexeme longer and opens no comment (`Scan.around`).
-/

namespace TokenScan

open Grammar

namespace Grammar

/-! ### Prefixes of lexemes -/

section Prefixes

variable {u v : List Char}

theorem mem_numeral_of_isPrefix (hv : v ∈ numeral) (hu : u <+: v) (hne : u ≠ []) : u ∈ numeral := by
  obtain ⟨c, x, rfl, hc, hx⟩ := mem_numeral.1 hv
  obtain ⟨d, y, rfl⟩ := List.exists_cons_of_ne_nil hne
  obtain ⟨rfl, hy⟩ := List.cons_prefix_cons.1 hu
  exact mem_numeral.2 ⟨d, y, rfl, hc, fun z hz ↦ hx z (hy.subset hz)⟩

/-- A prefix of a number without its sign is one too, except for a lone point. -/
theorem mem_unsigned_of_isPrefix (hv : v ∈ unsigned) (hu : u <+: v) (hne : u ≠ []) :
    u ∈ unsigned ∨ u = ['.'] := by
  rcases mem_unsigned.1 hv with hv | ⟨a, b, ha, hb, rfl⟩ | ⟨b, hb, rfl⟩
  · exact Or.inl (mem_unsigned.2 (Or.inl (mem_numeral_of_isPrefix hv hu hne)))
  · -- the prefix ends before the point, or it holds the point
    rcases List.prefix_or_prefix_of_prefix hu (List.prefix_append a ('.' :: b)) with hua | ⟨y, rfl⟩
    · exact Or.inl (mem_unsigned.2 (Or.inl (mem_numeral_of_isPrefix ha hua hne)))
    · have hy := (List.prefix_append_right_inj a).1 hu
      cases y with
      | nil =>
        rw [List.append_nil]
        exact Or.inl (mem_unsigned.2 (Or.inl ha))
      | cons d y =>
        obtain ⟨rfl, hyb⟩ := List.cons_prefix_cons.1 hy
        have hdigits : ∀ x ∈ y, x.isDigit = true :=
          fun x hx ↦ mem_digit_kstar.1 hb x (hyb.subset hx)
        exact Or.inl (mem_unsigned.2 (Or.inr (Or.inl ⟨a, y, ha, mem_digit_kstar.2 hdigits, rfl⟩)))
  · obtain ⟨d, y, rfl⟩ := List.exists_cons_of_ne_nil hne
    obtain ⟨rfl, hy⟩ := List.cons_prefix_cons.1 hu
    cases y with
    | nil => exact Or.inr rfl
    | cons e y =>
      have hmem := mem_numeral_of_isPrefix hb hy (List.cons_ne_nil e y)
      exact Or.inl (mem_unsigned.2 (Or.inr (Or.inr ⟨_, hmem, rfl⟩)))

/-- Behind the point that a number opens with stands a digit. -/
theorem exists_digit_of_point_cons (hv : '.' :: v ∈ unsigned) :
    ∃ d rest, v = d :: rest ∧ d.isDigit = true := by
  rcases Phase.cons_mem_unsigned hv with ⟨hdigit, -⟩ | ⟨-, hv⟩
  · exact absurd hdigit (by decide)
  · obtain ⟨d, rest, rfl, hd, -⟩ := mem_numeral.1 hv
    exact ⟨d, rest, rfl, hd⟩

/-- A text that is no lexeme although lexemes go on from it: a sign and a point, before a digit. -/
def SignPoint (u behind : List Char) : Prop :=
  (u = ['+', '.'] ∨ u = ['-', '.']) ∧ ∃ d ∈ behind.head?, d.isDigit = true

/-- Only the first character behind it counts. -/
theorem SignPoint.mono {x : List Char} (h : SignPoint u v) (hx : v <+: x) : SignPoint u x := by
  obtain ⟨hu, d, hd, hdigit⟩ := h
  refine ⟨hu, d, ?_, hdigit⟩
  obtain ⟨y, rfl⟩ := hx
  rw [List.head?_append, Option.mem_def.1 hd, Option.some_or]
  rfl

theorem mem_lexeme_of_word (hw : u ∈ word) : u ∈ lexeme := by
  by_cases hreserved : String.ofList u ∈ reserved
  · exact ⟨.keyword, hw, hreserved⟩
  · exact ⟨.identifier, hw, hreserved⟩

/-- **Lexemes are almost closed under prefixes.** What a lexeme starts with is a lexeme as well,
except for the sign and the point of a number that has no digit between or before them. -/
theorem mem_lexeme_of_isPrefix (hv : u ++ v ∈ lexeme) (hne : u ≠ []) :
    u ∈ lexeme ∨ SignPoint u v := by
  obtain ⟨k, hk⟩ := hv
  have hu := List.prefix_append u v
  have hword (hw : u ++ v ∈ word) : u ∈ lexeme := by
    obtain ⟨c, x, he, hc, hx⟩ := mem_word.1 hw
    obtain ⟨d, y, rfl⟩ := List.exists_cons_of_ne_nil hne
    obtain ⟨rfl, rfl⟩ := List.cons.inj he
    exact mem_lexeme_of_word (mem_word.2 ⟨d, y, rfl, hc, fun z hz ↦ hx z (by simp [hz])⟩)
  cases k with
  | keyword => exact Or.inl (hword hk.1)
  | identifier => exact Or.inl (hword hk.1)
  | number =>
    rcases mem_number.1 hk with hk | ⟨s, x, hs, hx, he⟩
    · rcases mem_unsigned_of_isPrefix hk hu hne with hunsigned | rfl
      · exact Or.inl ⟨.number, mem_number.2 (Or.inl hunsigned)⟩
      · exact Or.inl ⟨.operator, show "." ∈ operators by decide⟩
    · obtain ⟨d, y, rfl⟩ := List.exists_cons_of_ne_nil hne
      obtain ⟨rfl, rfl⟩ := List.cons.inj he
      cases y with
      | nil =>
        refine Or.inl ⟨.operator, ?_⟩
        rcases hs with rfl | rfl
        · exact show "+" ∈ operators by decide
        · exact show "-" ∈ operators by decide
      | cons e y =>
        rcases mem_unsigned_of_isPrefix hx (List.prefix_append _ v) (List.cons_ne_nil e y) with
          hunsigned | hpoint
        · exact Or.inl ⟨.number, mem_number.2 (Or.inr ⟨d, _, hs, hunsigned, rfl⟩)⟩
        · rw [hpoint] at hx ⊢
          obtain ⟨x, rest, rfl, hd⟩ := exists_digit_of_point_cons hx
          refine Or.inr ⟨?_, x, rfl, hd⟩
          rcases hs with rfl | rfl
          · exact Or.inl rfl
          · exact Or.inr rfl
  | operator =>
    have hall : ∀ s ∈ operators, ∀ x ∈ s.toList.inits, x ≠ [] → String.ofList x ∈ operators := by
      decide
    exact Or.inl ⟨.operator, hall _ hk u (by simp) hne⟩
  | punctuation | malformed =>
    -- the whole lexeme is one character, so nothing of it can be missing
    obtain ⟨c, -, he⟩ := id hk
    have hnil : v = [] := by
      have hlen := congrArg List.length he
      have hpos := List.length_pos_iff.2 hne
      rw [List.length_append, List.length_singleton] at hlen
      exact List.length_eq_zero_iff.1 (by omega)
    rw [hnil, List.append_nil] at hk
    exact Or.inl ⟨_, hk⟩

end Prefixes

/-- **An open comment reaches to the seam at least.** If text is put behind it and a gap is what the
whole starts with, then the comment is not closed before its own end. -/
theorem length_le_of_openComment {r behind g rest : List Char} (hr : r ∈ openComment)
    (hg : g ∈ gap) (hs : Settled rest) (h : r ++ behind = g ++ rest) : r.length ≤ g.length := by
  obtain ⟨body, hbody, rfl⟩ := hr
  induction hg using gap_induction with
  | nil => exact absurd ⟨body ++ behind, by simpa using h⟩ hs.2
  | blank c g hc =>
    obtain ⟨rfl, -⟩ := List.cons.inj h
    exact absurd hc (by decide)
  | comment body' g =>
    simp only [List.append_assoc, List.append_cancel_left_eq] at h
    rw [← List.append_assoc body' closer] at h
    by_contra hlt
    simp only [List.length_append] at hlt
    -- otherwise the closing delimiter of the gap would stand in the body of the comment
    have hprefix : body' ++ closer <+: body := by
      refine List.prefix_of_prefix_length_le ⟨g ++ rest, h.symm⟩ ⟨behind, rfl⟩ ?_
      rw [List.length_append]
      omega
    exact hbody ((List.suffix_append body' closer).isInfix.trans hprefix.isInfix)

end Grammar

/-! ### The first lexeme at a seam -/

/-- **What appended text does to the first lexeme of a text**: nothing, or it makes a slash the
start of a comment, or it makes a lexeme of the whole text and more. -/
theorem Longest.append_cases {text w : List Char} {k : Category} (hs : Settled text)
    (hw : Longest text w k) (behind : List Char) :
    (Settled (text ++ behind) ∧ Longest (text ++ behind) w k) ∨
      (text = ['/'] ∧ ['*'] <+: behind) ∨
      ∃ v l, v ≠ [] ∧ Settled (text ++ behind) ∧ Longest (text ++ behind) (text ++ v) l := by
  obtain ⟨c, u, rfl⟩ : ∃ c u, text = c :: u := by
    obtain ⟨c, u, rfl, -⟩ := chars_of_mem_language hw.mem
    obtain ⟨rest, rfl⟩ := hw.isPrefix
    exact ⟨c, u ++ rest, rfl⟩
  by_cases hopen : opener <+: c :: u ++ behind
  · obtain ⟨rfl, hstar⟩ := List.cons_prefix_cons.1 hopen
    cases u with
    | nil => exact Or.inr (Or.inl ⟨rfl, hstar⟩)
    | cons d u =>
      obtain ⟨rfl, -⟩ := List.cons_prefix_cons.1 hstar
      exact absurd ⟨u, rfl⟩ hs.2
  · have hsettled : Settled (c :: u ++ behind) := ⟨fun d hd ↦ hs.1 d hd, hopen⟩
    have hv := Phase.longest_taken (hs.1 c rfl) (u ++ behind)
    rw [← List.cons_append] at hv
    generalize Phase.start.taken (c :: u ++ behind) = v at hv
    rcases Nat.lt_or_ge (c :: u).length v.length with hlt | hle
    · obtain ⟨x, rfl⟩ := List.prefix_of_prefix_length_le (List.prefix_append (c :: u) behind)
        hv.isPrefix hlt.le
      refine Or.inr (Or.inr ⟨x, _, ?_, hsettled, hv⟩)
      rintro rfl
      exact absurd hlt (by simp)
    · -- the longest lexeme is still one of the text alone
      have hprefix := List.prefix_of_prefix_length_le hv.isPrefix
        (List.prefix_append (c :: u) behind) hle
      obtain ⟨rfl, hcategory⟩ := (hv.of_append hprefix).unique hw
      rw [hcategory] at hv
      exact Or.inl ⟨hsettled, hv⟩

/-- If a lexeme goes on where a text ends, then at most one token is left behind the first one of
the text, and one only behind a sign. -/
theorem Longest.length_le_of_longer {origin : Json} {p : Position} {w rest v : List Char}
    {k : Category} {ts : List Token} {opened : Option Position} (hw : Longest (w ++ rest) w k)
    (hv : w ++ rest ++ v ∈ lexeme) (h : Scan origin p rest ts opened) :
    ts.length = 0 ∨ ts.length ≤ 1 ∧ SignPoint (w ++ rest) v := by
  have hle := h.length_le
  have hpos := List.length_pos_iff.2 (ne_nil_of_mem_lexeme ⟨k, hw.mem⟩)
  have hne : w ++ rest ≠ [] :=
    List.append_ne_nil_of_left_ne_nil (ne_nil_of_mem_lexeme ⟨k, hw.mem⟩) rest
  rcases mem_lexeme_of_isPrefix hv hne with hlexeme | hsign
  · -- the first lexeme is the longest one, so it is all of the text
    have hlen := hw.longest _ (List.prefix_refl _) hlexeme
    rw [List.length_append] at hlen
    exact Or.inl (by omega)
  · have hlen : (w ++ rest).length = 2 := by
      rcases hsign.1 with htext | htext
      · rw [htext]
        rfl
      · rw [htext]
        rfl
    rw [List.length_append] at hlen
    exact Or.inr ⟨by omega, hsign⟩

/-! ### Scans of longer texts -/

section Scans

variable {origin : Json} {p : Position} {text : List Char} {ts : List Token}
  {opened : Option Position}

/-- The tokens behind an open comment end behind the seam. -/
theorem Scan.lt_endOffset_of_openComment {r behind : List Char} (hr : r ∈ openComment)
    (h : Scan origin p (r ++ behind) ts opened) :
    ∀ t ∈ ts, (p.offset : ℤ) + r.length < t.endOffset := by
  intro t ht
  generalize htext : r ++ behind = text at h
  cases h with
  | done | unclosed => exact absurd ht List.not_mem_nil
  | @token _ g w rest k ts _ hg hs hw h =>
    have hle := length_le_of_openComment hr hg hs htext
    rw [Position.advanceOver_append] at h
    obtain ⟨hstart, hpos, -⟩ := (Scan.token nil_mem_gap hs hw h).bounds_of_mem ht
    rw [Position.offset_advanceOver] at hstart
    omega

/-- The tokens of a text end behind the seam if its first lexeme reaches over it. -/
theorem Longest.exists_scan_longer {v behind : List Char} {l : Category} (origin : Json)
    (p : Position) (hv : v ≠ []) (hs : Settled (text ++ behind))
    (hw : Longest (text ++ behind) (text ++ v) l) :
    ∃ later opened, Scan origin p (text ++ behind) later opened ∧
      ∀ t ∈ later, (p.offset : ℤ) + text.length < t.endOffset := by
  obtain ⟨rest, hrest⟩ := hw.isPrefix
  rw [← hrest] at hs hw ⊢
  obtain ⟨later, opened, h⟩ := exists_scan origin (p.advanceOver (text ++ v)) rest
  refine ⟨_, opened, .token nil_mem_gap hs hw h, fun t ht ↦ ?_⟩
  have hpos := List.length_pos_iff.2 hv
  rcases List.mem_cons.1 ht with rfl | ht
  · simp only [Token.ofLexeme, List.length_append, Position.advanceOver_nil]
    omega
  · obtain ⟨hstart, hend, -⟩ := h.bounds_of_mem ht
    rw [Position.offset_advanceOver, List.length_append] at hstart
    omega

/-- **The first token is kept, or everything is replaced.** In the second case the tokens that come
in their place end behind the seam, and no more than one token was left behind the first. -/
theorem Longest.kept_or_replaced {w rest : List Char} {k : Category} (hs : Settled (w ++ rest))
    (hw : Longest (w ++ rest) w k) (h : Scan origin (p.advanceOver w) rest ts opened)
    (behind : List Char) :
    (Settled (w ++ rest ++ behind) ∧ Longest (w ++ rest ++ behind) w k) ∨
      ∃ later opened', Scan origin p (w ++ rest ++ behind) later opened' ∧
        (∀ t ∈ later, (p.offset : ℤ) + (w ++ rest).length < t.endOffset) ∧
          (ts.length = 0 ∨ ts.length ≤ 1 ∧ SignPoint (w ++ rest) behind) := by
  rcases hw.append_cases hs behind with hkept | ⟨hslash, hstar⟩ | ⟨v, l, hv, hs', hw'⟩
  · exact Or.inl hkept
  · -- the token was a slash, and with the star behind it a comment opens
    obtain ⟨body, rfl⟩ := hstar
    have hopener : opener ∈ openComment := ⟨[], by decide, rfl⟩
    obtain ⟨later, opened', hscan⟩ := exists_scan origin p (opener ++ body)
    have hle := h.length_le
    have hpos := List.length_pos_iff.2 (ne_nil_of_mem_lexeme ⟨k, hw.mem⟩)
    have hlen := congrArg List.length hslash
    rw [List.length_append, List.length_singleton] at hlen
    rw [hslash]
    refine Or.inr ⟨later, opened', hscan, fun t ht ↦ ?_, Or.inl (by omega)⟩
    have hlt := hscan.lt_endOffset_of_openComment hopener t ht
    simp only [opener, List.length_cons, List.length_nil] at hlt ⊢
    omega
  · obtain ⟨later, opened', hscan, hlater⟩ := hw'.exists_scan_longer origin p hv hs'
    have hvb : v <+: behind := (List.prefix_append_right_inj (w ++ rest)).1 hw'.isPrefix
    refine Or.inr ⟨later, opened', hscan, hlater, ?_⟩
    exact (hw.length_le_of_longer ⟨l, hw'.mem⟩ h).imp_right
      (And.imp_right fun hsign ↦ hsign.mono hvb)

/-- **What appended text leaves of a scan.** Its tokens are kept but for the last ones, which are
two at most; the tokens that come in their place all end behind the seam. -/
theorem Scan.exists_append (h : Scan origin p text ts opened) (behind : List Char) :
    ∃ kept lost later opened', ts = kept ++ lost ∧
      Scan origin p (text ++ behind) (kept ++ later) opened' ∧
      (∀ t ∈ later, (p.offset : ℤ) + text.length < t.endOffset) ∧ lost.length ≤ 2 ∧
      (lost.length = 2 → ∃ u, u <:+ text ∧ SignPoint u behind) := by
  induction h with
  | @done p g hg =>
    obtain ⟨later, opened', h⟩ := exists_scan origin (p.advanceOver g) behind
    refine ⟨[], [], later, opened', rfl, h.gap_append hg, fun t ht ↦ ?_, by simp, by simp⟩
    obtain ⟨hstart, hpos, -⟩ := h.bounds_of_mem ht
    rw [Position.offset_advanceOver] at hstart
    omega
  | @unclosed p g r hg hr =>
    obtain ⟨later, opened', h⟩ := exists_scan origin (p.advanceOver g) (r ++ behind)
    rw [List.append_assoc]
    refine ⟨[], [], later, opened', rfl, h.gap_append hg, fun t ht ↦ ?_, by simp, by simp⟩
    have hlt := h.lt_endOffset_of_openComment hr t ht
    rw [Position.offset_advanceOver] at hlt
    rw [List.length_append]
    omega
  | @token p g w rest k ts opened hg hs hw hrest ih =>
    have hrest' := hrest
    rw [Position.advanceOver_append] at hrest'
    rcases hw.kept_or_replaced hs hrest' behind with ⟨hs', hw'⟩ | ⟨later, opened', h, hlater, hlost⟩
    · -- the token is kept, and with it those that are kept behind it
      obtain ⟨kept, lost, later, opened', rfl, h, hlater, hlost, htwo⟩ := ih
      rw [List.append_assoc] at hs' hw'
      refine ⟨_ :: kept, lost, later, opened', rfl, ?_, fun t ht ↦ ?_, hlost, fun h2 ↦ ?_⟩
      · rw [List.append_assoc, List.append_assoc]
        exact .token hg hs' hw' h
      · have hlt := hlater t ht
        simp only [Position.offset_advanceOver, List.length_append] at hlt ⊢
        omega
      · obtain ⟨u, hu, hsign⟩ := htwo h2
        rw [← List.append_assoc]
        exact ⟨u, hu.trans (List.suffix_append _ rest), hsign⟩
    · rw [List.append_assoc]
      refine ⟨[], _ :: ts, later, opened', rfl, h.gap_append hg, fun t ht ↦ ?_, ?_, fun h2 ↦ ?_⟩
      · have hlt := hlater t ht
        rw [Position.offset_advanceOver] at hlt
        rw [List.length_append]
        omega
      · rw [List.length_cons]
        omega
      · rw [List.length_cons] at h2
        obtain hnone | ⟨-, hsign⟩ := hlost
        · omega
        · exact ⟨w ++ rest, List.suffix_append g _, hsign⟩

end Scans

/-- **Appended text changes the end of a text only.** The tokens of the whole that end within the
first text are those of the first text alone, but for at most two at the end; and two are missing
only if a sign and a point stand at the end of the first text and a digit at the start of the
second. In particular, a text that is cut behind one of its tokens has exactly the tokens up to that
one. -/
theorem tokenize_stable (first second : String) (origin : Option String) (config : Config) :
    (∃ kept lost, tokenize first origin config = kept ++ lost ∧
      (tokenize (first ++ second) origin config).filter
        (fun t ↦ t.endOffset ≤ (first.length : ℤ)) = kept ∧
      lost.length ≤ 2 ∧
      (lost.length = 2 → ∃ u, u <:+ first.toList ∧ SignPoint u second.toList)) ∧
    ∀ (before : List Token) (x : Token) (after : List Token),
      tokenize first origin config = before ++ x :: after →
        ∃ n : ℕ, x.endOffset = n ∧
          tokenize (String.ofList (first.toList.take n)) origin config = before ++ [x] := by
  obtain ⟨opened, h⟩ := scan_tokenize first origin config
  refine ⟨?_, fun before x after htokens ↦ ?_⟩
  · obtain ⟨kept, lost, later, opened', hts, hwhole, hlater, hlost, htwo⟩ :=
      h.exists_append second.toList
    have htokens : tokenize (first ++ second) origin config = kept ++ later := by
      rw [← String.toList_append] at hwhole
      have hscan : Scan (Session.ofSource (first ++ second) origin config).originValue .start
        (first ++ second).toList (kept ++ later) opened' := hwhole
      exact (Session.drain_ofSource_of_scan hscan).1
    have hkept : ∀ t ∈ kept, t.endOffset ≤ (first.length : ℤ) := by
      intro t ht
      have hmem : t ∈ tokenize first origin config := by
        rw [hts]
        exact List.mem_append_left lost ht
      simpa [Position.start, String.length_toList] using (h.bounds_of_mem hmem).2.2
    have hlater' : ∀ t ∈ later, ¬ t.endOffset ≤ (first.length : ℤ) := by
      intro t ht
      simpa [Position.start, String.length_toList] using hlater t ht
    refine ⟨kept, lost, hts, ?_, hlost, htwo⟩
    rw [htokens, List.filter_append, List.filter_eq_self.2 (by simpa using hkept),
      List.filter_eq_nil_iff.2 (by simpa using hlater'), List.append_nil]
  · rw [htokens] at h
    obtain ⟨read, w, rest, k, htext, rfl, -, hupto, -⟩ := h.around
    refine ⟨(read ++ w).length, by simp [Token.ofLexeme, Position.start], ?_⟩
    rw [htext, ← List.append_assoc, List.take_left]
    exact (Session.drain_ofList_of_scan hupto).1

/-- A sign and a point are two tokens until a digit comes behind them. The token before them is
kept, and cutting behind the sign gives it back. -/
theorem tokenize_stable_sign :
    (∃ kept lost, tokenize "a-." none .default = kept ++ lost ∧
      tokenize "a-.5" none .default = kept ++ [⟨"-.5", .number, 1, 2, 1, 4, .null⟩] ∧
      kept = [⟨"a", .identifier, 1, 1, 0, 1, .null⟩] ∧ lost.length = 2 ∧
      ∃ u, u <:+ "a-.".toList ∧ SignPoint u "5".toList) ∧
    tokenize "a-" none .default =
      [⟨"a", .identifier, 1, 1, 0, 1, .null⟩, ⟨"-", .operator, 1, 2, 1, 2, .null⟩] := by
  obtain ⟨⟨kept, lost, hts, hkept, -, htwo⟩, hcut⟩ := tokenize_stable "a-." "5" none .default
  obtain rfl : [⟨"a", .identifier, 1, 1, 0, 1, .null⟩] = kept := hkept
  have hlost : lost.length = 2 := by
    have := congrArg List.length hts
    rw [show (tokenize "a-." none .default).length = 3 from rfl, List.length_append,
      List.length_singleton] at this
    omega
  obtain ⟨n, hn, hupto⟩ := hcut [_] _ [_] rfl
  obtain rfl : n = 2 := Int.ofNat.inj hn.symm
  exact ⟨⟨_, lost, hts, rfl, rfl, hlost, htwo hlost⟩, hupto⟩

end TokenScan
