import TokenScan.Proofs.Session.Basic

/-!
# Scanning, declaratively

`Scan` relates a text to its tokens by the grammar alone: the text is a gap and nothing, a gap and
an open comment, or a gap, the longest lexeme behind it, and a text that is scanned on. It mentions
neither phases nor sessions, only where each piece starts.

The relation holds of exactly one list of tokens for every text, and it is the one that scanning a
session gives. Existence is a fact about texts (`exists_scan`); that a session follows a given scan
is the one induction over runs (`drain_of_scan`), on the scan and not on the session. From the two,
the tokens of a source are related to it (`scan_tokenize`) and no others are
(`Session.drain_ofSource_of_scan`). What is to be proved about all tokens of all texts can therefore
be proved by induction over scans.
-/

namespace TokenScan

open Grammar

/-- **The tokens of a text** that starts at a position, and where its last comment was opened if
that comment runs to the end. -/
inductive Scan (origin : Json) : Position → List Char → List Token → Option Position → Prop
  /-- Nothing but a gap is left. -/
  | done {p : Position} {g : List Char} (hg : g ∈ gap) : Scan origin p g [] none
  /-- A comment runs to the end of the text. -/
  | unclosed {p : Position} {g r : List Char} (hg : g ∈ gap) (hr : r ∈ openComment) :
    Scan origin p (g ++ r) [] (some (p.advanceOver g))
  /-- Behind a gap, the longest lexeme is a token. -/
  | token {p : Position} {g w rest : List Char} {k : Category} {ts : List Token}
    {opened : Option Position} (hg : g ∈ gap) (hs : Settled (w ++ rest))
    (hw : Longest (w ++ rest) w k) (h : Scan origin (p.advanceOver (g ++ w)) rest ts opened) :
    Scan origin p (g ++ (w ++ rest)) (.ofLexeme origin (p.advanceOver g) w k :: ts) opened

/-- **Every text can be scanned.** -/
theorem exists_scan (origin : Json) (p : Position) (text : List Char) :
    ∃ ts opened, Scan origin p text ts opened := by
  induction hn : text.length using Nat.strong_induction_on generalizing p text with
  | _ n ih =>
    subst hn
    obtain ⟨g, rest, hg, rfl, hrest | hrest⟩ := exists_gap_append text
    · cases rest with
      | nil =>
        rw [List.append_nil]
        exact ⟨[], none, .done hg⟩
      | cons c rest =>
        have hw := Phase.longest_taken (hrest.1 c rfl) rest
        obtain ⟨behind, hbehind⟩ := hw.isPrefix
        -- a lexeme is not empty, so less is left to be scanned behind it
        have hlen : behind.length < (g ++ c :: rest).length := by
          have hpos := List.length_pos_iff.2 (Phase.taken_start_ne_nil c rest)
          have := congrArg List.length hbehind
          simp only [List.length_append] at this ⊢
          omega
        obtain ⟨ts, opened, h⟩ :=
          ih behind.length hlen (p.advanceOver (g ++ Phase.start.taken (c :: rest))) behind rfl
        rw [← hbehind] at hrest
        nth_rewrite 1 [← hbehind] at hw
        rw [← hbehind]
        exact ⟨_, opened, .token hg hrest hw h⟩
    · exact ⟨[], _, .unclosed hg hrest⟩

/-- **No more tokens than characters**, since no lexeme is empty. -/
theorem Scan.length_le {origin : Json} {p : Position} {text : List Char} {ts : List Token}
    {opened : Option Position} (h : Scan origin p text ts opened) : ts.length ≤ text.length := by
  induction h with
  | done | unclosed => exact Nat.zero_le _
  | @token p g w rest k ts opened _ _ hw _ ih =>
    have hpos := List.length_pos_iff.2 (ne_nil_of_mem_lexeme ⟨k, hw.mem⟩)
    simp only [List.length_cons, List.length_append]
    omega

/-- A gap may be put before any text. -/
theorem Scan.gap_append {origin : Json} {p : Position} {g text : List Char} {ts : List Token}
    {opened : Option Position} (hg : g ∈ gap)
    (h : Scan origin (p.advanceOver g) text ts opened) : Scan origin p (g ++ text) ts opened := by
  cases h with
  | done hg' => exact .done (append_mem_gap hg hg')
  | @unclosed _ g' r hg' hr =>
    rw [← List.append_assoc, ← Position.advanceOver_append]
    exact .unclosed (append_mem_gap hg hg') hr
  | @token _ g' w rest k ts _ hg' hs hw h =>
    rw [← Position.advanceOver_append, ← List.append_assoc] at h
    rw [← List.append_assoc, ← Position.advanceOver_append]
    exact .token (append_mem_gap hg hg') hs hw h

/-- **Where a token of a scan comes from**: a part of the text that is the longest lexeme where it
starts, at the position that the text before it leads to. -/
theorem Scan.exists_of_mem {origin : Json} {p : Position} {text : List Char} {ts : List Token}
    {opened : Option Position} (h : Scan origin p text ts opened) {t : Token} (ht : t ∈ ts) :
    ∃ before w rest k, text = before ++ (w ++ rest) ∧ Longest (w ++ rest) w k ∧
      t = .ofLexeme origin (p.advanceOver before) w k := by
  induction h with
  | done | unclosed => exact absurd ht List.not_mem_nil
  | @token p g w rest k ts opened _ _ hw _ ih =>
    rcases List.mem_cons.1 ht with rfl | ht
    · exact ⟨g, w, rest, k, rfl, hw, rfl⟩
    · obtain ⟨before, v, behind, l, rfl, hv, rfl⟩ := ih ht
      refine ⟨g ++ w ++ before, v, behind, l, by simp, hv, ?_⟩
      rw [Position.advanceOver_append p (g ++ w)]

namespace Session

/-- The place of an open comment, as a session records it. -/
def recordOf (origin : Json) (opened : Option Position) : Option Location :=
  opened.map (Location.ofPosition · origin)

/-- **A session follows the scan of its text**, from any position at which it has skipped the
gap. -/
theorem drain_of_scan {origin : Json} {p : Position} {text : List Char} {ts : List Token}
    {opened : Option Position} (h : Scan origin p text ts opened) {s : Session}
    (hs : s.started = true) (ho : s.originValue = origin)
    (hc : s.cursor = (skipFrom none p text).cursor)
    (hr : s.openComment = recordOf origin (skipFrom none p text).openedAt) :
    s.drain.1 = ts ∧ s.drain.2.openComment = recordOf origin opened := by
  induction h generalizing s with
  | @done p g hg =>
    rw [skipFrom_of_gap hg] at hc hr
    rw [s.drain_of_atEnd hs (by rw [atEnd, hc]; rfl)]
    exact ⟨rfl, hr⟩
  | @unclosed p g r hg hopen =>
    rw [skipFrom_gap_append hg, skipFrom_of_openComment hopen] at hc hr
    rw [s.drain_of_atEnd hs (by rw [atEnd, hc]; rfl)]
    exact ⟨rfl, hr⟩
  | @token p g w rest k ts opened hg hsettled hw _ ih =>
    rw [skipFrom_gap_append hg, skipFrom_of_settled hsettled] at hc hr
    obtain ⟨c, u, rfl, -⟩ := chars_of_mem_language hw.mem
    have hend : s.atEnd = false := by rw [atEnd, hc]; rfl
    -- the session takes the one longest lexeme of the text, with its one category
    have htaken := Phase.longest_taken (hsettled.1 c rfl) (u ++ rest)
    obtain ⟨hlexeme, hverdict⟩ := htaken.unique hw
    have hnext : s.nextLexeme = c :: u := by
      rw [nextLexeme, hc]
      exact hlexeme
    have hbehind : s.behindLexeme = ⟨p.advanceOver (g ++ c :: u), rest⟩ := by
      rw [behindLexeme, hnext, hc, Position.advanceOver_append]
      simp
    obtain ⟨hcursor, hopen, horigin, hstarted⟩ := s.produce_snd
    rw [hr, hbehind, ho] at hopen
    rw [hbehind] at hcursor
    obtain ⟨hts, hrecord⟩ := ih (hstarted.trans hs) (horigin.trans ho) hcursor
      (by rw [hopen]; simp [recordOf, skipGap])
    rw [s.drain_of_not_atEnd hs hend]
    refine ⟨?_, hrecord⟩
    rw [hts, s.produce_fst, hnext, ho, hc]
    rw [show (⟨⟨p.advanceOver g, c :: u ++ rest⟩, none⟩ : Skipped).cursor.rest = c :: (u ++ rest)
      from rfl, hverdict]

/-- **A session over a source follows the scan of the source** from its beginning. -/
theorem drain_ofSource_of_scan {source : String} {origin : Option String} {config : Config}
    {ts : List Token} {opened : Option Position}
    (h : Scan (ofSource source origin config).originValue .start source.toList ts opened) :
    (ofSource source origin config).drain.1 = ts ∧
      (ofSource source origin config).drain.2.openComment =
        recordOf (ofSource source origin config).originValue opened := by
  set s := ofSource source origin config with hs
  have hcursor : s.start.cursor = (skipFrom none .start source.toList).cursor := by
    rw [start, skip_eq]
    rfl
  have hopen : s.start.openComment =
      recordOf s.originValue (skipFrom none .start source.toList).openedAt := by
    rw [start, skip_eq]
    exact Option.or_none
  have hstarted := s.started_start
  have horigin : s.start.originValue = s.originValue := by
    rw [start, skip_eq]
    rfl
  obtain ⟨hts, hrecord⟩ := drain_of_scan h hstarted horigin hcursor hopen
  rw [s.drain_of_not_started rfl]
  by_cases hend : s.start.atEnd = true
  · rw [s.start.drain_of_atEnd hstarted hend] at hts hrecord
    rw [if_pos hend]
    exact ⟨hts, hrecord⟩
  · rw [if_neg hend]
    exact ⟨hts, hrecord⟩

end Session

/-- **A complete session is a scan**: the tokens of a source are related to it, with the comment
that the session records as open. -/
theorem scan_ofSource (source : String) (origin : Option String) (config : Config) :
    ∃ opened, Scan (Session.ofSource source origin config).originValue .start source.toList
        (tokenize source origin config) opened ∧
      (Session.ofSource source origin config).drain.2.openComment =
        Session.recordOf (Session.ofSource source origin config).originValue opened := by
  obtain ⟨ts, opened, h⟩ :=
    exists_scan (Session.ofSource source origin config).originValue .start source.toList
  obtain ⟨hts, hrecord⟩ := Session.drain_ofSource_of_scan h
  refine ⟨opened, ?_, hrecord⟩
  rw [tokenize, hts]
  exact h

/-- **Tokenizing scans**: the tokens of a source are related to it. -/
theorem scan_tokenize (source : String) (origin : Option String) (config : Config) :
    ∃ opened, Scan (Session.ofSource source origin config).originValue .start source.toList
      (tokenize source origin config) opened := by
  obtain ⟨opened, h, -⟩ := scan_ofSource source origin config
  exact ⟨opened, h⟩

end TokenScan
