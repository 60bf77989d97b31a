import TokenScan.Proofs.Cutting
import TokenScan.Proofs.Moving

/-!
# Scanning again from a token on

A session carries nothing from one token to the next but its place. So a new session may take over
wherever a token starts or ends (`tokenize_resumes`): over what is left of the text it gives the
tokens that are left, and records the same open comment, all of them counted from the place where it
took over.

`relativeTo` says how coordinates are counted from another place. It undoes `moved`
(`Token.relativeTo_moved`), by which the tokens of a text are found in a longer one. With that the
theorem is about scans alone: what stands behind a cut is the scan of the text behind it, a new scan
of that text moves there as a whole, and a text has one scan only (`Scan.exists_fresh`).
-/

namespace TokenScan

open Grammar

/-! ### Coordinates counted from another place -/

namespace Position

/-- A line, counted from the line of a place. -/
def relativeLine (base : Position) (line : ℤ) : ℤ := line - (base.line - 1)

/-- A column of a line, counted from a place if it lies in that line. -/
def relativeColumn (base : Position) (line column : ℤ) : ℤ :=
  if line = base.line then column - (base.column - 1) else column

variable (before : List Char) (line column : ℤ)

theorem relativeLine_moved : (after before).relativeLine (line + before.count '\n') = line := by
  rw [relativeLine, line_after]
  push_cast
  omega

theorem relativeColumn_moved :
    (after before).relativeColumn (line + before.count '\n')
      (if line = 1 then column + ((after before).column - 1) else column) = column := by
  have hline : line + before.count '\n' = (after before).line ↔ line = 1 := by
    rw [line_after]
    push_cast
    omega
  by_cases hfirst : line = 1
  · rw [relativeColumn, if_pos (hline.2 hfirst), if_pos hfirst, Int.add_sub_cancel]
  · rw [relativeColumn, if_neg (mt hline.1 hfirst), if_neg hfirst]

end Position

/-- A token as it is seen from a place before it: offsets and lines are counted from there, and so
are columns in the line of that place. -/
def Token.relativeTo (base : Position) (t : Token) : Token :=
  { t with
    line := base.relativeLine t.line
    column := base.relativeColumn t.line t.column
    offset := t.offset - base.offset
    endOffset := t.endOffset - base.offset }

/-- A location as it is seen from a place before it. -/
def Location.relativeTo (base : Position) (l : Location) : Location :=
  { l with
    line := base.relativeLine l.line
    column := base.relativeColumn l.line l.column
    offset := l.offset - base.offset
    endOffset := l.endOffset - base.offset
    endLine := l.endLine.map base.relativeLine
    endColumn :=
      match l.endLine with
      | none => l.endColumn
      | some line => l.endColumn.map (base.relativeColumn line) }

/-- **A token that was moved is the old one again** when it is seen from the seam. -/
theorem Token.relativeTo_moved (before : List Char) (t : Token) :
    (t.moved before).relativeTo (.after before) = t := by
  simp [relativeTo, moved, Position.relativeLine_moved, Position.relativeColumn_moved]

/-- **So is a location**, also where it ends. -/
theorem Location.relativeTo_moved (before : List Char) (l : Location) :
    (l.moved before).relativeTo (.after before) = l := by
  obtain ⟨line, column, offset, endOffset, _ | endLine, endColumn, origin⟩ := l
  · simp [relativeTo, moved, Position.relativeLine_moved, Position.relativeColumn_moved]
  · -- the end moves by the same rule as the start
    have hend : (endColumn.map fun c ↦
        (Position.after before).relativeColumn (endLine + before.count '\n')
          (if endLine = 1 then c + ((Position.after before).column - 1) else c)) = endColumn := by
      simp [Position.relativeColumn_moved]
    by_cases hfirst : endLine = 1
    · simp only [hfirst, if_true] at hend
      simp [relativeTo, moved, Position.relativeLine_moved, Position.relativeColumn_moved, hfirst,
        Function.comp_def, hend]
    · simp only [hfirst, if_false] at hend
      simp [relativeTo, moved, Position.relativeLine_moved, Position.relativeColumn_moved, hfirst,
        hend]

/-! ### Taking over -/

/-- **What is left of a scan is a scan of its own**, of the same text from a new start. -/
theorem Scan.exists_fresh {origin : Json} {before text : List Char} {ts : List Token}
    {opened : Option Position} (h : Scan origin (.after before) text ts opened) :
    ∃ opened', opened = opened'.map (Position.moved before) ∧
      Scan origin .start text (ts.map (Token.relativeTo (.after before))) opened' := by
  obtain ⟨us, opened', hfresh⟩ := exists_scan origin .start text
  have hmoved := hfresh.moved (Nat.le_refl 1) before
  rw [Position.moved_start] at hmoved
  obtain ⟨rfl, rfl⟩ := h.unique hmoved
  refine ⟨opened', rfl, ?_⟩
  rwa [List.map_map, Function.comp_def, funext (Token.relativeTo_moved before), List.map_id']

/-- The record of a comment in a longer text, seen from the seam. -/
theorem Session.recordOf_moved (origin : Json) (before : List Char) (opened : Option Position) :
    (recordOf origin (opened.map (Position.moved before))).map
      (Location.relativeTo (.after before)) = recordOf origin opened := by
  cases opened with
  | none => rfl
  | some p =>
    simp only [recordOf, Option.map_some, Location.ofPosition_moved, Location.relativeTo_moved]

/-- **An offset at which a new session can take over**: from there on it gives the tokens of the
whole text that start there or later, and the open comment of the whole text, all as seen from that
offset. -/
structure ResumesAt (source : String) (origin : Option String) (config : Config) (n : ℕ) :
    Prop where
  /-- The offset lies in the text. -/
  le_length : n ≤ source.length
  /-- The tokens that are left are those of the new session. -/
  tokens_eq : tokenize (String.ofList (source.toList.drop n)) origin config =
    ((tokenize source origin config).filter fun t ↦ (n : ℤ) ≤ t.offset).map
      (Token.relativeTo (.after (source.toList.take n)))
  /-- So is the comment that is open at the end, if there is one. -/
  openComment_eq :
    (Session.ofSource (String.ofList (source.toList.drop n)) origin config).drain.2.openComment =
      (Session.ofSource source origin config).drain.2.openComment.map
        (Location.relativeTo (.after (source.toList.take n)))

/-- A new session can take over where the scan of a text is cut. -/
theorem resumesAt_of_scans {source : String} {origin : Option String} {config : Config}
    {before rest : List Char} {ts us : List Token} {opened : Option Position}
    (hsource : source.toList = before ++ rest) (htokens : tokenize source origin config = ts ++ us)
    (hrecord : (Session.ofSource source origin config).drain.2.openComment =
      Session.recordOf (Session.ofSource source origin config).originValue opened)
    (hts : Scan (Session.ofSource source origin config).originValue .start before ts none)
    (hus : Scan (Session.ofSource source origin config).originValue (.after before) rest us
      opened) :
    ResumesAt source origin config before.length := by
  obtain ⟨opened', rfl, hfresh⟩ := hus.exists_fresh
  obtain ⟨hnew, hrecord'⟩ := Session.drain_ofList_of_scan hfresh
  -- the tokens before the cut start before it, and the others do not
  have hfilter : ((ts ++ us).filter fun t ↦ (before.length : ℤ) ≤ t.offset) = us := by
    rw [List.filter_append, List.filter_eq_nil_iff.2, List.filter_eq_self.2, List.nil_append]
    · intro t ht
      have := (hus.bounds_of_mem ht).1
      simpa using this
    · intro t ht
      obtain ⟨-, hlt, hle⟩ := hts.bounds_of_mem ht
      simp only [Position.start] at hle
      simp only [decide_eq_true_eq]
      omega
  refine ⟨?_, ?_, ?_⟩
  · rw [← String.length_toList, hsource, List.length_append]
    exact Nat.le_add_right _ _
  · rw [hsource, List.drop_left, List.take_left, htokens, hfilter]
    exact hnew
  · rw [hsource, List.drop_left, List.take_left, hrecord, Session.recordOf_moved]
    exact hrecord'

/-- **A new session can take over at any token**, where it starts and where it ends. -/
theorem tokenize_resumes (source : String) (origin : Option String) (config : Config) {x : Token}
    (hx : x ∈ tokenize source origin config) :
    ∃ a b : ℕ, x.offset = a ∧ x.endOffset = b ∧ ResumesAt source origin config a ∧
      ResumesAt source origin config b := by
  obtain ⟨before, after, htokens⟩ := List.append_of_mem hx
  obtain ⟨opened, h, hrecord⟩ := scan_ofSource source origin config
  rw [htokens] at h
  obtain ⟨read, w, rest, k, hsource, hxeq, hread, hupto, hfrom, hbehind⟩ := h.around
  refine ⟨read.length, (read ++ w).length, ?_, ?_, ?_, ?_⟩
  · simp [hxeq, Token.ofLexeme, Position.start]
  · simp [hxeq, Token.ofLexeme, Position.start]
  · exact resumesAt_of_scans hsource htokens hrecord hread hfrom
  · rw [← List.append_assoc] at hsource
    rw [List.append_cons] at htokens
    exact resumesAt_of_scans hsource htokens hrecord hupto hbehind

/-- Taking over at a sign in the second line, and behind it: the line is now the first one, and the
open comment in it has its column counted from the sign. -/
theorem tokenize_resumes_sign :
    (⟨"+", .operator, 2, 2, 3, 4, .null⟩ : Token) ∈ tokenize "a\n +b /*" none .default ∧
      tokenize "+b /*" none .default =
        [⟨"+", .operator, 1, 1, 0, 1, .null⟩, ⟨"b", .identifier, 1, 2, 1, 2, .null⟩] ∧
      (Session.ofSource "+b /*" none .default).drain.2.openComment =
        some ⟨1, 4, 3, 3, none, none, .null⟩ ∧
      tokenize "b /*" none .default = [⟨"b", .identifier, 1, 1, 0, 1, .null⟩] := by
  have hmem : (⟨"+", .operator, 2, 2, 3, 4, .null⟩ : Token) ∈
      tokenize "a\n +b /*" none .default := by
    rw [show tokenize "a\n +b /*" none .default =
      [⟨"a", .identifier, 1, 1, 0, 1, .null⟩, ⟨"+", .operator, 2, 2, 3, 4, .null⟩,
        ⟨"b", .identifier, 2, 3, 4, 5, .null⟩] from rfl]
    simp
  obtain ⟨a, b, ha, hb, hstart, hend⟩ := tokenize_resumes "a\n +b /*" none .default hmem
  obtain rfl : a = 3 := Int.ofNat.inj ha.symm
  obtain rfl : b = 4 := Int.ofNat.inj hb.symm
  exact ⟨hmem, hstart.tokens_eq.trans rfl, hstart.openComment_eq.trans rfl,
    hend.tokens_eq.trans rfl⟩

end TokenScan
