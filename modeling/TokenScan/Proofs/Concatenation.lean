import TokenScan.Proofs.Moving
import TokenScan.Proofs.Seam

/-!
# Scanning distributes over concatenation

Two texts with a gap between them are scanned as if each were alone: the tokens of the whole are
those of the first text, and then those of the second at their moved places
(`tokenize_append_gap`). A comment that is open at the end can only be one of the second text.

Nothing about runs is needed. The gap separates, so the scan of the first text goes on into what
follows (`Scan.append`); and the scan of the second is the scan of a text at another place
(`Scan.moved`). The one condition is that the first text leaves no comment open, which would reach
into the gap and beyond.
-/

namespace TokenScan

open Grammar

/-- **Scanning distributes over concatenation.** If a session over a first text records no open
comment, then a second text behind it and a gap that is not empty gives the tokens of the first and
the moved tokens of the second, and the record of the second, moved as well. -/
theorem tokenize_append_gap (first second : String) (g : List Char) (origin : Option String)
    (config : Config) (hg : g ∈ gap) (hne : g ≠ [])
    (hclosed : (Session.ofSource first origin config).drain.2.openComment = none) :
    tokenize (first ++ String.ofList g ++ second) origin config =
        tokenize first origin config ++
          (tokenize second origin config).map (Token.moved (first.toList ++ g)) ∧
      (Session.ofSource (first ++ String.ofList g ++ second) origin
          config).drain.2.openComment =
        (Session.ofSource second origin config).drain.2.openComment.map
          (Location.moved (first.toList ++ g)) := by
  obtain ⟨opened₁, h₁, hrecord₁⟩ := scan_ofSource first origin config
  obtain ⟨opened₂, h₂, hrecord₂⟩ := scan_ofSource second origin config
  -- no record means that the scan of the first text leaves nothing open
  rw [hrecord₁, Session.recordOf, Option.map_eq_none_iff] at hclosed
  subst hclosed
  have hmoved := h₂.moved (Nat.le_refl 1) (first.toList ++ g)
  rw [Position.moved_start, Position.after_append] at hmoved
  have hseparates : ∀ d ∈ (g ++ second.toList).head?, Separates d := by
    rw [List.head?_append_of_ne_nil _ hne]
    exact separates_of_mem_gap hg
  have htext : (first ++ String.ofList g ++ second).toList =
      first.toList ++ (g ++ second.toList) := by
    simp
  have hwhole := h₁.append hseparates (hmoved.gap_append hg)
  rw [← htext] at hwhole
  -- sessions over the three texts hold the same name for them
  change Scan (Session.ofSource (first ++ String.ofList g ++ second) origin config).originValue
    _ _ _ _ at hwhole
  obtain ⟨htokens, hrecord⟩ := Session.drain_ofSource_of_scan hwhole
  refine ⟨htokens, ?_⟩
  rw [hrecord, hrecord₂]
  simp only [Session.recordOf, Option.map_map]
  exact congrArg (opened₂.map ·) (funext fun p ↦ Location.ofPosition_moved _ _ p)

/-- A sign before a comment and a point behind it stay apart, and the line feed inside the comment
moves both the tokens and the open comment behind it. -/
theorem tokenize_append_gap_sign :
    opener ++ (['\n'] ++ closer) ∈ gap ∧
      (Session.ofSource "a-" none .default).drain.2.openComment = none ∧
      tokenize "a-/*\n*/.5 c\n/*" none .default =
        [⟨"a", .identifier, 1, 1, 0, 1, .null⟩, ⟨"-", .operator, 1, 2, 1, 2, .null⟩,
          ⟨".5", .number, 2, 3, 7, 9, .null⟩, ⟨"c", .identifier, 2, 6, 10, 11, .null⟩] ∧
      (Session.ofSource "a-/*\n*/.5 c\n/*" none .default).drain.2.openComment =
        some ⟨3, 1, 12, 12, none, none, .null⟩ := by
  have hgap : opener ++ (['\n'] ++ closer) ∈ gap := comment_mem_gap (by decide)
  have hclosed : (Session.ofSource "a-" none .default).drain.2.openComment = none := rfl
  have h := tokenize_append_gap "a-" ".5 c\n/*" _ none .default hgap (by decide) hclosed
  exact ⟨hgap, hclosed, h.1.trans rfl, h.2.trans rfl⟩

end TokenScan
