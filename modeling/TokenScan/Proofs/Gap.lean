import TokenScan.Gap
import TokenScan.Proofs.Grammar

/-!
# Skipping passes exactly a gap

`skipGap` against the language of gaps. A text splits in one way into a gap and what follows it, and
skipping finds that split: what follows either starts no further gap (`Settled`) or is an open
comment, which is passed to its end and reported at its opening.

## The split, and the function on it

The split itself is a fact about texts (`exists_gap_append`): blanks and comments are peeled off the
front, and a comment is closed by the *first* closing delimiter behind its opening
(`exists_first_closer`), so its body holds none. What `skipFrom` does on each of the parts is one
equation each (`skipFrom_gap_append`, `skipFrom_of_settled`, `skipFrom_of_openComment`). The two
together say what skipping does on every text, and that the split is unique.

A body may end in a star, and the delimiter behind it opens with one. The two do not make a closing
delimiter before the real one, which is what the induction in `skipFrom_body_append` has to see.
-/

open scoped Computability

namespace TokenScan

open Grammar

namespace Grammar

/-! ### Building gaps -/

/-- **A text that starts no gap**: its first character is no blank, and it opens no comment. -/
def Settled (text : List Char) : Prop :=
  (∀ c, text.head? = some c → c ∉ blankChars) ∧ ¬ opener <+: text

theorem settled_nil : Settled [] := ⟨by simp, by simp [opener]⟩

theorem nil_mem_gap : [] ∈ gap := Language.nil_mem_kstar _

theorem append_mem_gap {g h : List Char} (hg : g ∈ gap) (hh : h ∈ gap) : g ++ h ∈ gap := by
  have hmul : g ++ h ∈ gap * gap := Language.append_mem_mul hg hh
  rwa [gap, kstar_mul_kstar] at hmul

theorem blank_mem_gap {c : Char} (hc : c ∈ blankChars) : [c] ∈ gap :=
  (le_kstar : blank + comment ≤ gap) (Or.inl ⟨c, hc, rfl⟩)

theorem comment_mem_gap {body : List Char} (hb : ¬ closer <:+: body) :
    opener ++ (body ++ closer) ∈ gap :=
  (le_kstar : blank + comment ≤ gap) (Or.inr ⟨body, hb, rfl⟩)

theorem blank_cons_mem_gap {c : Char} {g : List Char} (hc : c ∈ blankChars) (hg : g ∈ gap) :
    c :: g ∈ gap := append_mem_gap (blank_mem_gap hc) hg

theorem comment_append_mem_gap {body g : List Char} (hb : ¬ closer <:+: body) (hg : g ∈ gap) :
    opener ++ (body ++ (closer ++ g)) ∈ gap := by
  have h := append_mem_gap (comment_mem_gap hb) hg
  rwa [List.append_assoc, List.append_assoc] at h

/-- **Induction over gaps**: a gap is empty, a blank before a gap, or a closed comment before
one. -/
theorem gap_induction {motive : ∀ g, g ∈ gap → Prop} (nil : motive [] nil_mem_gap)
    (blank : ∀ c g (hc : c ∈ blankChars) (hg : g ∈ gap), motive g hg →
      motive (c :: g) (blank_cons_mem_gap hc hg))
    (comment : ∀ body g (hb : ¬ closer <:+: body) (hg : g ∈ gap), motive g hg →
      motive (opener ++ (body ++ (closer ++ g))) (comment_append_mem_gap hb hg))
    {g : List Char} (hg : g ∈ gap) : motive g hg := by
  obtain ⟨parts, rfl, hparts⟩ := Language.mem_kstar.1 hg
  induction parts with
  | nil => exact nil
  | cons part parts ih =>
    have htail : ∀ y ∈ parts, y ∈ Grammar.blank + Grammar.comment :=
      fun y hy ↦ hparts y (List.mem_cons_of_mem part hy)
    have hgap : parts.flatten ∈ gap := Language.join_mem_kstar htail
    rcases hparts part (by simp) with ⟨c, hc, rfl⟩ | ⟨body, hb, rfl⟩
    · exact blank c _ hc hgap (ih htail hgap)
    · have h := comment body _ hb hgap (ih htail hgap)
      simpa using h

/-- A gap that is not empty starts with a blank or a slash. -/
theorem mem_head_of_gap {g : List Char} (hg : g ∈ gap) : ∀ d ∈ g.head?, d ∈ '/' :: blankChars := by
  induction hg using gap_induction with
  | nil => simp
  | blank c g hc _ _ =>
    rintro d hd
    obtain rfl : c = d := Option.some.inj hd
    exact List.mem_cons_of_mem _ hc
  | comment body g _ _ _ =>
    rintro d hd
    obtain rfl : '/' = d := Option.some.inj hd
    exact List.mem_cons_self

/-! ### Splitting a text -/

/-- A text that holds a closing delimiter has a first one: the text before it holds none. -/
theorem exists_first_closer {text : List Char} (h : closer <:+: text) :
    ∃ body rest, ¬ closer <:+: body ∧ text = body ++ (closer ++ rest) := by
  induction text with
  | nil => exact absurd (List.infix_nil.1 h) (by simp [closer])
  | cons c text ih =>
    -- the first one stands here, or it is the first one of the tail
    by_cases hfirst : closer <+: c :: text
    · obtain ⟨rest, hrest⟩ := hfirst
      exact ⟨[], rest, by simp [closer], hrest.symm⟩
    · obtain ⟨body, rest, hbody, rfl⟩ := ih ((List.infix_cons_iff.1 h).resolve_left hfirst)
      refine ⟨c :: body, rest, ?_, rfl⟩
      rw [List.infix_cons_iff, not_or]
      exact ⟨fun hp ↦ hfirst (hp.trans ⟨closer ++ rest, rfl⟩), hbody⟩

/-- **Every text is a gap and what follows it**: a text that starts no gap, or an open comment. -/
theorem exists_gap_append (text : List Char) :
    ∃ g rest, g ∈ gap ∧ text = g ++ rest ∧ (Settled rest ∨ rest ∈ openComment) := by
  induction hn : text.length using Nat.strong_induction_on generalizing text with
  | _ n ih =>
    subst hn
    by_cases hopen : opener <+: text
    · obtain ⟨r, rfl⟩ := hopen
      -- a comment that is never closed is all that is left of the text
      by_cases hclosed : closer <:+: r
      · obtain ⟨body, text, hbody, rfl⟩ := exists_first_closer hclosed
        have hlen : text.length < (opener ++ (body ++ (closer ++ text))).length := by
          simp only [opener, closer, List.length_append, List.length_cons]
          omega
        obtain ⟨g, rest, hg, rfl, hrest⟩ := ih text.length hlen text rfl
        exact ⟨_, rest, comment_append_mem_gap hbody hg, by simp, hrest⟩
      · exact ⟨[], _, nil_mem_gap, rfl, Or.inr ⟨r, hclosed, rfl⟩⟩
    · cases text with
      | nil => exact ⟨[], [], nil_mem_gap, rfl, Or.inl settled_nil⟩
      | cons c text =>
        by_cases hc : c ∈ blankChars
        · obtain ⟨g, rest, hg, rfl, hrest⟩ := ih text.length (by simp) text rfl
          exact ⟨c :: g, rest, blank_cons_mem_gap hc hg, rfl, hrest⟩
        · refine ⟨[], c :: text, nil_mem_gap, rfl, Or.inl ⟨fun x hx ↦ ?_, hopen⟩⟩
          obtain rfl := Option.some.inj hx
          exact hc

end Grammar

/-! ### What skipping does -/

section Skip

variable {p o : Position} {c : Char} {text body g rest : List Char}

theorem skipFrom_opener : skipFrom none p (opener ++ text) =
    skipFrom (some p) (p.advanceOver opener) text := by
  simp [opener, skipFrom]

theorem skipFrom_closer : skipFrom (some o) p (closer ++ text) =
    skipFrom none (p.advanceOver closer) text := by
  simp [closer, skipFrom]

/-- Between comments, a character that opens none is passed if it is a blank. -/
theorem skipFrom_none_cons (h : ¬ opener <+: c :: text) :
    skipFrom none p (c :: text) =
      if isBlank c then skipFrom none (p.advance c) text else ⟨⟨p, c :: text⟩, none⟩ := by
  rw [skipFrom]
  intro cs hc htext
  exact h (by simp [opener, hc, htext])

/-- Inside a comment, a character that closes none is passed. -/
theorem skipFrom_some_cons (h : ¬ closer <+: c :: text) :
    skipFrom (some o) p (c :: text) = skipFrom (some o) (p.advance c) text := by
  rw [skipFrom]
  intro cs hc htext
  exact h (by simp [closer, hc, htext])

/-- A comment is passed from its body on to behind its closing delimiter. -/
theorem skipFrom_body_append (hb : ¬ closer <:+: body) :
    skipFrom (some o) p (body ++ (closer ++ rest)) =
      skipFrom none (p.advanceOver (body ++ closer)) rest := by
  induction body generalizing p with
  | nil => exact skipFrom_closer
  | cons c body ih =>
    rw [List.infix_cons_iff, not_or] at hb
    have hnot : ¬ closer <+: c :: (body ++ (closer ++ rest)) := by
      intro hp
      -- the second character of a closing delimiter here would be in the body or be a star
      cases body with
      | nil => simp [closer] at hp
      | cons d body => exact hb.1 (by simpa [closer] using hp)
    rw [List.cons_append, skipFrom_some_cons hnot, ih hb.2]
    rfl

/-- A comment that is not closed is passed to the end, and keeps its opening as the report. -/
theorem skipFrom_some_of_not_closer (h : ¬ closer <:+: text) :
    skipFrom (some o) p text = ⟨⟨p.advanceOver text, []⟩, some o⟩ := by
  induction text generalizing p with
  | nil => simp [skipFrom]
  | cons c text ih =>
    rw [List.infix_cons_iff, not_or] at h
    rw [skipFrom_some_cons h.1, ih h.2]
    rfl

/-- **A gap is passed**, and skipping goes on behind it. -/
theorem skipFrom_gap_append (hg : g ∈ gap) :
    skipFrom none p (g ++ rest) = skipFrom none (p.advanceOver g) rest := by
  induction hg using gap_induction generalizing p with
  | nil => rfl
  | blank c g hc _ ih =>
    have hopen : ¬ opener <+: c :: (g ++ rest) := by
      intro hp
      obtain ⟨rfl, -⟩ := List.cons_prefix_cons.1 hp
      exact absurd hc (by decide)
    rw [List.cons_append, skipFrom_none_cons hopen, if_pos (isBlank_iff.2 hc), ih]
    rfl
  | comment body g hb _ ih =>
    rw [List.append_assoc, List.append_assoc, List.append_assoc, skipFrom_opener,
      skipFrom_body_append hb, ih, ← Position.advanceOver_append, ← Position.advanceOver_append,
      List.append_assoc]

/-- **Skipping stops at once** where no gap starts. -/
theorem skipFrom_of_settled (h : Settled text) : skipFrom none p text = ⟨⟨p, text⟩, none⟩ := by
  cases text with
  | nil => simp [skipFrom]
  | cons c text =>
    have hc : ¬ isBlank c = true := fun hb ↦ h.1 c rfl (isBlank_iff.1 hb)
    rw [skipFrom_none_cons h.2, if_neg hc]

/-- A text that is all gap is passed to the end. -/
theorem skipFrom_of_gap (hg : g ∈ gap) : skipFrom none p g = ⟨⟨p.advanceOver g, []⟩, none⟩ := by
  have h : skipFrom none p (g ++ []) = skipFrom none (p.advanceOver g) [] := skipFrom_gap_append hg
  rwa [List.append_nil, skipFrom_of_settled settled_nil] at h

/-- **An open comment is passed to the end** and reported where it opens. -/
theorem skipFrom_of_openComment (h : text ∈ openComment) :
    skipFrom none p text = ⟨⟨p.advanceOver text, []⟩, some p⟩ := by
  obtain ⟨body, hb, rfl⟩ := h
  rw [skipFrom_opener, skipFrom_some_of_not_closer hb, ← Position.advanceOver_append]

end Skip

end TokenScan
