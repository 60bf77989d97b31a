import TokenScan.Proofs.Session.Pull

/-!
# A lexeme while it grows

Between two steps the recognizer has part of a lexeme, and `growing_lexeme` says which part. It is
the text from where the lexeme starts up to the cursor, and the state tells what it looks like
(`State.Admits`): in each phase it is one of the texts that the grammar lets begin there, without a
category yet, and when it is done it has a category and is a lexeme of it.

## Two invariants, on different grounds

* *The lexeme is a slice of the text.* Every step that moves the cursor takes the character that it
  moves over (`Spans.step`). This needs to know nothing about phases.
* *The state knows the lexeme.* This is the soundness of recognizers (`Recognizer.Sound`), said once
  more by the grammar alone (`Phase.begun`). Behind a sign, a point is taken on the strength of the
  digit behind it, and until that digit is taken the lexeme is no number; so what is begun with a
  fraction depends on the next unread character.

Both are carried along a session by how it comes to recognize a lexeme: it begins one, or goes on
with one by a step of its phase (`recognizer_of_steps`). In the other direction, every token that a
session answers with was once a lexeme that is done (`Reachable.exists_done`); so what holds in that
state holds of all tokens, and a number without a digit is not among them.
-/

open scoped Computability

namespace TokenScan

open Grammar

/-! ### What a state says of the lexeme -/

namespace Phase

/-- **What may have been read of a lexeme in a phase**, given the next unread character. The latter
matters behind a sign and a point only. -/
def begun (next : Option Char) : Phase → Language Char
  | start => 1
  | word => Grammar.word
  | integer => sign * numeral
  | fraction =>
    sign * (numeral * (literal "." * digit∗)) + sign * (literal "." * numeral) +
      if next.any Char.isDigit then literal "+." + literal "-." else 0
  | point => literal "."
  | plus => literal "+"
  | minus => literal "-"
  | symbol => literal "*" + literal "/" + literal "="

/-- What a phase remembers is what the grammar lets begin there. -/
theorem mem_begun_of_seen {p : Phase} {lexeme : List Char} {next : Option Char}
    (h : p.Seen lexeme next) : lexeme ∈ p.begun next := by
  cases p with
  | start => exact h.1
  | word => exact h
  | integer => exact h
  | fraction =>
    rw [begun, ← mul_add]
    rcases h with h | ⟨hpoint, d, rfl, hdigit⟩
    · exact Or.inl h
    · refine Or.inr ?_
      rw [if_pos (by simpa using hdigit)]
      exact hpoint
  | point => exact h
  | plus => exact h
  | minus => exact h
  | symbol =>
    obtain ⟨c, hc, rfl⟩ := h
    simp only [symbols, List.mem_cons, List.not_mem_nil, or_false] at hc
    rcases hc with rfl | rfl | rfl
    · exact Or.inl (Or.inl rfl)
    · exact Or.inl (Or.inr rfl)
    · exact Or.inr rfl

end Phase

/-- **What a state says of a lexeme and its category**: in a phase, that it has begun and has no
category; when it is done, that it is a lexeme of its category. A stray value admits nothing. -/
def State.Admits (lexeme : List Char) (category : Option Category) (next : Option Char) :
    State → Prop
  | .scanning p => category = none ∧ lexeme ∈ p.begun next
  | .done => ∃ k, category = some k ∧ lexeme ∈ k.language
  | .stray _ => False

namespace Recognizer

variable {r : Recognizer} {text : List Char}

/-- A sound recognizer is in a state that admits its lexeme. -/
theorem Sound.admits (h : r.Sound) :
    r.state.Admits r.lexeme.toList r.category r.cursor.rest.head? := by
  rcases hstate : r.state with p | _ | v
  · obtain ⟨hseen, hnone, -⟩ := h.of_scanning hstate
    exact ⟨hnone, Phase.mem_begun_of_seen hseen⟩
  · exact h.of_done hstate
  · exact absurd hstate h.not_stray

/-! ### The lexeme as a slice -/

/-- **The lexeme fills the text between its start and the cursor.** -/
def Spans (text : List Char) (r : Recognizer) : Prop :=
  ∃ before, text = before ++ (r.lexeme.toList ++ r.cursor.rest) ∧ r.saved = .after before

/-- A lexeme that has just begun fills nothing, from the cursor to the cursor. -/
theorem spans_begin (h : r.cursor.Within text) : r.begin.Spans text := by
  obtain ⟨before, htext, hp⟩ := h
  exact ⟨before, htext, hp⟩

/-- **A step keeps the lexeme filled**: what it moves over, it takes. -/
theorem Spans.step (h : r.Spans text) (p : Phase) : (r.step p).Spans text := by
  obtain ⟨before, htext, hsaved⟩ := h
  rcases hr : r.cursor.rest with _ | ⟨c, rest⟩
  · rw [step_of_nil hr]
    exact ⟨before, htext, hsaved⟩
  · have htaken : text = before ++ ((r.lexeme.push c).toList ++ rest) := by
      rw [htext, hr, String.toList_push, List.append_assoc]
      rfl
    rcases hm : p.move c rest.head? with q | k | _
    · rw [step_of_shift hr hm]
      exact ⟨before, htaken, hsaved⟩
    · rw [step_of_last hr hm]
      exact ⟨before, htaken, hsaved⟩
    · rw [step_of_stop hr hm]
      exact ⟨before, htext, hsaved⟩

/-- The cursor stands as far behind the start of the lexeme as the lexeme is long. -/
theorem Spans.offset_eq (h : r.Spans text) (hc : r.cursor.Within text) :
    r.cursor.position.offset = r.saved.offset + r.lexeme.toList.length := by
  obtain ⟨before, htext, hsaved⟩ := h
  have hlength := hc.offset_add_length
  rw [htext, List.length_append, List.length_append] at hlength
  rw [hsaved, Position.offset_after]
  omega

theorem Spans.lexeme_eq (h : r.Spans text) (hc : r.cursor.Within text) :
    r.lexeme.toList = text.extract r.saved.offset r.cursor.position.offset := by
  rw [h.offset_eq hc]
  obtain ⟨before, rfl, hsaved⟩ := h
  rw [hsaved, Position.offset_after]
  exact (extract_and_drop_of_drop_eq List.drop_left).1.symm

/-- **What a recognizer has of a text** in the middle of a lexeme. -/
structure Grows (text : List Char) (r : Recognizer) : Prop where
  /-- The lexeme does not start behind the cursor. -/
  saved_le : r.saved.offset ≤ r.cursor.position.offset
  /-- It is the text from where it starts up to the cursor. -/
  lexeme_eq : r.lexeme.toList = text.extract r.saved.offset r.cursor.position.offset
  /-- It looks as its state says, before the next character of the text. -/
  admits : r.state.Admits r.lexeme.toList r.category text[r.cursor.position.offset]?

end Recognizer

/-! ### Moments -/

namespace Moment

variable {m m' : Moment} {source : String} {origin : Option String} {config : Config}

/-- Behind a gap a session recognizes a lexeme only if it begins one. -/
theorem recognizer_behindGap {s : Session} {behind : Option Token}
    (h : (behindGap s behind).stage = .lexeme) :
    (behindGap s behind).session.recognizer = s.recognizer.begin := by
  cases behind with
  | none =>
    unfold behindGap at h ⊢
    split_ifs at h ⊢
    rfl
  | some t => exact absurd h nofun

/-- **How a session comes to recognize a lexeme**: it begins one where it stands, or it goes on with
one by a step of its phase. -/
theorem recognizer_of_steps (h : m.Steps m') (hstage : m'.stage = .lexeme) :
    m'.session.recognizer = m.session.recognizer.begin ∨
      m.stage = .lexeme ∧ ∃ p, m'.session.recognizer = m.session.recognizer.step p := by
  obtain ⟨s, stage⟩ := m
  cases stage with
  | idle answer =>
    obtain rfl : request s = m' := Except.ok.inj h
    refine Or.inl ?_
    unfold request at hstage ⊢
    split_ifs at hstage ⊢
    rfl
  | gap behind place =>
    obtain rfl : stepGap s behind place = m' := Except.ok.inj h
    refine Or.inl ?_
    unfold stepGap at hstage ⊢
    split at hstage
    · exact absurd hstage nofun
    · rw [recognizer_behindGap hstage, s.recognizer_report]
  | lexeme =>
    obtain ⟨p, -, rfl⟩ | ⟨-, rfl⟩ := stepLexeme_cases h
    · exact Or.inr ⟨rfl, p, rfl⟩
    · exact absurd hstage nofun

/-- **A lexeme always fills the source** from where it starts up to the cursor. -/
theorem Reachable.spans (h : Reachable source origin config m) (hstage : m.stage = .lexeme) :
    m.session.recognizer.Spans source.toList := by
  induction h with
  | refl => exact absurd hstage nofun
  | tail hreach hstep ih =>
    rcases recognizer_of_steps hstep hstage with hbegin | ⟨hlexeme, p, hnext⟩
    · rw [hbegin]
      exact Recognizer.spans_begin (Reachable.within hreach)
    · rw [hnext]
      exact (ih hlexeme).step p

/-- **Every lexeme grows out of the source**, in a state that admits it. -/
theorem Reachable.grows (h : Reachable source origin config m) (hstage : m.stage = .lexeme) :
    m.session.recognizer.Grows source.toList where
  saved_le := by
    rw [(h.spans hstage).offset_eq h.within]
    exact Nat.le_add_right _ _
  lexeme_eq := (h.spans hstage).lexeme_eq h.within
  admits := by
    have hnext : source.toList[m.session.recognizer.cursor.position.offset]? =
        m.session.recognizer.cursor.rest.head? := h.within.getElem?_offset
    rw [hnext]
    exact (h.sound.recognizer hstage).admits

/-! ### Where tokens come from -/

/-- The token that a session has answered with, or will answer with behind a gap. -/
def token? (m : Moment) : Option Token :=
  match m.stage with
  | .idle answer => answer
  | .gap behind _ => behind
  | .lexeme => none

theorem token?_behindGap (s : Session) (behind : Option Token) :
    (behindGap s behind).token? = behind := by
  cases behind with
  | none =>
    unfold behindGap
    split_ifs
    · rfl
    · rfl
  | some t => rfl

/-- **How a session comes to a token**: it had that token before, or the token is of a lexeme that
is done. -/
theorem token?_of_steps {t : Token} (h : m.Steps m') (ht : m'.token? = some t) :
    m.token? = some t ∨
      m.stage = .lexeme ∧ m.session.recognizer.state = .done ∧ m.session.token = t := by
  obtain ⟨s, stage⟩ := m
  cases stage with
  | idle answer =>
    obtain rfl : request s = m' := Except.ok.inj h
    unfold request at ht
    split_ifs at ht
    all_goals exact absurd ht nofun
  | gap behind place =>
    obtain rfl : stepGap s behind place = m' := Except.ok.inj h
    refine Or.inl ?_
    unfold stepGap at ht
    split at ht
    · exact ht
    · rwa [token?_behindGap] at ht
  | lexeme =>
    obtain ⟨p, -, rfl⟩ | ⟨hdone, rfl⟩ := stepLexeme_cases h
    · exact absurd ht nofun
    · exact Or.inr ⟨rfl, hdone, Option.some.inj ht⟩

/-- **Every token is of a lexeme that was done** at some moment. -/
theorem Reachable.exists_done {t : Token} (h : Reachable source origin config m)
    (ht : m.token? = some t) :
    ∃ d, Reachable source origin config d ∧ d.stage = .lexeme ∧
      d.session.recognizer.state = .done ∧ d.session.token = t := by
  induction h with
  | refl => exact absurd ht nofun
  | tail hreach hstep ih =>
    rcases token?_of_steps hstep ht with hbefore | hdone
    · exact ih hbefore
    · exact ⟨_, hreach, hdone⟩

end Moment

/-- The tokens of a text are those of the lexemes that are done while it is scanned. -/
theorem exists_done_of_mem_tokenize {source : String} {origin : Option String} {config : Config}
    {t : Token} (ht : t ∈ tokenize source origin config) :
    ∃ m, Moment.Reachable source origin config m ∧ m.stage = .lexeme ∧
      m.session.recognizer.state = .done ∧ m.session.token = t := by
  obtain ⟨k, hk⟩ := List.mem_iff_getElem?.1 ht
  obtain ⟨answer, hreach⟩ := Moment.reachable_pull source origin config k
  refine hreach.next.exists_done (t := t) ?_
  show ((Session.ofSource source origin config).pull k).2.next.1 = some t
  rw [Session.next_pull_fst]
  exact hk

/-- **What a lexeme is while it grows.** At every moment at which a session recognizes a lexeme, the
lexeme is the source from where it starts up to the cursor, and it looks as its state says: begun in
its phase and without a category, or done and a lexeme of its category. The tokens of the source are
those of the lexemes that are done, and every number among them holds a digit. -/
theorem growing_lexeme (source : String) (origin : Option String) (config : Config) :
    (∀ m, Moment.Reachable source origin config m → m.stage = .lexeme →
      m.session.recognizer.Grows source.toList) ∧
      ∀ t ∈ tokenize source origin config,
        (∃ m, Moment.Reachable source origin config m ∧ m.stage = .lexeme ∧
          m.session.recognizer.state = .done ∧ m.session.token = t) ∧
          (t.category = .number → ∃ d ∈ t.lexeme.toList, d.isDigit = true) := by
  refine ⟨fun m hm hstage ↦ hm.grows hstage, fun t ht ↦ ?_⟩
  obtain ⟨m, hm, hstage, hdone, rfl⟩ := exists_done_of_mem_tokenize ht
  refine ⟨⟨m, hm, hstage, hdone, rfl⟩, fun hnumber ↦ ?_⟩
  have hadmits := (hm.grows hstage).admits
  rw [hdone] at hadmits
  obtain ⟨k, hk, hmem⟩ := hadmits
  -- the category of the token is that of the lexeme, which therefore is a number
  obtain rfl : k = .number := by
    simpa [Session.token, hk] using hnumber
  exact exists_isDigit_of_mem_number hmem

/-- Behind an operator, a sign and a point are read on the strength of the digit behind them; the
token that they come to holds it. -/
theorem growing_lexeme_promised :
    (∃ m, Moment.Reachable "*-.5" none .default m ∧ m.stage = .lexeme ∧
      m.session.recognizer.state = .scanning .fraction ∧ m.session.recognizer.lexeme = "-." ∧
        m.session.recognizer.Grows "*-.5".toList) ∧
      (⟨"-.5", .number, 1, 2, 1, 4, .null⟩ : Token) ∈ tokenize "*-.5" none .default ∧
        ∃ d ∈ "-.5".toList, d.isDigit = true := by
  have hreach : Moment.Reachable "*-.5" none .default _ :=
    .tail (.tail (.tail (.tail (.tail (.tail (.tail (.tail (.tail .refl
      rfl) rfl) rfl) rfl) rfl) rfl) rfl) rfl) rfl
  have hmem : (⟨"-.5", .number, 1, 2, 1, 4, .null⟩ : Token) ∈ tokenize "*-.5" none .default :=
    List.mem_cons_of_mem _ (List.mem_singleton.2 rfl)
  obtain ⟨hmoments, htokens⟩ := growing_lexeme "*-.5" none .default
  exact ⟨⟨_, hreach, rfl, rfl, rfl, hmoments _ hreach rfl⟩, hmem, (htokens _ hmem).2 rfl⟩

end TokenScan
