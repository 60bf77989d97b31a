import TokenScan.Proofs.Session.Pull
import TokenScan.Proofs.Session.Scan

/-!
# Every session comes to its end

What can be asked of a session never fails and never hangs. `Moment.Safe` lists what holds at each
moment on the way, from the single steps alone: the next step exists, it does not move the cursor
back, the first phase gets a character that may start a lexeme, and the lexeme it leads to is done
after finitely many steps, with a category and at least one character.

`session_progress` adds what holds of whole requests. Each one is answered after finitely many
steps; a token moves the cursor on; and there are at most as many tokens as characters, behind which
the answer is none and the cursor stands at the very end.
-/

namespace TokenScan

open Grammar

namespace Recognizer

variable {r : Recognizer}

/-- A sound recognizer in the first phase stands before the first character of a lexeme. -/
theorem Sound.start_unread (h : r.Sound) (hstart : r.state = .scanning .start) :
    ∃ c rest, r.cursor.rest = c :: rest ∧ c ∉ blankChars ∧ ¬ opener <+: c :: rest := by
  obtain ⟨⟨-, c, hhead, hblank⟩, -, hsettled⟩ := h.of_scanning hstart
  obtain ⟨rest, hrest⟩ := List.head?_eq_some_iff.1 hhead
  have hopen := (hsettled rfl).2
  rw [hrest] at hopen
  exact ⟨c, rest, hrest, hblank, hopen⟩

/-- A sound recognizer that is done has recognized something. -/
theorem Sound.done_complete (h : r.Sound) (hdone : r.state = .done) :
    (∃ k, r.category = some k) ∧ r.lexeme ≠ "" := by
  obtain ⟨k, hk, hmem⟩ := h.of_done hdone
  refine ⟨⟨k, hk⟩, fun hempty ↦ ?_⟩
  rw [hempty] at hmem
  exact ne_nil_of_mem_lexeme ⟨k, hmem⟩ rfl

end Recognizer

/-! ### Moments -/

namespace Moment

/-- **A moment at which nothing goes wrong**, of a session over a text of some length. -/
structure Safe (length : ℕ) (m : Moment) : Prop where
  /-- The next step does not fail. -/
  exists_steps : ∃ m', m.Steps m'
  /-- It does not move the cursor back. -/
  offset_le : ∀ m', m.Steps m' → m.cursor.position.offset ≤ m'.cursor.position.offset
  /-- The cursor does not lie behind the end. -/
  offset_le_length : m.cursor.position.offset ≤ length
  /-- The first phase is asked for a step only before a character that is no blank and does not
  open a comment. -/
  start_unread : m.stage = .lexeme → m.session.recognizer.state = .scanning .start →
    ∃ c rest, m.cursor.rest = c :: rest ∧ c ∉ blankChars ∧ ¬ opener <+: c :: rest
  /-- A lexeme that is done has a category and is not empty. -/
  done_complete : m.stage = .lexeme → m.session.recognizer.state = .done →
    (∃ k, m.session.recognizer.category = some k) ∧ m.session.recognizer.lexeme ≠ ""
  /-- A lexeme that has been started is done after finitely many steps, and then it has a category
  and is not empty. -/
  leads_done : m.stage = .lexeme → ∃ recognizer : Recognizer,
    Relation.ReflTransGen Works m ⟨{ m.session with recognizer }, .lexeme⟩ ∧
      recognizer.state = .done ∧ (∃ k, recognizer.category = some k) ∧ recognizer.lexeme ≠ ""

variable {m m' : Moment} {source : String} {origin : Option String} {config : Config}

theorem offset_le_of_steps (h : m.Steps m') :
    m.cursor.position.offset ≤ m'.cursor.position.offset := by
  rcases cursor_of_steps h with hc | hc
  · rw [hc]
  · rw [hc]
    exact m.cursor.offset_le_advance

/-- What holds at a sound moment holds after any work for a request. -/
theorem Sound.leads (h : m.Sound) (hwork : Relation.ReflTransGen Works m m') : m'.Sound := by
  induction hwork with
  | refl => exact h
  | tail _ hworks ih => exact ih.steps hworks.2

/-- A lexeme is done after finitely many steps, and complete. -/
theorem Sound.leads_done (h : m.Sound) (hstage : m.stage = .lexeme) :
    ∃ recognizer : Recognizer,
      Relation.ReflTransGen Works m ⟨{ m.session with recognizer }, .lexeme⟩ ∧
        recognizer.state = .done ∧ (∃ k, recognizer.category = some k) ∧
          recognizer.lexeme ≠ "" := by
  obtain ⟨s, stage⟩ := m
  obtain rfl : stage = .lexeme := hstage
  rcases hstate : s.recognizer.state with p | _ | v
  · have hleads := leads_settle s hstate
    have hdone := (Recognizer.settle_of_scanning hstate).1
    have hsound := (h.leads hleads).recognizer rfl
    exact ⟨_, hleads, hdone, hsound.done_complete hdone⟩
  · exact ⟨s.recognizer, .refl, hstate, (h.recognizer rfl).done_complete hstate⟩
  · exact absurd hstate (h.recognizer rfl).not_stray

/-- **Nothing goes wrong at any moment** of a session. -/
theorem Reachable.safe (h : Reachable source origin config m) : m.Safe source.length where
  exists_steps := h.sound.exists_steps
  offset_le _ hstep := offset_le_of_steps hstep
  offset_le_length := by
    rw [← String.length_toList]
    exact h.within.agrees.offset_le
  start_unread hstage hstart := (h.sound.recognizer hstage).start_unread hstart
  done_complete hstage hdone := (h.sound.recognizer hstage).done_complete hdone
  leads_done hstage := h.sound.leads_done hstage

end Moment

/-! ### Requests -/

/-- **A request that makes progress.** -/
structure Session.Progresses (s : Session) : Prop where
  /-- It is answered after finitely many steps, with what `Session.next` gives. -/
  answered : ∀ answer, ∃ m, Moment.Steps ⟨s, .idle answer⟩ m ∧
    Relation.ReflTransGen Moment.Works m ⟨s.next.2, .idle s.next.1⟩
  /-- It does not move the cursor back. -/
  offset_le : s.cursor.position.offset ≤ s.next.2.cursor.position.offset
  /-- A token moves the cursor on. -/
  offset_lt : s.next.1.isSome = true →
    s.cursor.position.offset < s.next.2.cursor.position.offset

/-- A session that stands within its text, and does so behind the next request, makes progress with
it. -/
theorem Session.progresses_of_within {s : Session} {text : List Char} (h : s.cursor.Within text)
    (hnext : s.next.2.cursor.Within text) : s.Progresses := by
  have hsum := h.offset_add_length
  have hsum' := hnext.offset_add_length
  have hlt : s.next.1.isSome = true →
      s.cursor.position.offset < s.next.2.cursor.position.offset := by
    intro hsome
    obtain ⟨t, ht⟩ := Option.isSome_iff_exists.1 hsome
    have := s.length_rest_next_lt ht
    omega
  refine ⟨Moment.leads_next s, ?_, hlt⟩
  rcases hanswer : s.next.1 with _ | t
  · -- without a token the request has come to the end
    rw [hnext.offset_of_atEnd (s.atEnd_of_next_eq_none hanswer)]
    omega
  · exact (hlt (by rw [hanswer]; rfl)).le

/-- **Every session comes to its end.** Nothing goes wrong at any moment of it, and every request
makes progress. After at most as many tokens as there are characters the answer is none, with the
cursor at the end of the source. -/
theorem session_progress (source : String) (origin : Option String) (config : Config) :
    (∀ m, Moment.Reachable source origin config m → m.Safe source.length) ∧
      (∀ k, (∃ answer, Moment.Reachable source origin config
          ⟨((Session.ofSource source origin config).pull k).2, .idle answer⟩) ∧
        ((Session.ofSource source origin config).pull k).2.Progresses) ∧
      ∃ n ≤ source.length,
        (∀ k < n, ((Session.ofSource source origin config).pull k).2.next.1.isSome = true) ∧
          ((Session.ofSource source origin config).pull n).2.next.1 = none ∧
            ((Session.ofSource source origin config).pull n).2.next.2.cursor.position.offset =
              source.length := by
  set s := Session.ofSource source origin config with hs
  have hwithin (k : ℕ) : (s.pull k).2.cursor.Within source.toList ∧
      (s.pull k).2.next.2.cursor.Within source.toList := by
    obtain ⟨answer, hreach⟩ := Moment.reachable_pull source origin config k
    exact ⟨hreach.within, hreach.next.within⟩
  have hanswer (k : ℕ) : (s.pull k).2.next.1 = (tokenize source origin config)[k]? := by
    rw [Session.next_fst, Session.drain_pull, List.head?_drop]
    rfl
  refine ⟨fun m hm ↦ hm.safe, fun k ↦ ⟨Moment.reachable_pull source origin config k, ?_⟩, ?_⟩
  · exact Session.progresses_of_within (hwithin k).1 (hwithin k).2
  · obtain ⟨opened, hscan⟩ := scan_tokenize source origin config
    have hnone : (s.pull (tokenize source origin config).length).2.next.1 = none := by
      rw [hanswer, List.getElem?_eq_none (Nat.le_refl _)]
    refine ⟨(tokenize source origin config).length, ?_, fun k hk ↦ ?_, hnone, ?_⟩
    · rw [← String.length_toList]
      exact hscan.length_le
    · rw [hanswer, List.getElem?_eq_getElem hk]
      rfl
    · rw [(hwithin _).2.offset_of_atEnd (Session.atEnd_of_next_eq_none _ hnone),
        String.length_toList]

/-- Behind a comment and before the sign of a number the first phase is asked for a step, and the
lexeme that it starts is done in the end. -/
theorem session_progress_signed :
    ∃ m, Moment.Reachable "/**/-.5" none .default m ∧ m.stage = .lexeme ∧
      m.session.recognizer.state = .scanning .start ∧ m.Safe 7 := by
  have h : Moment.Reachable "/**/-.5" none .default _ :=
    .tail (.tail (.tail (.tail (.tail (.tail .refl rfl) rfl) rfl) rfl) rfl) rfl
  exact ⟨_, h, rfl, rfl, (session_progress "/**/-.5" none .default).1 _ h⟩

end TokenScan
