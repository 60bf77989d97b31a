import TokenScan.Proofs.Position
import TokenScan.Proofs.Session.Moment

/-!
# What holds at every moment of a session

Two invariants of the steps, each proved for one step and carried over runs by `Reachable`.

* *The cursor moves by characters.* A step leaves the cursor where it is or moves it over the next
  character (`cursor_of_steps`), so it always stands within the source (`Reachable.within`).
* *The session is sound.* Whenever a lexeme starts, something is unread there that starts no gap,
  and from then on the recognizer knows what it has seen (`Recognizer.Sound`). So it is never in a
  state without a step (`Sound.exists_steps`), and a lexeme that is done is one of its category.

The second rests on what each phase remembers (`Phase.Seen`), and on the gap before a lexeme, whose
end is where no gap starts.
-/

namespace TokenScan

open Grammar

/-! ### Recognizers -/

namespace Recognizer

/-- A step takes one character at most. -/
theorem cursor_step (r : Recognizer) (p : Phase) :
    (r.step p).cursor = r.cursor ∨ (r.step p).cursor = r.cursor.advance := by
  rcases hr : r.cursor.rest with _ | ⟨c, rest⟩
  · exact Or.inl (by rw [step_of_nil hr])
  · have hadvance : r.cursor.advance = ⟨r.cursor.position.advance c, rest⟩ := by
      rw [Cursor.advance, hr]
    rcases hm : p.move c rest.head? with q | k | _
    · exact Or.inr (by rw [step_of_shift hr hm, hadvance])
    · exact Or.inr (by rw [step_of_last hr hm, hadvance])
    · exact Or.inl (by rw [step_of_stop hr hm])

/-- **A recognizer that knows what it has seen.** In a phase, the lexeme so far is one that the
phase remembers, there is no category yet, and the first phase has a text before it that starts no
gap. When it is done, the lexeme is one of its category. -/
def Sound (r : Recognizer) : Prop :=
  match r.state with
  | .scanning p =>
    p.Seen r.lexeme.toList r.cursor.rest.head? ∧ r.category = none ∧
      (p = .start → Settled r.cursor.rest)
  | .done => ∃ k, r.category = some k ∧ r.lexeme.toList ∈ k.language
  | .stray _ => False

section Sound

variable {r : Recognizer}

theorem Sound.of_scanning {p : Phase} (h : r.Sound) (hp : r.state = .scanning p) :
    p.Seen r.lexeme.toList r.cursor.rest.head? ∧ r.category = none ∧
      (p = .start → Settled r.cursor.rest) := by
  rwa [Sound, hp] at h

theorem Sound.of_done (h : r.Sound) (hdone : r.state = .done) :
    ∃ k, r.category = some k ∧ r.lexeme.toList ∈ k.language := by
  rwa [Sound, hdone] at h

theorem Sound.not_stray {v : Json} (h : r.Sound) : r.state ≠ .stray v := by
  intro hstray
  rwa [Sound, hstray] at h

/-- A lexeme may start where something is unread that starts no gap. -/
theorem sound_begin (hne : r.cursor.rest ≠ []) (h : Settled r.cursor.rest) :
    r.begin.Sound := by
  obtain ⟨c, rest, hrest⟩ := List.exists_cons_of_ne_nil hne
  have hhead : r.cursor.rest.head? = some c := by rw [hrest]; rfl
  exact ⟨⟨rfl, c, hhead, h.1 c hhead⟩, rfl, fun _ ↦ h⟩

/-- **A step keeps a recognizer sound.** -/
theorem Sound.step {p : Phase} (h : r.Sound) (hp : r.state = .scanning p) :
    (r.step p).Sound := by
  obtain ⟨hseen, hnone, -⟩ := h.of_scanning hp
  rcases hr : r.cursor.rest with _ | ⟨c, rest⟩
  · rw [step_of_nil hr]
    rw [hr] at hseen
    exact ⟨_, rfl, Phase.mem_language_of_closing hseen (by simp)⟩
  · rw [hr] at hseen
    rcases hm : p.move c rest.head? with q | k | _
    · rw [step_of_shift hr hm]
      have hnext : q.Seen (r.lexeme.push c).toList rest.head? := by
        rw [String.toList_push]
        exact Phase.seen_of_shift hseen hm
      refine ⟨hnext, hnone, ?_⟩
      -- no character leads back to the first phase, in which nothing has been seen
      rintro rfl
      exact absurd hnext.1 (by simp)
    · rw [step_of_last hr hm]
      refine ⟨k, rfl, ?_⟩
      show (r.lexeme.push c).toList ∈ k.language
      rw [String.toList_push]
      exact Phase.mem_language_of_last hseen hm
    · rw [step_of_stop hr hm]
      refine ⟨_, rfl, Phase.mem_language_of_closing hseen fun x hx ↦ ?_⟩
      obtain rfl : c = x := Option.some.inj hx
      exact ⟨_, hm⟩

end Sound

end Recognizer

/-! ### Bookkeeping leaves the recognizer alone -/

namespace Session

@[simp] theorem recognizer_report (s : Session) (opened : Option Position) :
    (s.report opened).recognizer = s.recognizer := by
  cases opened with
  | none => rfl
  | some o => rw [report, reportOpenComment, emitIf_eq]

@[simp] theorem recognizer_count (s : Session) (t : Token) :
    (s.count t).recognizer = s.recognizer := by
  rw [count_eq]

@[simp] theorem recognizer_logIfFinished (s : Session) :
    s.logIfFinished.recognizer = s.recognizer := by
  rw [logIfFinished_eq]

end Session

/-! ### Moments -/

namespace Moment

variable {m m' : Moment} {source : String} {origin : Option String} {config : Config}

/-- Where the session stands at a moment. -/
def cursor (m : Moment) : Cursor := m.session.cursor

theorem cursor_behindGap (s : Session) (behind : Option Token) :
    (behindGap s behind).cursor = s.cursor := by
  cases behind with
  | none =>
    unfold behindGap
    split_ifs
    · rfl
    · rfl
  | some t => exact congrArg Recognizer.cursor s.recognizer_logIfFinished

/-- **The cursor moves by characters**: a step leaves it where it is or moves it over one. -/
theorem cursor_of_steps (h : m.Steps m') : m'.cursor = m.cursor ∨ m'.cursor = m.cursor.advance := by
  obtain ⟨s, stage⟩ := m
  cases stage with
  | idle answer =>
    obtain rfl : request s = m' := Except.ok.inj h
    refine Or.inl ?_
    unfold request
    split_ifs
    · rfl
    · rfl
    · rfl
  | gap behind place =>
    obtain rfl : stepGap s behind place = m' := Except.ok.inj h
    unfold stepGap
    split
    · exact Or.inr rfl
    · refine Or.inl ?_
      rw [cursor_behindGap]
      exact congrArg Recognizer.cursor (s.recognizer_report _)
  | lexeme =>
    obtain ⟨p, -, rfl⟩ | ⟨-, rfl⟩ := stepLexeme_cases h
    · exact s.recognizer.cursor_step p
    · exact Or.inl (congrArg Recognizer.cursor (s.recognizer_count _))

/-- **A sound moment.** A session that waits behind its first request stands where no gap starts,
and one that recognizes a lexeme has a recognizer that knows what it has seen. -/
def Sound (m : Moment) : Prop :=
  match m.stage with
  | .idle _ => m.session.started = true → Settled m.cursor.rest
  | .gap _ _ => True
  | .lexeme => m.session.recognizer.Sound

/-- A lexeme is only ever recognized soundly. -/
theorem Sound.recognizer (h : m.Sound) (hstage : m.stage = .lexeme) :
    m.session.recognizer.Sound := by
  rwa [Sound, hstage] at h

theorem sound_behindGap {s : Session} (h : Settled s.cursor.rest) (behind : Option Token) :
    (behindGap s behind).Sound := by
  cases behind with
  | none =>
    unfold behindGap
    split_ifs with hend
    · exact fun _ ↦ h
    · exact Recognizer.sound_begin (mt Cursor.atEnd_iff.2 hend) h
  | some t =>
    intro _
    rw [cursor_behindGap]
    exact h

/-- **A step keeps a moment sound.** -/
theorem Sound.steps (h : m.Sound) (hs : m.Steps m') : m'.Sound := by
  obtain ⟨s, stage⟩ := m
  cases stage with
  | idle answer =>
    obtain rfl : request s = m' := Except.ok.inj hs
    unfold request
    split_ifs with hstarted hend
    · exact h
    · exact Recognizer.sound_begin (mt Cursor.atEnd_iff.2 hend) (h hstarted)
    · trivial
  | gap behind place =>
    obtain rfl : stepGap s behind place = m' := Except.ok.inj hs
    unfold stepGap
    split
    · trivial
    · rename_i hpass
      refine sound_behindGap ?_ behind
      rw [Session.cursor, s.recognizer_report]
      exact GapPlace.settled_of_pass_eq_none hpass
  | lexeme =>
    obtain ⟨p, hstate, rfl⟩ | ⟨-, rfl⟩ := stepLexeme_cases hs
    · exact Recognizer.Sound.step h hstate
    · trivial

/-- **No step fails** at a sound moment. -/
theorem Sound.exists_steps (h : m.Sound) : ∃ m', m.Steps m' := by
  obtain ⟨s, stage⟩ := m
  cases stage with
  | idle answer => exact ⟨_, rfl⟩
  | gap behind place => exact ⟨_, rfl⟩
  | lexeme =>
    rcases hstate : s.recognizer.state with p | _ | v
    · exact ⟨_, stepLexeme_of_scanning hstate⟩
    · exact ⟨_, stepLexeme_of_done hstate⟩
    · exact absurd hstate (Recognizer.Sound.not_stray h)

/-! ### Runs -/

/-- **Every moment is sound.** -/
theorem Reachable.sound (h : Reachable source origin config m) : m.Sound := by
  induction h with
  | refl => exact nofun
  | tail _ hstep ih => exact ih.steps hstep

/-- **The cursor always stands within the source.** -/
theorem Reachable.within (h : Reachable source origin config m) :
    m.cursor.Within source.toList := by
  induction h with
  | refl => exact Cursor.within_ofText source.toList
  | tail _ hstep ih =>
    rcases cursor_of_steps hstep with hc | hc
    · rwa [hc]
    · rw [hc]
      exact ih.advance

/-- A request and all the work for it stay reachable. -/
theorem Reachable.next {s : Session} {answer : Option Token}
    (h : Reachable source origin config ⟨s, .idle answer⟩) :
    Reachable source origin config ⟨s.next.2, .idle s.next.1⟩ := by
  obtain ⟨m, hstep, hwork⟩ := leads_next s answer
  have hle : Works ≤ Steps := fun _ _ hworks ↦ hworks.2
  exact (h.tail hstep).trans (Relation.ReflTransGen.mono hle _ _ hwork)

end Moment

end TokenScan
