import Mathlib.Logic.Relation
import TokenScan.Proofs.Session.Basic
import TokenScan.Session.Operation

/-!
# A session, character by character

`Session.next` answers a request in one go, and its loops are recursions over the unread text. Here
the same work is cut into single steps, each of which passes one character at most, without any
bound on how many there may be. A *moment* is a session together with what it is in the middle of:
it waits for a request, it passes a gap, or it recognizes a lexeme. `Moment.step` is the next thing
that happens.

## What the steps are for

Between two requests a session shows its state to a consumer, but what it goes through in the
meantime shows only here: that no step ever fails, what the first phase of the recognizer is given,
where the cursor stands inside of a delimiter. Such statements are about `Reachable` moments.

## What ties them to the session

`leads_next`: from a request on, the steps end, and they end with the answer and the session that
`Session.next` gives. Steps are a function, and a moment that waits is where the work for a request
stops (`Works`), so the moments on the way are all there are. The two loops are followed by the
recursion of the function that does their work: `leads_skipFrom` for gaps, `leads_settle` for
lexemes.
-/

namespace TokenScan

open Grammar

/-! ### Moments -/

/-- Where a cursor stands in a gap. -/
inductive GapPlace where
  /-- Between comments. -/
  | between
  /-- Behind the slash of an opening delimiter that starts at a position. -/
  | opening (start : Position)
  /-- In a comment that was opened at a position. -/
  | inside (start : Position)
  /-- Behind the star of a closing delimiter. -/
  | closing

namespace GapPlace

/-- The place behind the next unread character, and none if the gap ends before it. -/
def pass (p : Position) (place : GapPlace) (rest : List Char) : Option GapPlace :=
  match place with
  | between =>
    match rest with
    | '/' :: '*' :: _ => some (opening p)
    | c :: _ => if isBlank c then some between else none
    | [] => none
  | opening o =>
    match rest with
    | _ :: _ => some (inside o)
    | [] => none
  | inside o =>
    match rest with
    | '*' :: '/' :: _ => some closing
    | _ :: _ => some (inside o)
    | [] => none
  | closing =>
    match rest with
    | _ :: _ => some between
    | [] => none

/-- The comment that is open if the gap ends here. -/
def openedAt : GapPlace → Option Position
  | inside o => some o
  | _ => none

/-- The place from which `skipFrom` goes on. -/
def ofOpened : Option Position → GapPlace
  | none => between
  | some o => inside o

/-- **A gap ends where no gap starts**, or at the end of input. -/
theorem settled_of_pass_eq_none {place : GapPlace} {p : Position} {rest : List Char}
    (h : place.pass p rest = none) : Settled rest := by
  cases place with
  | between =>
    simp only [pass] at h
    split at h
    · exact absurd h (by simp)
    · rename_i c rest hopen
      split_ifs at h with hblank
      refine ⟨fun x hx ↦ ?_, ?_⟩
      · obtain rfl : c = x := Option.some.inj hx
        exact fun hmem ↦ hblank (isBlank_iff.2 hmem)
      · rintro ⟨tail, htail⟩
        obtain ⟨rfl, rfl⟩ := List.cons.inj htail
        exact hopen tail rfl rfl
    · exact settled_nil
  | opening o | inside o | closing =>
    -- at any other place only the end of input ends a gap
    simp only [pass] at h
    split at h
    all_goals first | exact settled_nil | exact absurd h (by simp)

end GapPlace

/-- What a session is in the middle of. -/
inductive Stage where
  /-- It waits for a request; the last one was answered so. -/
  | idle (answer : Option Token)
  /-- It passes a gap, behind a token or before the first one. -/
  | gap (behind : Option Token) (place : GapPlace)
  /-- It recognizes a lexeme. -/
  | lexeme

/-- **A session in the middle of its work.** -/
structure Moment where
  /-- The session as it is now. -/
  session : Session
  /-- What it is in the middle of. -/
  stage : Stage

/-- Records an open comment, if there is one. -/
def Session.report (s : Session) : Option Position → Session
  | none => s
  | some o => s.reportOpenComment o

namespace Moment

/-- Whether it is at work for a request. -/
def Busy (m : Moment) : Prop := ∀ answer, m.stage ≠ .idle answer

/-! ### Steps -/

/-- A request: the first one opens the session, and one behind the end is answered at once. -/
def request (s : Session) : Moment :=
  if s.started then
    if s.atEnd then ⟨s, .idle none⟩ else ⟨s.update Recognizer.begin, .lexeme⟩
  else ⟨{ s with started := true }.emit (.scanning s.source.length s.originName),
    .gap none .between⟩

/-- Behind a gap, the token before it is the answer; if there is none, the next lexeme starts,
unless the input has ended. -/
def behindGap (s : Session) : Option Token → Moment
  | some t => ⟨s.logIfFinished, .idle (some t)⟩
  | none =>
    if s.atEnd then ⟨s.logFinished, .idle none⟩ else ⟨s.update Recognizer.begin, .lexeme⟩

/-- In a gap: one character is passed, or the gap ends. -/
def stepGap (s : Session) (behind : Option Token) (place : GapPlace) : Moment :=
  match place.pass s.cursor.position s.cursor.rest with
  | some next => ⟨s.update Recognizer.drop, .gap behind next⟩
  | none => behindGap (s.report place.openedAt) behind

/-- In a lexeme: the recognizer takes a step, or the lexeme is done and becomes a token. -/
def stepLexeme (s : Session) : Except StateError Moment :=
  match s.recognizer.state with
  | .done => .ok ⟨s.count s.token, .gap (some s.token) .between⟩
  | _ => s.recognizer.dispatch.map fun recognizer ↦ ⟨{ s with recognizer }, .lexeme⟩

/-- **The next thing that happens.** -/
def step (m : Moment) : Except StateError Moment :=
  match m.stage with
  | .idle _ => .ok (request m.session)
  | .gap behind place => .ok (stepGap m.session behind place)
  | .lexeme => stepLexeme m.session

/-- One step to another moment. -/
def Steps (m m' : Moment) : Prop := m.step = .ok m'

/-- One step of the work for a request. -/
def Works (m m' : Moment) : Prop := m.Busy ∧ m.Steps m'

/-- **A moment that a session over a source can come to**, by any number of requests. -/
def Reachable (source : String) (origin : Option String) (config : Config) (m : Moment) : Prop :=
  Relation.ReflTransGen Steps ⟨.ofSource source origin config, .idle none⟩ m

/-! ### What one step does -/

section Gap

variable {s : Session} {behind : Option Token} {place next : GapPlace} {p : Position}
  {rest : List Char}

/-- A character that is passed takes one step. -/
theorem works_pass {c : Char} (h : place.pass p (c :: rest) = some next) :
    Works ⟨s.moveTo ⟨p, c :: rest⟩, .gap behind place⟩
      ⟨s.moveTo ⟨p.advance c, rest⟩, .gap behind next⟩ := by
  refine ⟨nofun, congrArg Except.ok ?_⟩
  show stepGap (s.moveTo ⟨p, c :: rest⟩) behind place = _
  rw [stepGap, show place.pass (s.moveTo ⟨p, c :: rest⟩).cursor.position
    (s.moveTo ⟨p, c :: rest⟩).cursor.rest = some next from h]
  rfl

/-- So does the end of a gap. -/
theorem works_leave (h : place.pass p rest = none) :
    Works ⟨s.moveTo ⟨p, rest⟩, .gap behind place⟩
      (behindGap ((s.moveTo ⟨p, rest⟩).report place.openedAt) behind) := by
  refine ⟨nofun, congrArg Except.ok ?_⟩
  show stepGap (s.moveTo ⟨p, rest⟩) behind place = _
  rw [stepGap, show place.pass (s.moveTo ⟨p, rest⟩).cursor.position
    (s.moveTo ⟨p, rest⟩).cursor.rest = none from h]

end Gap

theorem stepLexeme_of_done {s : Session} (h : s.recognizer.state = .done) :
    stepLexeme s = .ok ⟨s.count s.token, .gap (some s.token) .between⟩ := by
  rw [stepLexeme, h]

theorem stepLexeme_of_scanning {s : Session} {p : Phase} (h : s.recognizer.state = .scanning p) :
    stepLexeme s = .ok ⟨{ s with recognizer := s.recognizer.step p }, .lexeme⟩ := by
  rw [stepLexeme, h, Recognizer.dispatch, h]
  rfl

/-- **What a step in a lexeme can be**: a step of its phase, or the one that makes it a token. -/
theorem stepLexeme_cases {s : Session} {m : Moment} (h : stepLexeme s = .ok m) :
    (∃ p, s.recognizer.state = .scanning p ∧
      m = ⟨{ s with recognizer := s.recognizer.step p }, .lexeme⟩) ∨
      s.recognizer.state = .done ∧ m = ⟨s.count s.token, .gap (some s.token) .between⟩ := by
  rcases hstate : s.recognizer.state with p | _ | v
  · rw [stepLexeme_of_scanning hstate] at h
    exact Or.inl ⟨p, rfl, (Except.ok.inj h).symm⟩
  · rw [stepLexeme_of_done hstate] at h
    exact Or.inr ⟨rfl, (Except.ok.inj h).symm⟩
  · rw [stepLexeme, hstate, Recognizer.dispatch, hstate] at h
    exact absurd h (by simp [Except.map])

/-! ### The loops end -/

/-- **Passing a gap ends** where `skipFrom` stops, with the comment reported that it finds open. -/
theorem leads_skipFrom (s : Session) (behind : Option Token) (opened : Option Position)
    (p : Position) (text : List Char) :
    Relation.ReflTransGen Works ⟨s.moveTo ⟨p, text⟩, .gap behind (.ofOpened opened)⟩
      (behindGap ((s.moveTo (skipFrom opened p text).cursor).report
        (skipFrom opened p text).openedAt) behind) := by
  fun_induction skipFrom opened p text with
  | case1 opened p =>
    cases opened with
    | none => exact .single (works_leave rfl)
    | some o => exact .single (works_leave rfl)
  | case2 p cs ih =>
    -- a delimiter takes two steps, one for each of its characters
    exact .head (works_pass rfl) (.head (works_pass rfl) ih)
  | case3 p c cs hopen hc ih =>
    have hpass : GapPlace.between.pass p (c :: cs) = some .between := by
      rw [GapPlace.pass, if_pos hc]
      exact hopen
    exact .head (works_pass hpass) ih
  | case4 p c cs hopen hc =>
    have hpass : GapPlace.between.pass p (c :: cs) = none := by
      rw [GapPlace.pass, if_neg hc]
      exact hopen
    exact .single (works_leave hpass)
  | case5 o p cs ih => exact .head (works_pass rfl) (.head (works_pass rfl) ih)
  | case6 o p c cs hclose ih =>
    have hpass : (GapPlace.inside o).pass p (c :: cs) = some (.inside o) := by
      rw [GapPlace.pass]
      exact hclose
    exact .head (works_pass hpass) ih

/-- **Passing the gap at the cursor ends** with the session that has skipped it. -/
theorem leads_skip (s : Session) (behind : Option Token) :
    Relation.ReflTransGen Works ⟨s, .gap behind .between⟩ (behindGap s.skip behind) := by
  have hskip :
      s.skip = (s.moveTo (skipGap s.cursor).cursor).report (skipGap s.cursor).openedAt := rfl
  rw [hskip]
  exact leads_skipFrom s behind none s.cursor.position s.cursor.rest

/-- **Recognizing a lexeme ends** where `settle` stops. -/
theorem leads_settle (s : Session) {r : Recognizer} {p : Phase} (h : r.state = .scanning p) :
    Relation.ReflTransGen Works ⟨{ s with recognizer := r }, .lexeme⟩
      ⟨{ s with recognizer := Recognizer.settle r.cursor.rest r }, .lexeme⟩ := by
  have hstep (r : Recognizer) {p : Phase} (h : r.state = .scanning p) :
      Works ⟨{ s with recognizer := r }, .lexeme⟩
        ⟨{ s with recognizer := r.step p }, .lexeme⟩ :=
    ⟨nofun, stepLexeme_of_scanning h⟩
  generalize hr : r.cursor.rest = rest
  induction rest generalizing r p with
  | nil =>
    simp only [Recognizer.settle, h]
    exact .single (hstep r h)
  | cons c rest ih =>
    simp only [Recognizer.settle, h]
    refine .head (hstep r h) ?_
    rcases hm : p.move c rest.head? with q | k | _
    · rw [Recognizer.step_of_shift hr hm]
      exact ih rfl rfl
    · rw [Recognizer.step_of_last hr hm, Recognizer.settle_of_done rfl]
    · rw [Recognizer.step_of_stop hr hm, Recognizer.settle_of_done rfl]

/-- **A token is produced** in finitely many steps, from where its lexeme starts to behind the gap
after it. -/
theorem leads_produce (s : Session) :
    Relation.ReflTransGen Works ⟨s.update Recognizer.begin, .lexeme⟩
      ⟨s.produce.2, .idle (some s.produce.1)⟩ := by
  have hdone := (Recognizer.settle_of_scanning (r := s.recognizer.begin) rfl).1
  have htoken : Works ⟨{ s with recognizer := s.recognizer.recognize }, .lexeme⟩
      ⟨s.scanToken.2, .gap (some s.scanToken.1) .between⟩ :=
    ⟨nofun, stepLexeme_of_done hdone⟩
  exact (leads_settle s (r := s.recognizer.begin) rfl).trans (.head htoken (leads_skip _ _))

/-- **Every request is answered.** The steps that it takes end, and they end with the answer and the
session that `Session.next` gives. -/
theorem leads_next (s : Session) (answer : Option Token) :
    ∃ m, Steps ⟨s, .idle answer⟩ m ∧
      Relation.ReflTransGen Works m ⟨s.next.2, .idle s.next.1⟩ := by
  refine ⟨request s, rfl, ?_⟩
  rcases hs : s.started with _ | _
  · have hrequest : request s =
        ⟨{ s with started := true }.emit (.scanning s.source.length s.originName),
          .gap none .between⟩ := by
      simp [request, hs]
    have hgap : Relation.ReflTransGen Works (request s) (behindGap s.start none) := by
      rw [hrequest]
      exact leads_skip _ none
    refine hgap.trans ?_
    rw [s.next_of_not_started hs, behindGap]
    split_ifs with hend
    · exact .refl
    · exact leads_produce s.start
  · rcases hend : s.atEnd with _ | _
    · rw [s.next_of_not_atEnd hs hend]
      simp only [request, hs, hend, if_true, Bool.false_eq_true, if_false]
      exact leads_produce s
    · rw [s.next_of_atEnd hs hend]
      simp only [request, hs, hend, if_true]
      exact .refl

end Moment

end TokenScan
