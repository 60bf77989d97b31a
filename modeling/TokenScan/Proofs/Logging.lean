import Mathlib.Data.List.ReduceOption
import TokenScan.Proofs.Session.Pull

/-!
# The whole log of a session

A session logs at three points: when it starts, when it counts a token, and when it has skipped a
gap. What the log reads behind any number of requests is said here from outside (`logText`), and
that is what it reads (`log_complete`).

Between requests the log is complete (`Session.Complete`): the entry that scanning starts, what is
to be logged about every token so far, and an ending exactly if the session is at its end. Within a
request the ending may be half written, so the log is followed with whatever there is of it
(`Session.Logs`), from counting the token over the gap behind it to the last entry. The first
request differs only in that there is a gap before the token as well.

That a comment is open is logged by the gap, before anything is known about the end. It belongs to
the ending all the same, since a comment is found open nowhere else (`Session.OpenAtEnd`).
-/

namespace TokenScan

open Grammar

/-! ### What is to be logged -/

namespace Config

variable (config : Config)

/-- What is logged about a token. -/
def aboutToken (t : Token) : List Event :=
  if t.isMalformed ∧ config.warnMalformed.truthy then [.malformed t.lexeme t.location] else []

/-- What is logged about the record of an open comment. -/
def aboutRecord (record : Option Location) : List Event :=
  if config.warnOpenComment.truthy then record.toList.map .openComment else []

end Config

/-- Only a comment that runs to the end of input is found open. -/
theorem rest_eq_nil_of_openedAt {c : Cursor} {p : Position}
    (h : (skipGap c).openedAt = some p) : (skipGap c).cursor.rest = [] := by
  obtain ⟨q, text⟩ := c
  obtain ⟨g, rest, hg, rfl, hrest | hrest⟩ := exists_gap_append text
  · rw [skipGap, skipFrom_gap_append hg, skipFrom_of_settled hrest] at h
    exact absurd h (by simp)
  · rw [skipGap, skipFrom_gap_append hg, skipFrom_of_openComment hrest]

namespace Session

/-- **A session that has logged what it should**: it knows what it was opened with, its counters
count the tokens that it has given out, and its log is the opening entry, what is to be logged about
these tokens, and an ending. -/
structure Logs (s opened : Session) (ts : List Token) (ending : List Event) : Prop where
  /-- The text is the one it was opened with. -/
  source_eq : s.source = opened.source
  /-- So is its name. -/
  origin_eq : s.origin = opened.origin
  /-- So is the configuration. -/
  config_eq : s.config = opened.config
  /-- All tokens are counted. -/
  tokens_eq : s.tokens = ts.length
  /-- So are the malformed ones among them. -/
  malformed_eq : s.malformed = ts.countP Token.isMalformed
  /-- The log. -/
  log_eq : s.log.toList =
    .scanning opened.source.length opened.originName ::
      (ts.flatMap opened.config.aboutToken ++ ending)

/-- What a session logs when it has come to its end, and nothing before. -/
def ending (s : Session) : List Event :=
  if s.atEnd then
    s.config.aboutRecord s.openComment ++ [.finished s.originName s.tokens s.malformed]
  else []

/-- A comment is found open only at the end. -/
def OpenAtEnd (s : Session) : Prop := s.openComment.isSome = true → s.atEnd = true

section Logs

variable {s opened : Session} {ts : List Token} {events : List Event}

theorem OpenAtEnd.openComment_eq_none (h : s.OpenAtEnd) (hend : s.atEnd = false) :
    s.openComment = none := by
  rw [← Option.not_isSome_iff_eq_none]
  intro hsome
  rw [h hsome] at hend
  exact absurd hend (by simp)

theorem originName_congr (h : s.origin = opened.origin) : s.originName = opened.originName := by
  rw [originName, originName, h]

/-- Counting a token logs what is to be logged about it. -/
theorem Logs.count (h : s.Logs opened ts []) (t : Token) :
    (s.count t).Logs opened (ts ++ [t]) [] := by
  rw [count_eq]
  refine ⟨h.source_eq, h.origin_eq, h.config_eq, ?_, ?_, ?_⟩
  · simp [h.tokens_eq]
  · rw [List.countP_append, List.countP_singleton, ← h.malformed_eq]
    cases t.isMalformed with
    | false => rfl
    | true => rfl
  · have hlog := h.log_eq
    simp only [List.append_nil, List.flatMap_append, List.flatMap_singleton] at hlog ⊢
    rw [h.config_eq, Config.aboutToken]
    cases t.isMalformed with
    | false => simpa using hlog
    | true =>
      cases opened.config.warnMalformed.truthy with
      | false => simpa using hlog
      | true => simp [hlog]

/-- Skipping a gap logs what is to be logged about the record that it makes. -/
theorem Logs.skip (h : s.Logs opened ts []) (hnone : s.openComment = none) :
    s.skip.OpenAtEnd ∧ s.skip.Logs opened ts (opened.config.aboutRecord s.skip.openComment) := by
  have hlog := h.log_eq
  rw [skip_eq, hnone, Option.or_none]
  refine ⟨fun hsome ↦ ?_, h.source_eq, h.origin_eq, h.config_eq, h.tokens_eq, h.malformed_eq, ?_⟩
  · obtain ⟨l, hl⟩ := Option.isSome_iff_exists.1 hsome
    obtain ⟨p, hp, -⟩ := Option.map_eq_some_iff.1 hl
    exact Cursor.atEnd_iff.2 (rest_eq_nil_of_openedAt hp)
  · rw [List.append_nil] at hlog
    rw [h.config_eq, Config.aboutRecord]
    cases (skipGap s.cursor).openedAt with
    | none => simpa using hlog
    | some p =>
      cases opened.config.warnOpenComment.truthy with
      | false => simpa using hlog
      | true => simp [hlog]

/-- Behind a gap the end is logged, if that is where the gap ends. -/
theorem Logs.logIfFinished (h : s.Logs opened ts (opened.config.aboutRecord s.openComment))
    (hopen : s.OpenAtEnd) :
    s.logIfFinished.OpenAtEnd ∧ s.logIfFinished.Logs opened ts s.logIfFinished.ending := by
  have hlog := h.log_eq
  rw [logIfFinished_eq]
  refine ⟨hopen, h.source_eq, h.origin_eq, h.config_eq, h.tokens_eq, h.malformed_eq, ?_⟩
  -- the ending does not depend on the log
  change _ = _ :: (_ ++ s.ending)
  rcases hend : s.atEnd with _ | _
  · rw [hopen.openComment_eq_none hend] at hlog
    simpa [ending, hend, Config.aboutRecord] using hlog
  · simp [ending, hend, hlog, h.config_eq]

/-- A session that has logged all about its tokens, and its end if it has come to it. -/
def Complete (s opened : Session) (ts : List Token) : Prop :=
  s.OpenAtEnd ∧ s.Logs opened ts s.ending

/-- **A token keeps the log complete.** -/
theorem Logs.produce (h : s.Logs opened ts []) (hnone : s.openComment = none) :
    s.produce.2.Complete opened (ts ++ [s.produce.1]) := by
  obtain ⟨r, -, hscan⟩ := s.scanToken_eq
  have hwith : ({ s with recognizer := r } : Session).Logs opened ts [] :=
    ⟨h.source_eq, h.origin_eq, h.config_eq, h.tokens_eq, h.malformed_eq, h.log_eq⟩
  have hcount := hwith.count s.produce.1
  have heq : s.produce.2 = ({ s with recognizer := r }.count s.produce.1).skip.logIfFinished := by
    rw [produce_fst]
    show s.scanToken.2.skip.logIfFinished = _
    rw [hscan]
  obtain ⟨hopen, hskip⟩ := hcount.skip (by rw [count_eq]; exact hnone)
  rw [heq]
  exact hskip.logIfFinished hopen

/-- **A request keeps the log complete**, if it is not the first one. -/
theorem Complete.next (h : s.Complete opened ts) (hs : s.started = true) :
    s.next.2.Complete opened (ts ++ s.next.1.toList) := by
  rcases hend : s.atEnd with _ | _
  · have hlogs := h.2
    rw [ending, hend] at hlogs
    rw [s.next_of_not_atEnd hs hend]
    exact hlogs.produce (h.1.openComment_eq_none hend)
  · rw [s.next_of_atEnd hs hend, Option.toList_none, List.append_nil]
    exact h

end Logs

/-- **The first request starts a complete log.** -/
theorem complete_next_ofSource (source : String) (origin : Option String) (config : Config) :
    (ofSource source origin config).next.2.Complete (ofSource source origin config)
      (ofSource source origin config).next.1.toList := by
  set s := ofSource source origin config
  have hopened : ({ s with started := true }.emit
      (.scanning s.source.length s.originName)).Logs s [] [] :=
    ⟨rfl, rfl, rfl, rfl, rfl, rfl⟩
  obtain ⟨hopen, hskip⟩ := hopened.skip rfl
  change s.start.OpenAtEnd at hopen
  change s.start.Logs s [] (s.config.aboutRecord s.start.openComment) at hskip
  rw [s.next_of_not_started rfl]
  split_ifs with hend
  · have hfinished : s.start.logIfFinished = s.start.logFinished := if_pos hend
    rw [← hfinished]
    exact hskip.logIfFinished hopen
  · have hnone := hopen.openComment_eq_none (Bool.eq_false_of_not_eq_true hend)
    rw [hnone] at hskip
    have hnothing : s.config.aboutRecord none = [] := by simp [Config.aboutRecord]
    rw [hnothing] at hskip
    exact hskip.produce hnone

/-- **The log is complete behind every request.** -/
theorem complete_pull (source : String) (origin : Option String) (config : Config) (k : ℕ) :
    ((ofSource source origin config).pull (k + 1)).2.Complete (ofSource source origin config)
      ((ofSource source origin config).pull (k + 1)).1.reduceOption := by
  induction k with
  | zero =>
    rw [pull_succ, pull, List.nil_append, List.reduceOption_singleton]
    exact complete_next_ofSource source origin config
  | succ k ih =>
    rw [pull_succ _ (k + 1), List.reduceOption_append, List.reduceOption_singleton]
    exact ih.next (started_pull _ (Nat.succ_pos k))

/-- The tokens among the answers to requests are the first ones that there are. -/
theorem reduceOption_pull (s : Session) (k : ℕ) :
    (s.pull k).1.reduceOption = s.drain.1.take k := by
  induction k with
  | zero => rfl
  | succ k ih =>
    rw [pull_succ, List.reduceOption_append, List.reduceOption_singleton, ih, next_pull_fst,
      List.take_add_one]

/-- A session that is at its end has given out all its tokens. -/
theorem reduceOption_pull_of_atEnd (s : Session) {k : ℕ}
    (hend : (s.pull (k + 1)).2.atEnd = true) :
    (s.pull (k + 1)).1.reduceOption = s.drain.1 := by
  rw [atEnd_iff_drain (s.started_pull (Nat.succ_pos k)), drain_pull, List.drop_eq_nil_iff] at hend
  rw [reduceOption_pull, List.take_of_length_le hend]

section Log

variable (source : String) (origin : Option String) (config : Config)

/-- What ends the log of a session that is at its end: the record of an open comment, and that the
end was reached, with the numbers of all tokens and of the malformed ones. -/
def logEnd (s : Session) : List Event :=
  config.aboutRecord s.openComment ++
    [.finished (ofSource source origin config).originName (tokenize source origin config).length
      ((tokenize source origin config).countP Token.isMalformed)]

/-- **The log behind any number of requests**, of which there was one at least. -/
theorem log_pull_succ (k : ℕ) :
    ((ofSource source origin config).pull (k + 1)).2.log.toList =
      .scanning source.length (ofSource source origin config).originName ::
        (((ofSource source origin config).pull (k + 1)).1.reduceOption.flatMap config.aboutToken ++
          if ((ofSource source origin config).pull (k + 1)).2.atEnd then
            logEnd source origin config ((ofSource source origin config).pull (k + 1)).2
          else []) := by
  obtain ⟨-, h⟩ := complete_pull source origin config k
  rw [h.log_eq, ending]
  split_ifs with hend
  · rw [h.config_eq, originName_congr h.origin_eq, h.tokens_eq, h.malformed_eq,
      reduceOption_pull_of_atEnd _ hend]
    rfl
  · rfl

/-- The end is logged only where it is reached. -/
theorem atEnd_of_finished_mem {k : ℕ} {name : String} {n m : ℕ}
    (h : .finished name n m ∈ ((ofSource source origin config).pull k).2.log.toList) :
    ((ofSource source origin config).pull k).2.started = true ∧
      ((ofSource source origin config).pull k).2.atEnd = true := by
  cases k with
  | zero => exact absurd h List.not_mem_nil
  | succ k =>
    refine ⟨started_pull _ (Nat.succ_pos k), ?_⟩
    rw [log_pull_succ, List.mem_cons, List.mem_append, List.mem_flatMap] at h
    rcases h with h | ⟨t, -, h⟩ | h
    · exact absurd h (by simp)
    · -- what is logged about a token is a warning
      rw [Config.aboutToken] at h
      split_ifs at h
      · exact absurd (List.mem_singleton.1 h) (by simp)
      · exact absurd h List.not_mem_nil
    · by_contra hend
      rw [if_neg hend] at h
      exact absurd h List.not_mem_nil

/-- **The end is the last thing that is logged**, in every session that is drained. -/
theorem getLast?_log_drain :
    (ofSource source origin config).drain.2.log.toList.getLast? =
      some (.finished (ofSource source origin config).originName
        (tokenize source origin config).length
        ((tokenize source origin config).countP Token.isMalformed)) := by
  set n := (tokenize source origin config).length
  have hstarted := (ofSource source origin config).started_pull (Nat.succ_pos n)
  have hend : ((ofSource source origin config).pull (n + 1)).2.atEnd = true := by
    rw [atEnd_iff_drain hstarted, drain_pull]
    exact List.drop_of_length_le (Nat.le_succ n)
  rw [← drain_pull_snd _ (n + 1), drain_of_atEnd _ hstarted hend, log_pull_succ, if_pos hend,
    logEnd, ← List.append_assoc, ← List.cons_append, List.getLast?_concat]

end Log

end Session

/-! ### The log as it is read -/

/-- An entry of the log as it is read: how serious it is, and its wording. -/
def Event.entry (e : Event) : Level × String := (e.level, e.message)

namespace Config

variable (config : Config)

/-- What the log reads about a token. -/
def tokenText (t : Token) : List (Level × String) :=
  if t.isMalformed ∧ config.warnMalformed.truthy then
    [(.warning, s!"Malformed character {quoted t.lexeme} at {t.location.text}")]
  else []

/-- What the log reads about the record of an open comment. -/
def recordText (record : Option Location) : List (Level × String) :=
  if config.warnOpenComment.truthy then
    record.toList.map fun l ↦
      (.warning, s!"Block comment opened at {l.text} is not closed before end of input")
  else []

theorem map_entry_aboutToken (t : Token) :
    (config.aboutToken t).map Event.entry = config.tokenText t := by
  rw [aboutToken, tokenText]
  split_ifs
  · rfl
  · rfl

theorem map_entry_aboutRecord (record : Option Location) :
    (config.aboutRecord record).map Event.entry = config.recordText record := by
  rw [aboutRecord, recordText]
  split_ifs
  · rw [List.map_map]
    rfl
  · rfl

end Config

/-- **What the log of a session reads** behind a number of requests: nothing before the first. Then
that scanning starts; what there is to read about each token that was returned; and, where the end
of input is reached, what there is to read about the comment on record, and that scanning is
finished, with the numbers of all tokens and of the malformed ones. -/
def logText (source : String) (origin : Option String) (config : Config) :
    ℕ → List (Level × String)
  | 0 => []
  | k + 1 =>
    let opened := Session.ofSource source origin config
    let name := opened.originName
    let tokens := (tokenize source origin config).length
    let malformed := (tokenize source origin config).countP Token.isMalformed
    (.debug, s!"Scanning {source.length} characters from {name}") ::
      ((opened.pull (k + 1)).1.reduceOption.flatMap config.tokenText ++
        if (opened.pull (k + 1)).2.atEnd then
          config.recordText (opened.pull (k + 1)).2.openComment ++
            [(.debug, s!"Finished {name}: {tokens} tokens, {malformed} malformed")]
        else [])

/-- The log reads as it should. -/
theorem map_entry_log_pull (source : String) (origin : Option String) (config : Config) (k : ℕ) :
    ((Session.ofSource source origin config).pull k).2.log.toList.map Event.entry =
      logText source origin config k := by
  cases k with
  | zero => rfl
  | succ k =>
    rw [Session.log_pull_succ]
    simp only [logText, List.map_cons, List.map_append, List.map_flatMap,
      Config.map_entry_aboutToken]
    refine congrArg₂ List.cons rfl (congrArg₂ (· ++ ·) rfl ?_)
    split_ifs
    · rw [Session.logEnd, List.map_append, Config.map_entry_aboutRecord]
      rfl
    · rfl

/-- **The whole log of a session.** Behind any number of requests the log reads what it should.
Once it says that scanning is finished, no request adds to it any more; and that is the last thing
it says when a session has been drained, whatever its text. -/
theorem log_complete (source : String) (origin : Option String) (config : Config) (k : ℕ) :
    ((Session.ofSource source origin config).pull k).2.log.toList.map Event.entry =
        logText source origin config k ∧
      (∀ name n m,
        .finished name n m ∈ ((Session.ofSource source origin config).pull k).2.log.toList →
          ∀ j, ((Session.ofSource source origin config).pull (k + j)).2.log =
            ((Session.ofSource source origin config).pull k).2.log) ∧
      (Session.ofSource source origin config).drain.2.log.toList.getLast? =
        some (.finished (Session.ofSource source origin config).originName
          (tokenize source origin config).length
          ((tokenize source origin config).countP Token.isMalformed)) := by
  refine ⟨map_entry_log_pull source origin config k, fun name n m hfinished j ↦ ?_,
    Session.getLast?_log_drain source origin config⟩
  obtain ⟨hstarted, hend⟩ := Session.atEnd_of_finished_mem source origin config hfinished
  rw [Session.pull_add, Session.pull_of_atEnd _ hstarted hend]

/-- The last token is malformed and an open comment follows it: both warnings come in this order,
with the request for that token, and the request behind it adds nothing. -/
theorem log_complete_malformed :
    (((Session.ofSource "a é/*" (some "f") ⟨.bool true, .int 1⟩).pull 2).2.log.toList.map
        Event.entry =
      [(.debug, "Scanning 5 characters from f"),
        (.warning, "Malformed character 'é' at f:1:3"),
        (.warning, "Block comment opened at f:1:4 is not closed before end of input"),
        (.debug, "Finished f: 2 tokens, 1 malformed")]) ∧
      ((Session.ofSource "a é/*" (some "f") ⟨.bool true, .int 1⟩).pull 3).2.log =
        ((Session.ofSource "a é/*" (some "f") ⟨.bool true, .int 1⟩).pull 2).2.log ∧
      (Session.ofSource "a é/*" (some "f") ⟨.bool true, .int 1⟩).drain.2.log.toList.getLast? =
        some (.finished "f" 2 1) := by
  obtain ⟨htext, hafter, hlast⟩ := log_complete "a é/*" (some "f") ⟨.bool true, .int 1⟩ 2
  refine ⟨htext.trans ?_, hafter "f" 2 1 ?_ 1, hlast⟩
  · decide +kernel
  · exact .tail _ (.tail _ (.tail _ (.head _)))

end TokenScan
