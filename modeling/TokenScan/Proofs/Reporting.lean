import TokenScan.Proofs.Session.Pull

/-!
# Configuration and names only change reports

What a session finds does not depend on its configuration or on the name of its text; these two only
decide what it says about it. Two sessions over one source give tokens that are equal but for the
name, they stand at the same place behind every request, and they record the same open comment.
Where the names are the same, the log of one session is what its configuration lets through of the
log of a session that warns about everything (`reports_only`).

Such a two-run statement is usually a relation between two sessions that every operation keeps. Here
the relation is a function. `Session.reportedBy` turns a session that warns about everything into
the one that would be there under the name and the configuration of another: it puts the other name
into all that was recorded, and drops from the log what the other one would not have logged. Every
operation commutes with it (`reportedBy_skip` to `pull_reportedBy`), and a new session of any name
and configuration is another new session reported that way. So all sessions over a source are
reports of one.

That the log of a session holds its own name needs no induction of its own: reported by itself, a
session stays what it is.
-/

namespace TokenScan

/-- The token in a text of another name. -/
def Token.renamed (origin : Json) (t : Token) : Token := { t with origin }

/-- The location in a text of another name. -/
def Location.renamed (origin : Json) (l : Location) : Location := { l with origin }

namespace Config

variable (config : Config)

/-- Whether an event is logged. Only the two warnings can be turned off. -/
def logs : Event → Bool
  | .malformed .. => config.warnMalformed.truthy
  | .openComment .. => config.warnOpenComment.truthy
  | _ => true

/-- **A configuration with both warnings on.** -/
structure Loud : Prop where
  malformed : config.warnMalformed.truthy = true
  openComment : config.warnOpenComment.truthy = true

theorem Loud.logs_eq_true {config : Config} (h : config.Loud) (e : Event) :
    config.logs e = true := by
  rcases e with _ | _ | _ | _
  · rfl
  · rfl
  · exact h.malformed
  · exact h.openComment

end Config

/-- An event as another session would put it: with the name of that session's text. -/
def Event.reportedBy (other : Session) : Event → Event
  | .scanning length _ => .scanning length other.originName
  | .finished _ tokens bad => .finished other.originName tokens bad
  | .malformed lexeme l => .malformed lexeme (l.renamed other.originValue)
  | .openComment l => .openComment (l.renamed other.originValue)

/-- Whether an event is logged does not depend on the name. -/
theorem Config.logs_reportedBy (config : Config) (other : Session) (e : Event) :
    config.logs (e.reportedBy other) = config.logs e := by
  rcases e with _ | _ | _ | _ <;> rfl

namespace Session

variable (s other : Session)

/-! ### Reports -/

/-- A log as another session would have written it. -/
def retell (log : Array Event) : Array Event :=
  (log.filter other.config.logs).map (Event.reportedBy other)

theorem retell_push (log : Array Event) (e : Event) :
    other.retell (log.push e) =
      if other.config.logs e then (other.retell log).push (e.reportedBy other)
      else other.retell log := by
  rw [retell, retell]
  split_ifs with h
  · rw [Array.filter_push_of_pos h (by simp), Array.map_push]
  · rw [Array.filter_push_of_neg h (by simp)]

/-- **The session as another one would report it**, under the name and the configuration of that
one. -/
def reportedBy : Session :=
  { s with
    origin := other.origin
    config := other.config
    openComment := s.openComment.map (Location.renamed other.originValue)
    log := other.retell s.log }

/-- A new session is reported as a new session. -/
theorem reportedBy_ofSource (source : String) (origin origin' : Option String)
    (config config' : Config) :
    (ofSource source origin config).reportedBy (ofSource source origin' config') =
      ofSource source origin' config' := by
  simp [reportedBy, ofSource, retell]

/-! ### Single operations -/

theorem reportedBy_emit {e : Event} (h : other.config.logs e = true) :
    (s.emit e).reportedBy other = (s.reportedBy other).emit (e.reportedBy other) := by
  show { s.reportedBy other with log := other.retell (s.log.push e) } = _
  rw [retell_push, if_pos h]
  rfl

/-- A warning that is on is reported as far as the other configuration has it on. -/
theorem reportedBy_emitIf {switch switch' : Json} {e : Event} (h : switch.truthy = true)
    (hlogs : other.config.logs e = switch'.truthy) :
    (s.emitIf switch e).reportedBy other =
      (s.reportedBy other).emitIf switch' (e.reportedBy other) := by
  rw [emitIf, if_pos h, emitIf, ← hlogs]
  split_ifs with he
  · exact s.reportedBy_emit other he
  · show { s.reportedBy other with log := other.retell (s.log.push e) } = _
    rw [retell_push, if_neg he]
    rfl

section Loud

variable {s} (h : s.config.Loud)
include h

theorem reportedBy_reportOpenComment (p : Position) :
    (s.reportOpenComment p).reportedBy other = (s.reportedBy other).reportOpenComment p := by
  rw [reportOpenComment, reportedBy_emitIf _ _ h.openComment rfl]
  rfl

theorem reportedBy_skip : s.skip.reportedBy other = (s.reportedBy other).skip := by
  have hcursor : (s.reportedBy other).cursor = s.cursor := rfl
  rw [skip, skip, hcursor]
  rcases (skipGap s.cursor).openedAt with _ | p
  · rfl
  · exact reportedBy_reportOpenComment other (s := s.moveTo (skipGap s.cursor).cursor) h p

theorem reportedBy_count (t : Token) :
    (s.count t).reportedBy other = (s.reportedBy other).count (t.renamed other.originValue) := by
  rw [count, count]
  show _ = if t.isMalformed then _ else _
  split_ifs
  · rw [reportedBy_emitIf _ _ h.malformed rfl]
    rfl
  · rfl

/-- **A token is found under either name**, and counted under either configuration. -/
theorem scanToken_reportedBy :
    (s.reportedBy other).scanToken =
      (s.scanToken.1.renamed other.originValue, s.scanToken.2.reportedBy other) := by
  have hcount := reportedBy_count other (s := { s with recognizer := s.recognizer.recognize }) h
    s.scanToken.1
  exact congrArg (Prod.mk _) hcount.symm

end Loud

theorem reportedBy_logFinished :
    s.logFinished.reportedBy other = (s.reportedBy other).logFinished :=
  s.reportedBy_emit other (e := .finished s.originName s.tokens s.malformed) rfl

theorem reportedBy_logIfFinished :
    s.logIfFinished.reportedBy other = (s.reportedBy other).logIfFinished := by
  rw [logIfFinished, logIfFinished]
  show _ = if s.atEnd then _ else _
  split_ifs
  · exact s.reportedBy_logFinished other
  · rfl

/-! ### The configuration stays -/

theorem config_skip : s.skip.config = s.config := by rw [skip_eq]

theorem config_scanToken : s.scanToken.2.config = s.config := by
  obtain ⟨r, -, h⟩ := s.scanToken_eq
  rw [h, count_eq]

theorem config_produce : s.produce.2.config = s.config := by
  show s.scanToken.2.skip.logIfFinished.config = s.config
  rw [logIfFinished_eq]
  exact (config_skip _).trans s.config_scanToken

theorem config_start : s.start.config = s.config := config_skip _

theorem config_next : s.next.2.config = s.config := by
  rcases hs : s.started with _ | _
  · rw [s.next_of_not_started hs]
    split_ifs
    · exact s.config_start
    · exact s.start.config_produce.trans s.config_start
  · rcases hend : s.atEnd with _ | _
    · rw [s.next_of_not_atEnd hs hend]
      exact s.config_produce
    · rw [s.next_of_atEnd hs hend]

theorem config_pull (k : ℕ) : (s.pull k).2.config = s.config := by
  induction k with
  | zero => rfl
  | succ k ih => rw [pull_succ, config_next, ih]

/-! ### Requests -/

section Loud

variable {s} (h : s.config.Loud)
include h

theorem produce_reportedBy :
    (s.reportedBy other).produce =
      (s.produce.1.renamed other.originValue, s.produce.2.reportedBy other) := by
  have hscan : s.scanToken.2.config.Loud := s.config_scanToken.symm ▸ h
  show ((s.reportedBy other).scanToken.1, (s.reportedBy other).scanToken.2.skip.logIfFinished) = _
  rw [scanToken_reportedBy other h, ← reportedBy_skip other hscan, ← reportedBy_logIfFinished]
  rfl

theorem reportedBy_start : s.start.reportedBy other = (s.reportedBy other).start := by
  have hemit := reportedBy_emit { s with started := true } other
    (e := .scanning s.source.length s.originName) rfl
  have hskip := reportedBy_skip other
    (s := { s with started := true }.emit (.scanning s.source.length s.originName)) h
  rw [start, hskip, hemit]
  rfl

/-- **A request is answered under either name**, whatever is logged about it. -/
theorem next_reportedBy :
    (s.reportedBy other).next =
      (s.next.1.map (Token.renamed other.originValue), s.next.2.reportedBy other) := by
  rcases hs : s.started with _ | _
  · have hstart : s.start.config.Loud := s.config_start.symm ▸ h
    rw [(s.reportedBy other).next_of_not_started hs, s.next_of_not_started hs,
      ← reportedBy_start other h, produce_reportedBy other hstart]
    show (if s.start.atEnd then _ else _) = _
    split_ifs
    · exact congrArg (Prod.mk none) (s.start.reportedBy_logFinished other).symm
    · rfl
  · rcases hend : s.atEnd with _ | _
    · rw [(s.reportedBy other).next_of_not_atEnd hs hend, s.next_of_not_atEnd hs hend,
        produce_reportedBy other h]
      rfl
    · rw [(s.reportedBy other).next_of_atEnd hs hend, s.next_of_atEnd hs hend]
      rfl

/-- **Any number of requests** is answered under either name. -/
theorem pull_reportedBy (k : ℕ) :
    (s.reportedBy other).pull k =
      ((s.pull k).1.map (Option.map (Token.renamed other.originValue)),
        (s.pull k).2.reportedBy other) := by
  induction k with
  | zero => rfl
  | succ k ih =>
    have hpull : (s.pull k).2.config.Loud := (s.config_pull k).symm ▸ h
    rw [pull_succ, pull_succ, ih, next_reportedBy other hpull, List.map_append]
    rfl

end Loud

/-! ### Sessions over one source -/

section Source

variable (source : String) (origin : Option String) (config : Config) {loud : Config}
  (hloud : loud.Loud)
include hloud

/-- **Every session over a source is a report of a loud one**, whatever the name of that one. -/
theorem pull_ofSource (origin' : Option String) (k : ℕ) :
    (ofSource source origin config).pull k =
      (((ofSource source origin' loud).pull k).1.map
          (Option.map (Token.renamed (ofSource source origin config).originValue)),
        ((ofSource source origin' loud).pull k).2.reportedBy (ofSource source origin config)) := by
  have hpull := pull_reportedBy (ofSource source origin config)
    (s := ofSource source origin' loud) hloud k
  rwa [reportedBy_ofSource] at hpull

/-- The log of a loud session holds the name of its text already. -/
theorem map_reportedBy_log (k : ℕ) :
    ((ofSource source origin loud).pull k).2.log.map
        (Event.reportedBy (ofSource source origin config)) =
      ((ofSource source origin loud).pull k).2.log := by
  have hall : ((ofSource source origin loud).pull k).2.log.filter loud.logs =
      ((ofSource source origin loud).pull k).2.log :=
    Array.filter_eq_self.2 fun e _ ↦ hloud.logs_eq_true e
  have hself : ((ofSource source origin loud).pull k).2.log =
      (((ofSource source origin loud).pull k).2.log.filter loud.logs).map
        (Event.reportedBy (ofSource source origin config)) :=
    congrArg (fun r ↦ r.2.log) (pull_ofSource source origin loud hloud origin k)
  rw [hall] at hself
  exact hself.symm

/-- **A configuration filters the log** that there would be with both warnings on. -/
theorem log_pull_eq_filter (k : ℕ) :
    ((ofSource source origin config).pull k).2.log =
      ((ofSource source origin loud).pull k).2.log.filter config.logs := by
  set log := ((ofSource source origin loud).pull k).2.log
  set report := Event.reportedBy (ofSource source origin config)
  have hlogs : config.logs ∘ report = config.logs := funext fun e ↦ config.logs_reportedBy _ e
  calc ((ofSource source origin config).pull k).2.log
    _ = (log.filter config.logs).map report :=
      congrArg (fun r ↦ r.2.log) (pull_ofSource source origin config hloud origin k)
    _ = (log.map report).filter config.logs := by rw [Array.filter_map, hlogs]
    _ = log.filter config.logs := by rw [map_reportedBy_log source origin config hloud k]

end Source

end Session

/-- **Configuration and names only change reports.** Take any two names and configurations for one
source, and any number of requests. The tokens that are returned are the same but for the name, the
sessions then stand at the same place, both at the end or neither, and the comment that is on record
as open is the same but for the name. And the log of a session is the log that there would be with
both warnings on, without the warnings that its configuration turns off. -/
theorem reports_only (source : String) (origin origin' : Option String) (config config' : Config)
    (k : ℕ) :
    ((Session.ofSource source origin' config').pull k).1 =
        ((Session.ofSource source origin config).pull k).1.map
          (Option.map (Token.renamed (Session.ofSource source origin' config').originValue)) ∧
      ((Session.ofSource source origin' config').pull k).2.cursor =
        ((Session.ofSource source origin config).pull k).2.cursor ∧
      ((Session.ofSource source origin' config').pull k).2.atEnd =
        ((Session.ofSource source origin config).pull k).2.atEnd ∧
      ((Session.ofSource source origin' config').pull k).2.openComment =
        ((Session.ofSource source origin config).pull k).2.openComment.map
          (Location.renamed (Session.ofSource source origin' config').originValue) ∧
      ∀ loud : Config, loud.Loud →
        ((Session.ofSource source origin config).pull k).2.log =
          ((Session.ofSource source origin loud).pull k).2.log.filter config.logs := by
  have hloud : (⟨.bool true, .bool true⟩ : Config).Loud := ⟨rfl, rfl⟩
  have hone := Session.pull_ofSource source origin config hloud none k
  have hother := Session.pull_ofSource source origin' config' hloud none k
  -- both sessions are reports of this one
  set loud := (Session.ofSource source none ⟨.bool true, .bool true⟩).pull k
  refine ⟨?_, ?_, ?_, ?_, fun loud hloud ↦ Session.log_pull_eq_filter source origin config hloud k⟩
  · rw [hone, hother, List.map_map, Option.map_comp_map]
    rfl
  · rw [hone, hother]
    rfl
  · rw [hone, hother]
    rfl
  · rw [hone, hother]
    show loud.2.openComment.map _ = (loud.2.openComment.map _).map _
    rw [Option.map_map]
    rfl

/-- A malformed character and an open comment: one session has a name and warns about the first
only, the other has none and warns about neither. -/
theorem reports_only_named :
    ((Session.ofSource "é/*" (some "f") ⟨.null, .str "no"⟩).pull 1).1 =
        ((Session.ofSource "é/*" none ⟨.int 0, .null⟩).pull 1).1.map
          (Option.map (Token.renamed (.str "f"))) ∧
      (⟨.bool true, .bool true⟩ : Config).Loud ∧
      ((Session.ofSource "é/*" (some "f") ⟨.null, .str "no"⟩).pull 1).2.log =
        #[.scanning 3 "f", .malformed "é" ⟨1, 1, 0, 1, some 1, some 2, .str "f"⟩,
          .finished "f" 1 1] := by
  have hloud : (⟨.bool true, .bool true⟩ : Config).Loud := ⟨rfl, rfl⟩
  obtain ⟨htokens, -⟩ := reports_only "é/*" none (some "f") ⟨.int 0, .null⟩ ⟨.null, .str "no"⟩ 1
  obtain ⟨-, -, -, -, hlog⟩ := reports_only "é/*" (some "f") none ⟨.null, .str "no"⟩ .default 1
  refine ⟨htokens, hloud, (hlog _ hloud).trans ?_⟩
  have hfull : ((Session.ofSource "é/*" (some "f") ⟨.bool true, .bool true⟩).pull 1).2.log =
      #[.scanning 3 "f", .malformed "é" ⟨1, 1, 0, 1, some 1, some 2, .str "f"⟩,
        .openComment ⟨1, 2, 1, 1, none, none, .str "f"⟩, .finished "f" 1 1] := rfl
  rw [hfull]
  rfl

end TokenScan
