import TokenScan.Proofs.Config.Scope
import TokenScan.Proofs.Pulling

/-!
# Sessions do not meet

Commands about several sessions are interleaved, and between them configurations are put in force
and blocks are entered and left. Each session goes on as if it were alone, with the configuration
that it was opened with (`sessions_independent`).

What a command can do to a workspace is said once (`Workspace.goesOn_perform`): it touches the
session that it is about and no other, and whatever it adds leads to that session or to a new one.
The session is then followed in two workspaces at a time (`Workspace.Shares`), of which the second
gets the commands about it only. Those are answered alike in both (`Shares.perform`), and all others
may be left out of the second (`Shares.goesOn`).

Names and streams can be given anew, to other sessions. Alone, a name keeps leading to the only
session there is, so `Workspace.Shares` asks for one direction: what leads to the session among
others also leads to it alone.
-/

namespace TokenScan

namespace Workspace

variable {w w' w'' v : Workspace} {c : Command} {n m : ℕ} {touched : Option ℕ}

/-! ### What a command leaves alone -/

/-- The number of the session that a command is about, if there is such a session. -/
def concerned (w : Workspace) : Command → Option ℕ
  | .operate name _ => w.names.lookup name
  | .share name _ => w.names.lookup name
  | .pull stream _ => (w.streams.lookup stream).map TokenStream.session
  | .drain stream => (w.streams.lookup stream).map TokenStream.session
  | .close stream => (w.streams.lookup stream).map TokenStream.session
  | _ => none

/-- **How a workspace goes on** when at most one session is touched. Other sessions stay as they
are, and names and streams lead where they led, but for new streams to the session that is touched
and new names and streams to new sessions. -/
structure GoesOn (touched : Option ℕ) (w w' : Workspace) : Prop where
  /-- No session is removed. -/
  length_le : w.sessions.length ≤ w'.sessions.length
  /-- Names lead where they led, or to new sessions. -/
  names : ∀ name n, w'.names.lookup name = some n →
    w.names.lookup name = some n ∨ w.sessions.length ≤ n ∧ n < w'.sessions.length
  /-- Streams lead where they led, or to the session that is touched, or to new sessions. -/
  streams : ∀ name stream, w'.streams.lookup name = some stream →
    w.streams.lookup name = some stream ∨ touched = some stream.session ∨
      w.sessions.length ≤ stream.session ∧ stream.session < w'.sessions.length
  /-- Other sessions stay as they are. -/
  sessions : ∀ n < w.sessions.length, touched ≠ some n → w'.sessions[n]? = w.sessions[n]?

/-- A change of scope touches nothing. -/
theorem goesOn_scope (touched : Option ℕ) (w : Workspace) (scope : Scope) :
    GoesOn touched w { w with scope } :=
  ⟨le_rfl, fun _ _ h ↦ .inl h, fun _ _ h ↦ .inl h, fun _ _ _ ↦ rfl⟩

theorem GoesOn.refl (touched : Option ℕ) (w : Workspace) : GoesOn touched w w :=
  goesOn_scope touched w w.scope

theorem GoesOn.trans (h : GoesOn touched w w') (h' : GoesOn touched w' w'') :
    GoesOn touched w w'' where
  length_le := h.length_le.trans h'.length_le
  names name n hn := by
    rcases h'.names name n hn with hn | ⟨hle, hlt⟩
    · exact (h.names name n hn).imp_right fun hnew ↦ ⟨hnew.1, hnew.2.trans_le h'.length_le⟩
    · exact .inr ⟨h.length_le.trans hle, hlt⟩
  streams name stream hstream := by
    rcases h'.streams name stream hstream with hstream | htouched | ⟨hle, hlt⟩
    · exact (h.streams name stream hstream).imp_right
        (Or.imp_right fun hnew ↦ ⟨hnew.1, hnew.2.trans_le h'.length_le⟩)
    · exact .inr (.inl htouched)
    · exact .inr (.inr ⟨h.length_le.trans hle, hlt⟩)
  sessions n hn htouched :=
    (h'.sessions n (hn.trans_le h.length_le) htouched).trans (h.sessions n hn htouched)

theorem lookup_cons_eq_some_iff {α : Type} {key other : String} {a b : α}
    {l : List (String × α)} :
    ((key, a) :: l).lookup other = some b ↔
      other = key ∧ a = b ∨ other ≠ key ∧ l.lookup other = some b := by
  by_cases h : other = key
  · simp [h]
  · have hne : (other == key) = false := beq_false_of_ne h
    simp [List.lookup_cons, hne, h]

theorem goesOn_putStream (w : Workspace) (name : String) (stream : TokenStream) :
    GoesOn (some stream.session) w (w.putStream name stream) where
  length_le := le_rfl
  names _ _ h := .inl h
  streams other stream' h := by
    rcases lookup_cons_eq_some_iff.1 h with ⟨-, rfl⟩ | ⟨-, h⟩
    · exact .inr (.inl rfl)
    · exact .inl h
  sessions _ _ _ := rfl

theorem goesOn_act (w : Workspace) (number : ℕ) (own : Bool)
    (f : Session → Except Failure Reply × Session) :
    GoesOn (some number) w (w.act number own f).2 := by
  cases h : w.sessions[number]? with
  | none =>
    rw [act, h]
    exact .refl _ w
  | some s =>
    rw [act_of_getElem? h]
    refine ⟨by simp [putSession], fun _ _ h ↦ .inl h, fun _ _ h ↦ .inl h, fun n _ hne ↦ ?_⟩
    exact List.getElem?_set_ne fun heq ↦ hne (congrArg some heq)

/-- A stream touches its session only. -/
theorem goesOn_actStream (w : Workspace) (name : String) (idle : Reply)
    (f : Session → Reply × Session) :
    GoesOn ((w.streams.lookup name).map TokenStream.session) w (w.actStream name idle f).2 := by
  unfold actStream
  cases w.streams.lookup name with
  | none => exact .refl _ w
  | some stream => exact w.goesOn_act _ _ _

/-- **A command touches the session that it is about, and no other.** -/
theorem goesOn_perform (w : Workspace) (c : Command) :
    GoesOn (w.concerned c) w (w.perform c).2 := by
  cases c with
  | create name request =>
    refine ⟨by simp [perform, addSession], fun other n h ↦ ?_, fun _ _ h ↦ .inl h,
      fun n hn _ ↦ List.getElem?_append_left hn⟩
    rcases lookup_cons_eq_some_iff.1 h with ⟨-, rfl⟩ | ⟨-, h⟩
    · exact .inr ⟨le_rfl, by simp [perform, addSession]⟩
    · exact .inl h
  | stream name request =>
    refine ⟨by simp [perform, addSession, putStream], fun _ _ h ↦ .inl h, fun other stream h ↦ ?_,
      fun n hn _ ↦ List.getElem?_append_left hn⟩
    rcases lookup_cons_eq_some_iff.1 h with ⟨-, rfl⟩ | ⟨-, h⟩
    · exact .inr (.inr ⟨le_rfl, by simp [perform, addSession, putStream]⟩)
    · exact .inl h
  | operate name operation =>
    simp only [concerned, perform]
    cases w.names.lookup name with
    | none => exact .refl _ w
    | some number => exact w.goesOn_act _ _ _
  | share name stream =>
    simp only [concerned, perform]
    cases w.names.lookup name with
    | none => exact .refl _ w
    | some number =>
      exact (w.goesOn_putStream stream ⟨number, false, false⟩).trans (goesOn_act _ number _ _)
  | close stream =>
    simp only [concerned, perform]
    cases w.streams.lookup stream with
    | none => exact .refl _ w
    | some old =>
      -- the stream is looked up again, which finds it as it has just been put
      refine (w.goesOn_putStream stream { old with closed := true }).trans ?_
      have hact := goesOn_actStream (w.putStream stream { old with closed := true }) stream
        .nothing fun s ↦ (.nothing, s)
      rw [putStream, List.lookup_cons_self] at hact
      exact hact
  | pull stream count => exact w.goesOn_actStream _ _ _
  | drain stream => exact w.goesOn_actStream _ _ _
  | _ => exact goesOn_scope _ w _

/-! ### Nothing leads astray -/

/-- Names and streams lead to sessions that exist. -/
structure WellFormed (w : Workspace) : Prop where
  /-- Names do. -/
  names_lt : ∀ name n, w.names.lookup name = some n → n < w.sessions.length
  /-- Streams do. -/
  streams_lt : ∀ name stream, w.streams.lookup name = some stream →
    stream.session < w.sessions.length

theorem wellFormed_empty : empty.WellFormed where
  names_lt _ _ h := nomatch h
  streams_lt _ _ h := nomatch h

/-- The session that a command is about exists. -/
theorem WellFormed.concerned_lt (h : w.WellFormed) (hc : w.concerned c = some n) :
    n < w.sessions.length := by
  cases c with
  | operate name _ | share name _ => exact h.names_lt name n hc
  | pull stream _ | drain stream | close stream =>
    obtain ⟨found, hfound, rfl⟩ := Option.map_eq_some_iff.1 hc
    exact h.streams_lt stream found hfound
  | _ => exact absurd hc.symm (Option.some_ne_none n)

theorem WellFormed.perform (h : w.WellFormed) (c : Command) : (w.perform c).2.WellFormed := by
  have hgo := w.goesOn_perform c
  refine ⟨fun name n hn ↦ ?_, fun name stream hstream ↦ ?_⟩
  · rcases hgo.names name n hn with hn | hnew
    · exact (h.names_lt name n hn).trans_le hgo.length_le
    · exact hnew.2
  · rcases hgo.streams name stream hstream with hstream | htouched | hnew
    · exact (h.streams_lt name stream hstream).trans_le hgo.length_le
    · exact (h.concerned_lt htouched).trans_le hgo.length_le
    · exact hnew.2

theorem WellFormed.performAll (h : w.WellFormed) (cs : List Command) :
    (w.performAll cs).2.WellFormed := by
  induction cs generalizing w with
  | nil => exact h
  | cons c cs ih => exact ih (h.perform c)

/-! ### The same session in two workspaces -/

/-- **Two workspaces share a session**, which has a number in each: it is in the same state, and the
names and streams that lead to it in the first lead to it in the second. -/
structure Shares (w : Workspace) (n : ℕ) (v : Workspace) (m : ℕ) : Prop where
  /-- The session is in the same state. -/
  exists_session : ∃ s, w.sessions[n]? = some s ∧ v.sessions[m]? = some s
  /-- Names lead to it in both. -/
  names : ∀ name, w.names.lookup name = some n → v.names.lookup name = some m
  /-- Streams lead to it in both. -/
  streams : ∀ name own closed, w.streams.lookup name = some ⟨n, own, closed⟩ →
    v.streams.lookup name = some ⟨m, own, closed⟩

theorem Shares.lt_length (h : Shares w n v m) : n < w.sessions.length := by
  obtain ⟨s, hs, -⟩ := h.exists_session
  exact (List.getElem?_eq_some_iff.1 hs).1

/-- Whatever touches other sessions only is of no account. -/
theorem Shares.goesOn (h : Shares w n v m) (hgo : GoesOn touched w w') (hne : touched ≠ some n) :
    Shares w' n v m where
  exists_session := hgo.sessions n h.lt_length hne ▸ h.exists_session
  names name hn := by
    rcases hgo.names name n hn with hn | hnew
    · exact h.names name hn
    · exact absurd h.lt_length (Nat.not_lt.2 hnew.1)
  streams name own closed hstream := by
    rcases hgo.streams name _ hstream with hstream | htouched | hnew
    · exact h.streams name own closed hstream
    · exact absurd htouched hne
    · exact absurd h.lt_length (Nat.not_lt.2 hnew.1)

theorem Shares.act (h : Shares w n v m) (own : Bool)
    (f : Session → Except Failure Reply × Session) :
    (v.act m own f).1 = (w.act n own f).1 ∧ Shares (w.act n own f).2 n (v.act m own f).2 m := by
  obtain ⟨s, hw, hv⟩ := h.exists_session
  rw [act_of_getElem? hw, act_of_getElem? hv]
  exact ⟨rfl, ⟨_, getElem?_putSession hw _, getElem?_putSession hv _⟩, h.names, h.streams⟩

theorem Shares.putStream (h : Shares w n v m) (name : String) (own closed : Bool) :
    Shares (w.putStream name ⟨n, own, closed⟩) n (v.putStream name ⟨m, own, closed⟩) m := by
  refine ⟨h.exists_session, h.names, fun other own' closed' hother ↦ ?_⟩
  rcases lookup_cons_eq_some_iff.1 hother with ⟨heq, hnew⟩ | ⟨hne, hother⟩
  · obtain ⟨-, rfl, rfl⟩ := TokenStream.mk.inj hnew
    exact lookup_cons_eq_some_iff.2 (.inl ⟨heq, rfl⟩)
  · exact lookup_cons_eq_some_iff.2 (.inr ⟨hne, h.streams other own' closed' hother⟩)

theorem Shares.actStream (h : Shares w n v m) {name : String} {own closed : Bool}
    (hstream : w.streams.lookup name = some ⟨n, own, closed⟩) (idle : Reply)
    (f : Session → Reply × Session) :
    (v.actStream name idle f).1 = (w.actStream name idle f).1 ∧
      Shares (w.actStream name idle f).2 n (v.actStream name idle f).2 m := by
  rw [Workspace.actStream, Workspace.actStream, hstream, h.streams name own closed hstream]
  exact h.act own _

/-- **A command about the session is answered alike**, and the session stays shared. -/
theorem Shares.perform (h : Shares w n v m) (hc : w.concerned c = some n) :
    (v.perform c).1 = (w.perform c).1 ∧ Shares (w.perform c).2 n (v.perform c).2 m := by
  cases c with
  | operate name operation =>
    simp only [Workspace.perform, show w.names.lookup name = some n from hc, h.names name hc]
    exact h.act false _
  | share name stream =>
    simp only [Workspace.perform, show w.names.lookup name = some n from hc, h.names name hc]
    exact (h.putStream stream false false).act false _
  | pull stream count =>
    obtain ⟨⟨_, own, closed⟩, hfound, rfl⟩ := Option.map_eq_some_iff.1 hc
    exact h.actStream hfound _ _
  | drain stream =>
    obtain ⟨⟨_, own, closed⟩, hfound, rfl⟩ := Option.map_eq_some_iff.1 hc
    exact h.actStream hfound _ _
  | close stream =>
    obtain ⟨⟨_, own, closed⟩, hfound, rfl⟩ := Option.map_eq_some_iff.1 hc
    simp only [Workspace.perform, hfound, h.streams stream own closed hfound]
    exact (h.putStream stream own true).actStream List.lookup_cons_self _ _
  | _ => exact absurd hc.symm (Option.some_ne_none n)

/-- The commands about a session in the course of all commands, each with its answer. -/
def dealings (w : Workspace) (number : ℕ) : List Command → List (Command × Answer)
  | [] => []
  | c :: cs =>
    let (a, w') := w.perform c
    if w.concerned c = some number then (c, a) :: w'.dealings number cs
    else w'.dealings number cs

/-- **Commands about the session are answered alike, whatever comes between them.** -/
theorem Shares.performAll (h : Shares w n v m) (cs : List Command) :
    (v.performAll ((w.dealings n cs).map Prod.fst)).1 = (w.dealings n cs).map Prod.snd ∧
      Shares (w.performAll cs).2 n (v.performAll ((w.dealings n cs).map Prod.fst)).2 m := by
  induction cs generalizing w v with
  | nil => exact ⟨rfl, h⟩
  | cons c cs ih =>
    -- a command about the session is performed in both, any other one in the first only
    by_cases hc : w.concerned c = some n
    · obtain ⟨hanswer, hshares⟩ := h.perform hc
      obtain ⟨hanswers, hshares⟩ := ih hshares
      have hdealings : w.dealings n (c :: cs) =
          (c, (w.perform c).1) :: (w.perform c).2.dealings n cs := if_pos hc
      rw [hdealings]
      exact ⟨congrArg₂ List.cons hanswer hanswers, hshares⟩
    · have hdealings : w.dealings n (c :: cs) = (w.perform c).2.dealings n cs := if_neg hc
      rw [hdealings]
      exact ih (h.goesOn (w.goesOn_perform c) hc)

end Workspace

/-! ### A session among others and alone -/

/-- How a session is opened. -/
inductive Opening where
  /-- Under a name. -/
  | session (name : String)
  /-- For a stream of its own. -/
  | stream (name : String)

/-- The command that opens a session for a request. -/
def Opening.command (r : Request) : Opening → Command
  | session name => .create name r
  | stream name => .stream name r

/-- A session is the same wherever it is opened, if its configuration is. -/
theorem Workspace.shares_opening {w v : Workspace} (hw : w.WellFormed) {r r' : Request}
    (hr : r.toSession w.scope.current = r'.toSession v.scope.current) (o : Opening) :
    (v.perform (o.command r')).1 = (w.perform (o.command r)).1 ∧
      Shares (w.perform (o.command r)).2 w.sessions.length (v.perform (o.command r')).2
        v.sessions.length := by
  have hsession : ∃ s, (w.sessions ++ [r.toSession w.scope.current])[w.sessions.length]? = some s ∧
      (v.sessions ++ [r'.toSession v.scope.current])[v.sessions.length]? = some s :=
    ⟨_, List.getElem?_concat_length, hr ▸ List.getElem?_concat_length⟩
  -- nothing leads to the session before it is there
  cases o with
  | session name =>
    refine ⟨?_, hsession, fun other hother ↦ ?_, fun other own closed hother ↦ ?_⟩
    · rw [Opening.command, Opening.command, perform, perform, hr]
    · rcases lookup_cons_eq_some_iff.1 hother with ⟨heq, -⟩ | ⟨-, hother⟩
      · exact lookup_cons_eq_some_iff.2 (.inl ⟨heq, rfl⟩)
      · exact absurd (hw.names_lt other _ hother) (lt_irrefl _)
    · exact absurd (hw.streams_lt other _ hother) (lt_irrefl _)
  | stream name =>
    refine ⟨rfl, hsession, fun other hother ↦ ?_, fun other own closed hother ↦ ?_⟩
    · exact absurd (hw.names_lt other _ hother) (lt_irrefl _)
    · rcases lookup_cons_eq_some_iff.1 hother with ⟨heq, hnew⟩ | ⟨-, hother⟩
      · obtain ⟨-, rfl, rfl⟩ := TokenStream.mk.inj hnew
        exact lookup_cons_eq_some_iff.2 (.inl ⟨heq, rfl⟩)
      · exact absurd (hw.streams_lt other _ hother) (lt_irrefl _)

namespace Opening

variable (o : Opening) (r : Request)

/-- The commands about a session that is opened between others, each with its answer. -/
def dealings (before after : List Command) : List (Command × Answer) :=
  let w := (Workspace.empty.performAll before).2
  (w.perform (o.command r)).2.dealings w.sessions.length after

/-- **A session among others**: the answers that concern it, from its opening on, and the state in
which it is left. -/
def among (before after : List Command) : List Answer × Option Session :=
  let w := (Workspace.empty.performAll before).2
  let (a, w') := w.perform (o.command r)
  (a :: (o.dealings r before after).map Prod.snd,
    (w'.performAll after).2.sessions[w.sessions.length]?)

/-- **A session alone**, which is given its configuration: the answers to all commands, from its
opening on, and the state in which it is left. -/
def alone (config : Config) (cs : List Command) : List Answer × Option Session :=
  let (answers, w) := Workspace.empty.performAll (o.command { r with config := some config } :: cs)
  (answers, w.sessions[0]?)

end Opening

/-- **Sessions do not meet.** Of a session that is opened in the course of any commands, under a
name or for a stream, the commands about it get the same answers, with the same tokens and the same
events, and leave it in the same state as if they were the only ones and the session had been given
its configuration: the one it was opened with, or else the one in force at that point. That is the
last one put in force since the innermost open block was entered, or else the block's own, and the
default outside of all blocks (`inForce`). A block that is left, at its end or by a failure, brings
back the configuration in force at its entry, whatever its body did. -/
theorem sessions_independent {before : List Command} {blocks : List String}
    (hbefore : Nested [] before blocks) (o : Opening) (r : Request) (after : List Command) :
    o.among r before after = o.alone r (r.config.getD (inForce 0 before.reverse))
        ((o.dealings r before after).map Prod.fst) ∧
      (∃ s, (o.among r before after).2 = some s) ∧
      (Workspace.empty.performAll before).2.scope.current = inForce 0 before.reverse ∧
      ∀ (earlier body : List Command) (block : String) (config : Config),
        before = earlier ++ .enter block config :: (body ++ [.leave block]) → Nested [] body [] →
          (Workspace.empty.performAll before).2.scope.current =
            (Workspace.empty.performAll earlier).2.scope.current := by
  have hcurrent := current_performAll hbefore
  have hr : r.toSession (Workspace.empty.performAll before).2.scope.current =
      { r with config := some (r.config.getD (inForce 0 before.reverse)) }.toSession
        Workspace.empty.scope.current := by
    rw [Request.toSession, hcurrent]
    rfl
  obtain ⟨hanswer, hshares⟩ :=
    Workspace.shares_opening (Workspace.wellFormed_empty.performAll before) hr o
  obtain ⟨hanswers, hshares⟩ := hshares.performAll after
  obtain ⟨s, hs, hs'⟩ := hshares.exists_session
  refine ⟨?_, ⟨s, hs⟩, hcurrent, ?_⟩
  · exact Prod.ext (congrArg₂ List.cons hanswer hanswers).symm (hs.trans hs'.symm)
  · rintro earlier body block config rfl hbody
    exact current_performAll_block hbefore hbody

/-- A session is opened in a block, behind another block that has been left, and outlives it. It
warns as the block says, although the default is in force by the time it scans, and another session
over the same text is used in between. -/
theorem sessions_independent_blocks :
    ∃ before after : List Command,
      before = [.enter "b" ⟨.bool true, .bool true⟩, .create "t" ⟨"é", none, none⟩,
        .enter "c" ⟨.bool false, .bool false⟩, .resetConfig, .leave "c"] ∧
      after = [.leave "b", .operate "t" .next, .operate "s" .next, .operate "t" .next] ∧
      Nested [] before ["b"] ∧
      ((Opening.session "s").among ⟨"é", none, none⟩ before after).1.map Answer.pulled =
        [[], [some ⟨"é", .malformed, 1, 1, 0, 1, .null⟩]] ∧
      (((Opening.session "s").among ⟨"é", none, none⟩ before after).1.flatMap
          Answer.events).map Event.message =
        ["Scanning 1 characters from <string>", "Malformed character 'é' at 1:1",
          "Finished <string>: 1 tokens, 1 malformed"] ∧
      (Workspace.empty.performAll before).2.scope.current = ⟨.bool true, .bool true⟩ := by
  have hnested : Nested [] [.enter "b" ⟨.bool true, .bool true⟩, .create "t" ⟨"é", none, none⟩,
      .enter "c" ⟨.bool false, .bool false⟩, .resetConfig, .leave "c"] ["b"] := rfl
  obtain ⟨halone, -, -, hblock⟩ := sessions_independent hnested (.session "s") ⟨"é", none, none⟩
    [.leave "b", .operate "t" .next, .operate "s" .next, .operate "t" .next]
  have hrestored := hblock [.enter "b" ⟨.bool true, .bool true⟩, .create "t" ⟨"é", none, none⟩]
    [.resetConfig] "c" ⟨.bool false, .bool false⟩ rfl rfl
  refine ⟨_, _, rfl, rfl, hnested, ?_, ?_, hrestored⟩
  · rw [halone]
    rfl
  · rw [halone]
    decide +kernel

end TokenScan
