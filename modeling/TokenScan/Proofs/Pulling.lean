import Mathlib.Algebra.GroupWithZero.Nat
import TokenScan.Proofs.Session.Pull
import TokenScan.Workspace

/-!
# Consumers that share a session

The consumers of a session ask it for tokens directly or through streams that draw from it, in any
order, and may make more streams at any time. `Use` is one such act, and a list of uses is an
interleaving of all of them.

Whoever asks, what counts is only how many tokens were asked for before. One use is as many requests
as it has pulls (`Serves.perform`), so a whole interleaving is one row of requests
(`Serves.performAll`): its answers are the tokens of the text in order, each given out once.
-/

namespace TokenScan

/-! ### Uses of one session -/

/-- What a consumer of a session does. -/
inductive Use where
  /-- Asks the session for the next token. -/
  | next
  /-- Makes a stream that draws from the session. -/
  | share (stream : String)
  /-- Pulls tokens from a stream. -/
  | pull (stream : String) (count : ℕ)

namespace Use

/-- The command for a use of the session under a name. -/
def command (name : String) : Use → Command
  | next => .operate name .next
  | share stream => .share name stream
  | pull stream count => .pull stream count

/-- How many tokens a use asks for. -/
def pulls : Use → ℕ
  | next => 1
  | share _ => 0
  | pull _ count => count

/-- How many tokens uses ask for together. -/
def total (us : List Use) : ℕ := (us.map pulls).sum

/-- The streams that draw from the session behind a use. -/
def streams (made : List String) : Use → List String
  | share stream => stream :: made
  | _ => made

/-- A use pulls only from streams that draw from the session. -/
def Draws (made : List String) : Use → Prop
  | pull stream _ => stream ∈ made
  | _ => True

/-- All uses pull only from streams that draw from the session, since they were made before. -/
def AllDraw (made : List String) : List Use → Prop
  | [] => True
  | u :: us => u.Draws made ∧ AllDraw (u.streams made) us

/-- A list of uses with one more behind it. -/
theorem allDraw_concat {made : List String} {us : List Use} {u : Use} :
    AllDraw made (us ++ [u]) ↔ AllDraw made us ∧ u.Draws (us.foldl streams made) := by
  induction us generalizing made with
  | nil => simp [AllDraw]
  | cons v us ih => simp [AllDraw, ih, and_assoc]

end Use

/-- The tokens that a reply hands out, none for each pull behind the end. -/
def Reply.pulled : Reply → List (Option Token)
  | .token t => [t]
  | .tokens ts => ts
  | _ => []

/-- The tokens that an answer hands out. -/
def Answer.pulled (a : Answer) : List (Option Token) :=
  match a.reply with
  | .ok reply => reply.pulled
  | .error _ => []

namespace Workspace

variable {w : Workspace} {name : String} {made : List String} {number : ℕ} {s : Session}

/-- Replaces a session. -/
def putSession (w : Workspace) (number : ℕ) (s : Session) : Workspace :=
  { w with sessions := w.sessions.set number s }

/-- Putting back the session that is there changes nothing. -/
theorem putSession_self (h : w.sessions[number]? = some s) : w.putSession number s = w := by
  obtain ⟨hlt, rfl⟩ := List.getElem?_eq_some_iff.1 h
  rw [putSession, List.set_getElem_self hlt]

theorem getElem?_putSession (h : w.sessions[number]? = some s) (s' : Session) :
    (w.putSession number s').sessions[number]? = some s' := by
  obtain ⟨hlt, -⟩ := List.getElem?_eq_some_iff.1 h
  exact List.getElem?_set_self hlt

/-- A session that exists acts, and takes its old place. -/
theorem act_of_getElem? (h : w.sessions[number]? = some s) (own : Bool)
    (f : Session → Except Failure Reply × Session) :
    w.act number own f = (⟨(f s).1, (f s).2.log.toList.drop s.log.size,
      if own then none else some (f s).2⟩, w.putSession number (f s).2) := by
  rw [act, h]
  rfl

/-! ### A session and its streams -/

/-- A workspace in which a name and some streams all lead to one session. -/
structure Serves (w : Workspace) (name : String) (made : List String) (number : ℕ)
    (s : Session) : Prop where
  /-- The name refers to the number. -/
  lookup_name : w.names.lookup name = some number
  /-- The session has the number. -/
  getElem?_sessions : w.sessions[number]? = some s
  /-- The streams draw from the session and are open. -/
  lookup_stream : ∀ stream ∈ made, w.streams.lookup stream = some ⟨number, false, false⟩

/-- A session that has just been opened is served, to no stream yet. -/
theorem serves_create (w : Workspace) (name : String) (r : Request) :
    (w.perform (.create name r)).2.Serves name [] w.sessions.length
      (r.toSession w.scope.current) where
  lookup_name := List.lookup_cons_self
  getElem?_sessions := List.getElem?_concat_length
  lookup_stream := by simp

/-- The streams go on with the session when it is replaced. -/
theorem Serves.putSession (h : w.Serves name made number s) (s' : Session) :
    (w.putSession number s').Serves name made number s' :=
  ⟨h.lookup_name, getElem?_putSession h.getElem?_sessions s', h.lookup_stream⟩

/-- A new stream joins those that there are, also under a name that is taken. -/
theorem Serves.putStream (h : w.Serves name made number s) (stream : String) :
    (w.putStream stream ⟨number, false, false⟩).Serves name (stream :: made) number s := by
  refine ⟨h.lookup_name, h.getElem?_sessions, fun other hother ↦ ?_⟩
  by_cases heq : other = stream
  · rw [heq]
    exact List.lookup_cons_self
  · have hne : (other == stream) = false := beq_false_of_ne heq
    rw [Workspace.putStream, List.lookup_cons, hne]
    exact h.lookup_stream other (List.mem_of_ne_of_mem heq hother)

/-! ### One use, and all of them -/

/-- The workspace with the stream that a use makes. -/
def join (w : Workspace) (number : ℕ) : Use → Workspace
  | .share stream => w.putStream stream ⟨number, false, false⟩
  | _ => w

/-- **What a use does**: as many requests as it has pulls. The answer hands out theirs and shows
what they logged, and but for them only a new stream changes the workspace. -/
theorem Serves.perform_eq (h : w.Serves name made number s) {u : Use} (hu : u.Draws made) :
    ∃ reply : Reply, reply.pulled = (s.pull u.pulls).1 ∧
      w.perform (u.command name) =
        (⟨.ok reply, (s.pull u.pulls).2.log.toList.drop s.log.size, some (s.pull u.pulls).2⟩,
          (w.join number u).putSession number (s.pull u.pulls).2) := by
  cases u with
  | next =>
    refine ⟨.token s.next.1, rfl, ?_⟩
    rw [Use.command, perform, h.lookup_name]
    exact act_of_getElem? h.getElem?_sessions false _
  | share stream =>
    refine ⟨.nothing, rfl, ?_⟩
    rw [Use.command, perform, h.lookup_name]
    exact act_of_getElem? (h.putStream stream).getElem?_sessions false _
  | pull stream count =>
    refine ⟨.tokens (s.pull count).1, rfl, ?_⟩
    rw [Use.command, perform, actStream, h.lookup_stream stream hu]
    exact act_of_getElem? h.getElem?_sessions false _

theorem Serves.join (h : w.Serves name made number s) (u : Use) :
    (w.join number u).Serves name (u.streams made) number s := by
  cases u with
  | next => exact h
  | share stream => exact h.putStream stream
  | pull stream count => exact h

/-- **One use takes the next tokens**, and is served to the streams behind it. -/
theorem Serves.perform (h : w.Serves name made number s) {u : Use} (hu : u.Draws made) :
    (w.perform (u.command name)).1.pulled = (s.pull u.pulls).1 ∧
      (w.perform (u.command name)).2.Serves name (u.streams made) number (s.pull u.pulls).2 := by
  obtain ⟨reply, hreply, heq⟩ := h.perform_eq hu
  rw [heq]
  exact ⟨hreply, (h.join u).putSession _⟩

/-- **An interleaving of uses is one row of requests**, whoever makes them. -/
theorem Serves.performAll (h : w.Serves name made number s) {us : List Use}
    (hus : Use.AllDraw made us) :
    (w.performAll (us.map (Use.command name))).1.flatMap Answer.pulled =
        (s.pull (Use.total us)).1 ∧
      (w.performAll (us.map (Use.command name))).2.Serves name (us.foldl Use.streams made) number
        (s.pull (Use.total us)).2 := by
  induction us generalizing w made s with
  | nil => exact ⟨rfl, h⟩
  | cons u us ih =>
    obtain ⟨hu, hus⟩ := hus
    obtain ⟨hpulled, hserves⟩ := h.perform hu
    obtain ⟨hrest, hserves'⟩ := ih hserves hus
    have htotal : Use.total (u :: us) = u.pulls + Use.total us := List.sum_cons
    rw [htotal, s.pull_add, ← hpulled, ← hrest]
    exact ⟨rfl, hserves'⟩

/-- A pull behind the end hands out nothing, logs nothing and changes nothing. -/
theorem Serves.perform_of_atEnd (h : w.Serves name made number s) (hs : s.started = true)
    (hend : s.atEnd = true) {u : Use} (hu : u.Draws made) (hone : u.pulls = 1) :
    (w.perform (u.command name)).1.pulled = [none] ∧
      (w.perform (u.command name)).1.events = [] ∧ (w.perform (u.command name)).2 = w := by
  obtain ⟨reply, hreply, heq⟩ := h.perform_eq hu
  have hjoin : w.join number u = w := by
    cases u with
    | share stream => exact absurd hone Nat.zero_ne_one
    | next | pull => rfl
  rw [s.pull_of_atEnd hs hend, hone] at hreply
  rw [heq, s.pull_of_atEnd hs hend, hjoin, putSession_self h.getElem?_sessions]
  exact ⟨hreply, List.drop_of_length_le (by simp), rfl⟩

end Workspace

/-! ### The tokens of a session among its consumers -/

/-- A session is opened for a request, under a name, and then used. -/
def Request.use (r : Request) (w : Workspace) (name : String) (us : List Use) :
    List Answer × Workspace :=
  (w.perform (.create name r)).2.performAll (us.map (Use.command name))

/-- The uses of a session that has just been opened are one row of requests. -/
theorem Request.pulled_use (r : Request) (w : Workspace) (name : String) {us : List Use}
    (hus : Use.AllDraw [] us) :
    (r.use w name us).1.flatMap Answer.pulled =
        ((r.toSession w.scope.current).pull (Use.total us)).1 ∧
      (r.use w name us).2.Serves name (us.foldl Use.streams []) w.sessions.length
        ((r.toSession w.scope.current).pull (Use.total us)).2 :=
  (w.serves_create name r).performAll hus

/-- **The consumers of a session share its tokens.** Whatever the order in which they pull, the
answers are the tokens of the source in order, each once, and none for every pull behind the last.
After the first pull the session stands where the next token starts, or at the end of the source, so
that it is at the end exactly if the next pull, by whichever consumer, finds nothing. Once a pull
has found nothing, every further one finds nothing, logs nothing and leaves everything as it is. -/
theorem pulls_in_order (r : Request) (w : Workspace) (name : String) {us : List Use}
    (hus : Use.AllDraw [] us) :
    (r.use w name us).1.flatMap Answer.pulled =
        (List.range (Use.total us)).map
          (fun i ↦ (tokenize r.source r.origin (r.config.getD w.scope.current))[i]?) ∧
      ∃ s, (r.use w name us).2.sessions[w.sessions.length]? = some s ∧
        (0 < Use.total us → (s.cursor.position.offset : ℤ) =
          ((tokenize r.source r.origin (r.config.getD w.scope.current))[Use.total us]?.map
            Token.offset).getD r.source.length) ∧
        ∀ u : Use, u.pulls = 1 → Use.AllDraw [] (us ++ [u]) →
          (0 < Use.total us → (s.atEnd = true ↔
            ((r.use w name us).2.perform (u.command name)).1.pulled = [none])) ∧
          (none ∈ (r.use w name us).1.flatMap Answer.pulled →
            ((r.use w name us).2.perform (u.command name)).1.pulled = [none] ∧
              ((r.use w name us).2.perform (u.command name)).1.events = [] ∧
                ((r.use w name us).2.perform (u.command name)).2 = (r.use w name us).2) := by
  set s₀ := r.toSession w.scope.current
  obtain ⟨hpulled, hserves⟩ := r.pulled_use w name hus
  refine ⟨hpulled.trans (s₀.pull_fst _), _, hserves.getElem?_sessions, fun hpos ↦ ?_,
    fun u hone hall ↦ ?_⟩
  · obtain ⟨answer, hreach⟩ :=
      Moment.reachable_pull r.source r.origin (r.config.getD w.scope.current) (Use.total us)
    have hoffset := Session.offset_eq_of_started (s₀.started_pull hpos) hreach.within
    rw [Session.drain_pull, List.head?_drop, String.length_toList] at hoffset
    exact hoffset
  · have hdraws := (Use.allDraw_concat.1 hall).2
    refine ⟨fun hpos ↦ ?_, fun hnone ↦ ?_⟩
    · rw [(hserves.perform hdraws).1, hone, Session.atEnd_iff_drain (s₀.started_pull hpos),
        ← List.head?_eq_none_iff, ← Session.next_fst]
      exact List.singleton_inj.symm
    · obtain ⟨hstarted, hend⟩ := s₀.atEnd_of_none_mem_pull (hpulled ▸ hnone)
      exact hserves.perform_of_atEnd hstarted hend hdraws hone

/-- Two streams and a direct request take turns over two tokens. The comment that stays open is
passed with the last of them, and then either stream finds nothing. -/
theorem pulls_in_order_turns :
    ∃ us : List Use, us = [.share "a", .next, .share "b", .pull "b" 1, .pull "a" 1] ∧
      Use.AllDraw [] us ∧
      (Request.use ⟨"x y/*", none, none⟩ .empty "s" us).1.flatMap Answer.pulled =
        [some ⟨"x", .identifier, 1, 1, 0, 1, .null⟩, some ⟨"y", .identifier, 1, 3, 2, 3, .null⟩,
          none] ∧
      (∃ s, (Request.use ⟨"x y/*", none, none⟩ .empty "s" us).2.sessions[0]? = some s ∧
        (s.cursor.position.offset : ℤ) = 5 ∧ s.atEnd = true) ∧
      ((Request.use ⟨"x y/*", none, none⟩ .empty "s" us).2.perform
        (.pull "b" 1)).1.pulled = [none] := by
  have hall : Use.AllDraw []
      ([.share "a", .next, .share "b", .pull "b" 1, .pull "a" 1] ++ [.pull "b" 1]) := by
    simp [Use.AllDraw, Use.Draws, Use.streams]
  have hus := (Use.allDraw_concat.1 hall).1
  obtain ⟨hpulled, s, hs, hoffset, hnext⟩ :=
    pulls_in_order ⟨"x y/*", none, none⟩ .empty "s" hus
  have hlast := hnext (.pull "b" 1) rfl hall
  have hnone := hlast.2 (by rw [hpulled]; exact .tail _ (.tail _ (.head _)))
  exact ⟨_, rfl, hus, hpulled.trans rfl, ⟨s, hs, hoffset (by decide),
    (hlast.1 (by decide)).2 hnone.1⟩, hnone.1⟩

end TokenScan
