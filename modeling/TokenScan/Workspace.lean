import TokenScan.Config.Scope
import TokenScan.Session.Operation

/-!
# Several sessions side by side

A workspace holds sessions under names, streams of tokens under names of their own, and the scope
that says which configuration is in force. Commands act on it one at a time; each answers with a
reply or a failure, with what was logged meanwhile, and with the session it concerned.

## Streams share, sessions do not

A stream is a way to pull tokens from a session. Several streams may draw from one session and then
share its tokens between them; a stream made from a text has a session to itself, which no name
refers to. Sessions are kept by number, so a stream goes on with its own session when a name is
given to another. Closing a stream stops that stream and leaves its session alone.

## When configuration is read

A session gets the configuration it is given, or else the one in force at the moment it is opened,
and keeps it.
-/

namespace TokenScan

/-! ### Texts, streams and commands -/

/-- A text to be scanned, with its name and configuration if they are given. -/
structure Request where
  /-- The text. -/
  source : String
  /-- The name of the text. -/
  origin : Option String
  /-- The configuration to scan it with. -/
  config : Option Config

/-- Opens a session, with the configuration in force unless another is given. -/
def Request.toSession (r : Request) (current : Config) : Session :=
  .ofSource r.source r.origin (r.config.getD current)

/-- A way to pull tokens from a session. -/
structure TokenStream where
  /-- The number of the session. -/
  session : Nat
  /-- Whether the session is its own. -/
  own : Bool
  /-- Whether it has been closed. -/
  closed : Bool

/-- Sessions and streams under names, and the scope of configurations. -/
structure Workspace where
  /-- The configuration in force. -/
  scope : Scope
  /-- All sessions, by number. -/
  sessions : List Session
  /-- The numbers that names refer to. -/
  names : List (String × Nat)
  /-- The streams that names refer to. -/
  streams : List (String × TokenStream)

/-- What can be asked of a workspace. -/
inductive Command where
  /-- Open a session under a name. -/
  | create (name : String) (request : Request)
  /-- Operate on a session. -/
  | operate (name : String) (operation : Session.Operation)
  /-- Make a stream that draws from a session. -/
  | share (name stream : String)
  /-- Make a stream with a session of its own. -/
  | stream (stream : String) (request : Request)
  /-- Pull tokens from a stream. -/
  | pull (stream : String) (count : Nat)
  /-- Pull all remaining tokens from a stream. -/
  | drain (stream : String)
  /-- Close a stream. -/
  | close (stream : String)
  /-- Scan a text at once. -/
  | tokenize (request : Request)
  /-- Ask for the configuration in force. -/
  | config
  /-- Ask for the configuration in force outside of every scope. -/
  | outerConfig
  /-- Put a configuration in force. -/
  | setConfig (config : Config)
  /-- Put the default configuration in force. -/
  | resetConfig
  /-- Enter a block with a configuration of its own. -/
  | enter (block : String) (config : Config)
  /-- Leave a block. -/
  | leave (block : String)

/-- The answer to a command. -/
structure Answer where
  /-- What came of it. -/
  reply : Except Failure Reply
  /-- What was logged meanwhile. -/
  events : List Event
  /-- The session it concerned, as it is afterwards. -/
  session : Option Session

/-! ### Performing commands -/

namespace Workspace

/-- An empty workspace in the initial scope. -/
def empty : Workspace := ⟨.initial, [], [], []⟩

/-- Adds a session; its number is the number of sessions before it. -/
def addSession (w : Workspace) (s : Session) : Workspace :=
  { w with sessions := w.sessions ++ [s] }

/-- Gives a stream name to a stream. -/
def putStream (w : Workspace) (name : String) (stream : TokenStream) : Workspace :=
  { w with streams := (name, stream) :: w.streams }

/-- The answer that concerns no session and logs nothing. -/
def quiet (reply : Reply) : Answer := ⟨.ok reply, [], none⟩

/-- The answer that shows the configuration in force. -/
def showConfig (w : Workspace) : Answer × Workspace := (quiet (.config w.scope.current), w)

/-- The answer for a name that refers to nothing. -/
def missing (w : Workspace) (name : String) : Answer × Workspace :=
  (⟨.error (.name name), [], none⟩, w)

/-- Lets a session act, by its number; a number without a session changes nothing. -/
def act (w : Workspace) (number : Nat) (own : Bool)
    (f : Session → Except Failure Reply × Session) : Answer × Workspace :=
  match w.sessions[number]? with
  | none => (⟨.ok .nothing, [], none⟩, w)
  | some s =>
    let (reply, s') := f s
    (⟨reply, s'.log.toList.drop s.log.size, if own then none else some s'⟩,
      { w with sessions := w.sessions.set number s' })

/-- Lets a stream act: on its session, or on nothing once it is closed. -/
def actStream (w : Workspace) (name : String) (idle : Reply)
    (f : Session → Reply × Session) : Answer × Workspace :=
  match w.streams.lookup name with
  | none => w.missing name
  | some stream =>
    w.act stream.session stream.own fun s ↦
      if stream.closed then (.ok idle, s)
      else
        let (reply, s) := f s
        (.ok reply, s)

/-- Performs a command. -/
def perform (w : Workspace) : Command → Answer × Workspace
  | .create name request =>
    let s := request.toSession w.scope.current
    let w := { w with names := (name, w.sessions.length) :: w.names }.addSession s
    (⟨.ok .nothing, [], some s⟩, w)
  | .operate name operation =>
    match w.names.lookup name with
    | none => w.missing name
    | some number => w.act number false fun s ↦ s.perform operation
  | .share name stream =>
    match w.names.lookup name with
    | none => w.missing name
    | some number =>
      (w.putStream stream ⟨number, false, false⟩).act number false fun s ↦ (.ok .nothing, s)
  | .stream stream request =>
    let w := (w.putStream stream ⟨w.sessions.length, true, false⟩).addSession
      (request.toSession w.scope.current)
    (quiet .nothing, w)
  | .pull stream count =>
    w.actStream stream (.tokens (List.replicate count none)) fun s ↦
      let (ts, s) := s.pull count
      (.tokens ts, s)
  | .drain stream =>
    w.actStream stream (.pairs []) fun s ↦
      let (ts, s) := s.drain
      (.pairs (ts.map Token.pair), s)
  | .close stream =>
    match w.streams.lookup stream with
    | none => w.missing stream
    | some old =>
      (w.putStream stream { old with closed := true }).actStream stream .nothing fun s ↦
        (.nothing, s)
  | .tokenize request =>
    let (ts, s) := (request.toSession w.scope.current).drain
    (⟨.ok (.pairs (ts.map Token.pair)), s.log.toList, none⟩, w)
  | .config => w.showConfig
  | .outerConfig => (quiet (.config Scope.initial.current), w)
  | .setConfig config => { w with scope := w.scope.set config }.showConfig
  | .resetConfig => { w with scope := w.scope.reset }.showConfig
  | .enter block config => { w with scope := w.scope.enter block config }.showConfig
  | .leave block => { w with scope := w.scope.leave block }.showConfig

/-- Performs commands in order and collects their answers. -/
def performAll (w : Workspace) : List Command → List Answer × Workspace
  | [] => ([], w)
  | c :: cs =>
    let (a, w) := w.perform c
    let (answers, w) := w.performAll cs
    (a :: answers, w)

end Workspace

end TokenScan
