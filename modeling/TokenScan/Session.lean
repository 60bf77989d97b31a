import TokenScan.Config.Basic
import TokenScan.Event
import TokenScan.Gap
import TokenScan.Recognizer.Basic
import TokenScan.Token.Basic

/-!
# Scanning sessions

A session is one pass over one text: a recognizer, with the counters, the record of an open comment
and the log that go with the pass. Nothing is shared between sessions; every operation takes a
session and returns the next one.

`scanToken` recognizes the lexeme where the cursor stands. `next` is what a consumer calls: it skips
the gap before the first lexeme, scans one lexeme, and skips the gap behind it; so between two calls
the cursor stands at the next lexeme or at the end of input.

The configuration is consulted in two places, `reportOpenComment` and `count`, and decides in both
only whether an event is logged.

Every token takes at least one character, so `drain` needs no more calls of `next` than there are
unread characters, and one that finds the end.
-/

namespace TokenScan

/-- One pass over one text. -/
structure Session where
  /-- The whole text. -/
  source : String
  /-- The name of the text, if it has one. -/
  origin : Option String
  /-- The configuration, fixed when the session is opened. -/
  config : Config
  /-- The recognizer, with the cursor. -/
  recognizer : Recognizer
  /-- Whether a token has been asked for. -/
  started : Bool
  /-- The number of tokens so far. -/
  tokens : Nat
  /-- The number of malformed tokens so far. -/
  malformed : Nat
  /-- Where the comment was opened that ran to the end of input, if one did. -/
  openComment : Option Location
  /-- What has been logged, in order. -/
  log : Array Event

namespace Session

/-- A new session over a text. -/
def ofSource (source : String) (origin : Option String) (config : Config) : Session where
  source
  origin
  config
  recognizer := .ofText source.toList
  started := false
  tokens := 0
  malformed := 0
  openComment := none
  log := #[]

/-- Where the session stands. -/
def cursor (s : Session) : Cursor := s.recognizer.cursor

/-- Whether the whole text has been read. -/
def atEnd (s : Session) : Bool := s.cursor.atEnd

/-- The name of the text as a value. -/
def originValue (s : Session) : Json :=
  match s.origin with
  | none => .null
  | some name => .str name

/-- The name of the text for the log; a text without one has a name of its own. -/
def originName (s : Session) : String :=
  match s.origin with
  | none => "<string>"
  | some name => if name = "" then "<string>" else name

/-- The location of the cursor. -/
def here (s : Session) : Location := .ofPosition s.cursor.position s.originValue

/-- Logs an event. -/
def emit (s : Session) (e : Event) : Session := { s with log := s.log.push e }

/-- Logs an event if a switch is on. -/
def emitIf (s : Session) (switch : Json) (e : Event) : Session :=
  if switch.truthy then s.emit e else s

/-! ### Gaps -/

/-- Records a comment that ran to the end of input, and warns about it if asked to. -/
def reportOpenComment (s : Session) (p : Position) : Session :=
  let location := Location.ofPosition p s.originValue
  { s with openComment := some location }.emitIf s.config.warnOpenComment (.openComment location)

/-- Moves the cursor. -/
def moveTo (s : Session) (cursor : Cursor) : Session :=
  { s with recognizer := { s.recognizer with cursor } }

/-- Skips the gap at the cursor. -/
def skip (s : Session) : Session :=
  let skipped := skipGap s.cursor
  match skipped.openedAt with
  | none => s.moveTo skipped.cursor
  | some p => (s.moveTo skipped.cursor).reportOpenComment p

/-! ### Lexemes -/

/-- The token of the lexeme that is done. -/
def token (s : Session) : Token where
  lexeme := s.recognizer.lexeme
  category := s.recognizer.category.getD .malformed
  line := s.recognizer.saved.line
  column := s.recognizer.saved.column
  offset := s.recognizer.saved.offset
  endOffset := s.cursor.position.offset
  origin := s.originValue

/-- Counts a token, and warns about a malformed one if asked to. -/
def count (s : Session) (t : Token) : Session :=
  if t.isMalformed then
    { s with tokens := s.tokens + 1, malformed := s.malformed + 1 }.emitIf
      s.config.warnMalformed (.malformed t.lexeme t.location)
  else { s with tokens := s.tokens + 1 }

/-- Scans one lexeme from where the cursor stands, without skipping anything. -/
def scanToken (s : Session) : Token × Session :=
  let s := { s with recognizer := s.recognizer.recognize }
  (s.token, s.count s.token)

/-! ### Tokens -/

/-- Logs that the end of input has been reached. -/
def logFinished (s : Session) : Session :=
  s.emit (.finished s.originName s.tokens s.malformed)

/-- Logs the end of input if it has been reached. -/
def logIfFinished (s : Session) : Session := if s.atEnd then s.logFinished else s

/-- Scans the lexeme at the cursor and skips the gap behind it. -/
def produce (s : Session) : Token × Session :=
  let (t, s) := s.scanToken
  (t, s.skip.logIfFinished)

/-- Logs the start of the session and skips the gap before the first lexeme. -/
def start (s : Session) : Session :=
  ({ s with started := true }.emit (.scanning s.source.length s.originName)).skip

/-- The next token, if there is one. -/
def next (s : Session) : Option Token × Session :=
  if s.started then
    if s.atEnd then (none, s)
    else
      let (t, s) := s.produce
      (some t, s)
  else
    let s := s.start
    if s.atEnd then (none, s.logFinished)
    else
      let (t, s) := s.produce
      (some t, s)

/-- Asks for a number of tokens. -/
def pull : Nat → Session → List (Option Token) × Session
  | 0, s => ([], s)
  | n + 1, s =>
    let (t, s) := s.next
    let (ts, s) := pull n s
    (t :: ts, s)

/-- Asks for tokens until there are no more; the unread text bounds their number. -/
def drainWithin : List Char → Session → List Token × Session
  | [], s => ([], s.next.2)
  | _ :: unread, s =>
    match s.next with
    | (none, s) => ([], s)
    | (some t, s) =>
      let (ts, s) := drainWithin unread s
      (t :: ts, s)

/-- All remaining tokens. -/
def drain (s : Session) : List Token × Session := drainWithin s.cursor.rest s

end Session

/-- All tokens of a text. -/
def tokenize (source : String) (origin : Option String) (config : Config) : List Token :=
  (Session.ofSource source origin config).drain.1

end TokenScan
