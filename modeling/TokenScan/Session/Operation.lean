import TokenScan.Session

/-!
# Operations on a session

Everything that can be done with a single session, as data: asking for tokens, which is what
consumers do, and single actions of the recognizer, which let its work be followed step by step. An
operation answers with a `Reply` or a `Failure`, and always leaves a session behind.

Two operations can fail: a step of a state that has none, and ending a lexeme with a category that
does not exist.
-/

namespace TokenScan

/-- What an operation or a command gives back. -/
inductive Reply where
  /-- Nothing of interest. -/
  | nothing
  /-- A token, or none at the end. -/
  | token (t : Option Token)
  /-- Tokens that were pulled one by one, none for each pull behind the end. -/
  | tokens (ts : List (Option Token))
  /-- The lexemes and categories of tokens. -/
  | pairs (ps : List (String × Category))
  /-- A character, or none at the end of input. -/
  | char (c : Option Char)
  /-- Characters, none for each one behind the end of input. -/
  | chars (cs : List (Option Char))
  /-- A text. -/
  | text (s : String)
  /-- A location. -/
  | location (l : Location)
  /-- The configuration in force. -/
  | config (c : Config)

/-- Why an operation or a command failed. -/
inductive Failure where
  /-- A step was asked of a state that has none. -/
  | state (error : StateError)
  /-- A value names no category. -/
  | category (error : Category.Unknown)
  /-- Nothing has this name. -/
  | name (name : String)

namespace Session

/-- What can be done with a single session. -/
inductive Operation where
  /-- Ask for the next token. -/
  | next
  /-- Ask for all remaining tokens. -/
  | drain
  /-- Only look at the session. -/
  | inspect
  /-- Look at the next character. -/
  | peek
  /-- Look at the character behind the next one. -/
  | peekNext
  /-- Drop characters. -/
  | drop (count : Nat)
  /-- Take a character into the lexeme. -/
  | take
  /-- Skip the gap at the cursor. -/
  | skip
  /-- Scan a lexeme where the cursor stands. -/
  | scanToken
  /-- Remember the cursor as the start of a lexeme. -/
  | save
  /-- Ask for the location of the cursor. -/
  | here
  /-- Set the state of the recognizer. -/
  | setState (state : State)
  /-- End the lexeme with the category that a value names. -/
  | finish (category : Json)
  /-- Take one step of the recognizer. -/
  | dispatch

/-- Lets the recognizer act on its own. -/
def update (s : Session) (f : Recognizer → Recognizer) : Session :=
  { s with recognizer := f s.recognizer }

/-- Performs an operation. A failed step still looks at the next character. -/
def perform (s : Session) : Operation → Except Failure Reply × Session
  | .next =>
    let (t, s) := s.next
    (.ok (.token t), s)
  | .drain =>
    let (ts, s) := s.drain
    (.ok (.pairs (ts.map Token.pair)), s)
  | .inspect => (.ok .nothing, s)
  | .peek => (.ok (.char s.cursor.peek), s)
  | .peekNext => (.ok (.char s.cursor.peekNext), s)
  | .drop count =>
    let (cs, r) := s.recognizer.dropMany count
    (.ok (.chars cs), { s with recognizer := r })
  | .take =>
    let s := s.update Recognizer.take
    (.ok (.text s.recognizer.lexeme), s)
  | .skip => (.ok .nothing, s.skip)
  | .scanToken =>
    let (t, s) := s.scanToken
    (.ok (.token (some t)), s)
  | .save => (.ok .nothing, s.update Recognizer.save)
  | .here => (.ok (.location s.here), s)
  | .setState state => (.ok .nothing, s.update fun r ↦ { r with state })
  | .finish category =>
    match Category.find category with
    | .ok c => (.ok .nothing, s.update (·.finish c))
    | .error e => (.error (.category e), s)
  | .dispatch =>
    match s.recognizer.dispatch with
    | .ok r => (.ok .nothing, { s with recognizer := r })
    | .error e => (.error (.state e), s.update Recognizer.look)

end Session

end TokenScan
