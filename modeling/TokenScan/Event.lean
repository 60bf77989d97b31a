import TokenScan.Location

/-!
# What a session logs

Everything a session reports about its work is an event. The wording, the level and the channel of
an event are functions of it, so what was logged can be compared without comparing texts.

Channels form one namespace: `channelName` puts every name that lies outside it inside.
-/

namespace TokenScan

/-- How serious an event is. -/
inductive Level where
  /-- Of interest to developers. -/
  | debug
  /-- Of interest to users. -/
  | warning
  deriving DecidableEq, Repr

/-- The name of a level. -/
def Level.name : Level → String
  | .debug => "DEBUG"
  | .warning => "WARNING"

/-- Something a session reports. -/
inductive Event where
  /-- Scanning starts on a text of some length. -/
  | scanning (length : Nat) (text : String)
  /-- The end of input was reached, after so many tokens. -/
  | finished (text : String) (tokens malformed : Nat)
  /-- A character outside the language was found. -/
  | malformed (lexeme : String) (location : Location)
  /-- A comment ran to the end of input. -/
  | openComment (location : Location)

namespace Event

/-- The level of an event: problems of the input are warnings. -/
def level : Event → Level
  | .scanning .. => .debug
  | .finished .. => .debug
  | .malformed .. => .warning
  | .openComment .. => .warning

/-- The name above all channels. -/
def channelRoot : String := "minilex"

/-- A name within the namespace of channels. -/
def channelName (name : String) : String :=
  if name = channelRoot ∨ (channelRoot ++ ".").toList.isPrefixOf name.toList then name
  else channelRoot ++ "." ++ name

/-- The channel of an event: gaps report on one of their own. -/
def channel : Event → String
  | .openComment .. => channelName "lexer.skipper"
  | _ => channelName "lexer.core"

/-- The wording of an event. -/
def message : Event → String
  | .scanning length text => s!"Scanning {length} characters from {text}"
  | .finished text tokens bad => s!"Finished {text}: {tokens} tokens, {bad} malformed"
  | .malformed lexeme location =>
    s!"Malformed character {quoted lexeme} at {location.text}"
  | .openComment location =>
    s!"Block comment opened at {location.text} is not closed before end of input"

end Event

end TokenScan
