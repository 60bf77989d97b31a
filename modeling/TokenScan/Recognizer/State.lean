import TokenScan.Phase

/-!
# The state of the recognizer

Between two steps the recognizer is in a phase, or done with a lexeme. Since a state can be set from
outside, it may also be a *stray* value, which is no state of the recognizer at all.

Only a phase can take a step. Asking anything else for one is an error that names the culprit and
the offset of the cursor.
-/

namespace TokenScan

/-- The state of the recognizer between two steps. -/
inductive State where
  /-- In the middle of a lexeme, or before it. -/
  | scanning (phase : Phase)
  /-- Done with a lexeme. -/
  | done
  /-- A value that is no state. -/
  | stray (value : Json)

namespace State

/-- All proper states, in order. -/
def all : List State := Phase.all.map scanning ++ [done]

/-- The name of a state in diagnostics; a stray value is shown as it is. -/
def name : State → String
  | .scanning p => p.name
  | .done => "DONE"
  | .stray v => v.describe

/-- The proper state with a given name. -/
def ofName? (s : String) : Option State := all.find? (·.name == s)

end State

/-- Something that was asked for a step and has none. -/
inductive Culprit where
  /-- A state without a step. -/
  | state (s : State)
  /-- A category in the place of a state. -/
  | category (c : Category)

/-- The name of a culprit in messages. -/
def Culprit.name : Culprit → String
  | .state s => s.name
  | .category c => c.label

/-- A step was asked of something that has none. -/
structure StateError where
  /-- What was asked. -/
  culprit : Culprit
  /-- The offset of the cursor at that time. -/
  offset : Int

/-- The message for an error. -/
def StateError.message (e : StateError) : String :=
  s!"{e.culprit.name} state should not be handled (position {e.offset})"

end TokenScan
