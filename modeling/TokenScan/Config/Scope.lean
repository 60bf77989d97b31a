import TokenScan.Config.Basic

/-!
# The configuration in force

A scope holds the configuration in force and what named blocks remember of the time they were
entered. Entering a block remembers the configuration in force and puts another in its place;
leaving it puts the remembered one back, whatever happened in between. Leaving a block that is not
entered does nothing.
-/

namespace TokenScan

/-- The configuration in force, and those to go back to. -/
structure Scope where
  /-- The configuration in force. -/
  current : Config
  /-- For each block that has been entered, the configuration to go back to. -/
  remembered : List (String × Config)

namespace Scope

/-- The scope in which everything starts: the default is in force and no block is entered. -/
def initial : Scope := ⟨.default, []⟩

/-- Puts a configuration in force. -/
def set (s : Scope) (config : Config) : Scope := { s with current := config }

/-- Puts the default in force. -/
def reset (s : Scope) : Scope := s.set .default

/-- Forgets a block. -/
def forget (s : Scope) (block : String) : List (String × Config) :=
  s.remembered.filter fun entry ↦ entry.1 != block

/-- Enters a block with a configuration of its own. -/
def enter (s : Scope) (block : String) (config : Config) : Scope :=
  ⟨config, (block, s.current) :: s.forget block⟩

/-- Leaves a block. -/
def leave (s : Scope) (block : String) : Scope :=
  match s.remembered.lookup block with
  | some config => ⟨config, s.forget block⟩
  | none => s

end Scope

end TokenScan
