import TokenScan.Json.Describe
import TokenScan.Json.Equality

/-!
# Configuration

The language is fixed; configuration only decides which warnings are logged. Both switches hold
whatever value they were given and are used by its truth, so `"no"` turns a warning on.
-/

namespace TokenScan

/-- Which warnings are logged. -/
structure Config where
  /-- Warn about a comment that runs to the end of input. -/
  warnOpenComment : Json
  /-- Warn about every malformed token. -/
  warnMalformed : Json

namespace Config

/-- The default: warn about open comments only. -/
def default : Config := ⟨.bool true, .bool false⟩

/-- A configuration from named values. Missing ones keep their default, and other names are
ignored. -/
def ofFields (fields : Json.Fields) : Config where
  warnOpenComment := (fields.lookup "warn_unterminated_comments").getD default.warnOpenComment
  warnMalformed := (fields.lookup "warn_on_malformed").getD default.warnMalformed

/-- Whether two configurations hold equal values. -/
def same (c d : Config) : Bool :=
  c.warnOpenComment.same d.warnOpenComment && c.warnMalformed.same d.warnMalformed

/-- A configuration in messages. -/
def describe (c : Config) : String :=
  s!"ScanConfig(warn_unterminated_comments={c.warnOpenComment.describe}, "
    ++ s!"warn_on_malformed={c.warnMalformed.describe})"

end Config

end TokenScan
