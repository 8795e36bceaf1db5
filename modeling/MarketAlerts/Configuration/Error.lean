/-!
# Configuration errors

Why a configuration cannot be used.
-/

namespace MarketAlerts

/-- A text between quotes. -/
def Configuration.inQuotes (s : String) : String := "\"" ++ s ++ "\""

/-- Why a configuration cannot be used. -/
inductive ConfigurationError where
  /-- The file cannot be read. -/
  | unreadable
  /-- The text is no TOML, or a value in it has the wrong type. -/
  | malformed
  /-- A value is refused; `field` says which one and why. -/
  | invalid (field : String)
deriving DecidableEq

/-- The text of an error. -/
def ConfigurationError.message : ConfigurationError → String
  | .unreadable => "failed to read config file"
  | .malformed => "failed to parse config: invalid TOML syntax or schema mismatch"
  | .invalid field => "invalid config: " ++ field

end MarketAlerts
