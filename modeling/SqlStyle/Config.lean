import SqlStyle.Severity
import SqlStyle.Toml.Value

/-! # Configuration -/

namespace SqlStyle

/-- Which files are linted, and by how many workers. -/
structure LinterConfig where
  excludes : List String := ["**/node_modules/**", "**/bin/**"]
  includes : List String := []
  respectIgnoreFiles : Bool := true
  parallelism : Option Nat := none

/-- The table of one rule. -/
structure RuleConfig where
  enabled : Option Bool := none
  severity : Option Severity := none
  options : Toml.Entries := []

namespace RuleConfig

/-- An option, if it is a boolean. -/
def boolean (c : RuleConfig) (key : String) (default : Bool) : Bool :=
  ((c.options.lookup key).bind Toml.Value.boolean?).getD default

/-- An option, if it is a string. -/
def string (c : RuleConfig) (key : String) (default : String) : String :=
  ((c.options.lookup key).bind Toml.Value.string?).getD default

end RuleConfig

structure Config where
  preset : Option String := none
  failOn : Option Severity := none
  linter : LinterConfig := {}
  /-- Each name occurs once. -/
  rules : List (String × RuleConfig) := []

namespace Config

/-- A rule runs unless its table switches it off. -/
def isEnabled (c : Config) (rule : String) : Bool :=
  ((c.rules.lookup rule).bind (·.enabled)).getD true

/-- The severity that a rule's table sets. -/
def severity? (c : Config) (rule : String) : Option Severity :=
  (c.rules.lookup rule).bind (·.severity)

/-- The lowest severity that makes a run fail. -/
def failsAt (c : Config) : Severity := c.failOn.getD .info

end Config

end SqlStyle
