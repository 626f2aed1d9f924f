import SqlStyle.Toml.DateTime
import SqlStyle.Toml.Real

/-! # Values of a TOML document -/

namespace SqlStyle.Toml

/-- How a table came to be, which decides how it may grow. -/
inductive Origin
  /-- Named by a header of its own. -/
  | header
  /-- Named by a longer header only. -/
  | implied
  /-- Made by a dotted key. -/
  | dotted
  /-- Written between braces. -/
  | inline
deriving DecidableEq, Repr

inductive Value
  | string (s : String)
  | integer (n : Int)
  | real (x : Real)
  | boolean (b : Bool)
  | dateTime (d : DateTime)
  /-- An array, written as such or made by headers. -/
  | array (byHeaders : Bool) (vs : List Value)
  | table (origin : Origin) (entries : List (String × Value))
deriving Repr

/-- The entries of a table, in the order in which they came. -/
abbrev Entries := List (String × Value)

namespace Value

def string? : Value → Option String
  | string s => some s
  | _ => none

def boolean? : Value → Option Bool
  | boolean b => some b
  | _ => none

end Value

end SqlStyle.Toml
