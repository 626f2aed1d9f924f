import SqlStyle.Text.Ascii

/-! # Severities -/

namespace SqlStyle

inductive Severity
  | info
  | warning
  | error
deriving DecidableEq, Repr

namespace Severity

/-- Position in the order `info`, `warning`, `error`. -/
def rank : Severity → Nat
  | info => 0
  | warning => 1
  | error => 2

instance : LE Severity := ⟨fun a b => a.rank ≤ b.rank⟩

instance (a b : Severity) : Decidable (a ≤ b) := inferInstanceAs (Decidable (a.rank ≤ b.rank))

def name : Severity → String
  | info => "info"
  | warning => "warning"
  | error => "error"

/-- The severity written exactly as `name` writes it. -/
def ofName? (s : String) : Option Severity :=
  [info, warning, error].find? (·.name == s)

@[simp] theorem ofName?_name (s : Severity) : ofName? s.name = some s := by
  cases s <;> decide

/-- A text that names no severity, in lower case. -/
structure Unknown where
  text : String
deriving DecidableEq, Repr

def Unknown.message (e : Unknown) : String := "unknown severity `" ++ e.text ++ "`"

/-- Reads a severity in any ASCII case; `warn` is short for `warning`. -/
def parse (s : String) : Except Unknown Severity :=
  let t := Text.lower s
  if t = "warn" then .ok warning
  else match ofName? t with
    | some v => .ok v
    | none => .error ⟨t⟩

end Severity

end SqlStyle
