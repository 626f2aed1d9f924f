import SqlStyle.Diagnostic
import SqlStyle.FileContext

/-! # Rules and how they run -/

namespace SqlStyle

/-- How a rule fails: with a message, or without one. -/
inductive Failure
  | saying (text : String)
  | silent
deriving DecidableEq, Repr

def Failure.message : Failure → String
  | saying text => text
  | silent => "rule panicked"

structure Rule where
  name : String
  description : String
  severity : Severity
  check : FileContext → Except Failure (List Violation)

namespace Rule

/-- The violations of a rule, all under the rule's own name, or its fault. -/
def run (r : Rule) (ctx : FileContext) : Except RuleFault (List Violation) :=
  match r.check ctx with
  | .ok vs => .ok (vs.map fun v => { v with rule := r.name })
  | .error f => .error ⟨r.name, f.message⟩

end Rule

end SqlStyle
