import SqlStyle.Token

/-! # Violations -/

namespace SqlStyle

/-- What a rule reports about a stretch of tokens. -/
structure Violation where
  rule : String
  message : String
  trigger : String
  startChar : Nat
  stopChar : Nat
  line : Nat
  column : Nat
deriving DecidableEq, Repr

namespace Violation

/-- The text of tokens put together. -/
def joinTexts (ts : List Token) : String := .join (ts.map (·.text))

/-- A violation from the first to the last of some tokens. -/
def spanning (rule message : String) (ts : List Token) : Option Violation :=
  match ts.head?, ts.getLast? with
  | some first, some last =>
      some ⟨rule, message, joinTexts ts, first.startChar, last.stopChar, first.line, first.column⟩
  | _, _ => none

def atToken (rule message : String) (t : Token) : Violation :=
  ⟨rule, message, t.text, t.startChar, t.stopChar, t.line, t.column⟩

end Violation

end SqlStyle
