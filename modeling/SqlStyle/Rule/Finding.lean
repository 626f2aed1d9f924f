import SqlStyle.FileContext
import SqlStyle.Violation

/-! # Findings

The rules work on the lexemes of a file's significant tokens and answer with positions in that
list. -/

namespace SqlStyle

/-- A message about the lexemes from `first` to `last`, counted from 0. -/
structure Finding where
  message : String
  first : Nat
  last : Nat
deriving DecidableEq, Repr

namespace Finding

/-- The tokens that a finding is about. -/
def tokens (ts : Array Token) (f : Finding) : List Token :=
  (ts.extract f.first (f.last + 1)).toList

/-- The violations of a rule, one for each finding. -/
def violations (rule : String) (ts : List Token) (fs : List Finding) : List Violation :=
  let a := ts.toArray
  fs.filterMap fun f => Violation.spanning rule f.message (f.tokens a)

/-- Collect what `f` finds at each lexeme. It is given the lexemes before it, nearest first, the
lexeme, and the lexemes behind it. -/
def walk {α : Type} (f : Nat → List Lexeme → Lexeme → List Lexeme → Option α) :
    Nat → List Lexeme → List Lexeme → List α
  | _, _, [] => []
  | i, before, l :: after =>
      match f i before l after with
      | some a => a :: walk f (i + 1) (l :: before) after
      | none => walk f (i + 1) (l :: before) after

/-- A finding at each lexeme that satisfies `p`. -/
def each (message : String) (p : List Lexeme → Lexeme → List Lexeme → Bool)
    (ls : List Lexeme) : List Finding :=
  walk (fun i before l after => if p before l after then some ⟨message, i, i⟩ else none) 0 [] ls

end Finding

namespace Lexeme

/-- The nearest lexeme of a list is the given symbol. -/
def nextIs (symbol : String) (ls : List Lexeme) : Bool := ls.head?.any (·.isSymbol symbol)

/-- A point stands right before or right behind. -/
def isQualified (before after : List Lexeme) : Bool := nextIs "." before || nextIs "." after

/-- The text of an identifier without its brackets or double quotes. -/
def unquoted (l : Lexeme) : String :=
  match l.text.toList with
  | '[' :: inner => if inner.getLast? == some ']' then .ofList inner.dropLast else l.text
  | '\x22' :: inner => if inner.getLast? == some '\x22' then .ofList inner.dropLast else l.text
  | _ => l.text

end Lexeme

end SqlStyle
