import SqlStyle.Rule.Finding

/-! # Stars in select lists -/

namespace SqlStyle.SelectStar

/-- How many parentheses are open, and at which depths one was opened by `EXISTS`, the deepest
first. -/
structure Parens where
  depth : Nat
  exist : List Nat
deriving DecidableEq, Repr

namespace Parens

def start : Parens := ⟨0, []⟩

/-- The parentheses open behind the lexeme `l`. -/
def step (s : Parens) (before : List Lexeme) (l : Lexeme) : Parens :=
  if l.isSymbol "(" then
    ⟨s.depth + 1,
      if before.head?.any (·.isWord "EXISTS") then (s.depth + 1) :: s.exist else s.exist⟩
  else if l.isSymbol ")" then
    ⟨s.depth - 1, if s.exist.head? = some s.depth then s.exist.tail else s.exist⟩
  else s

end Parens

/-- A star behind these lexemes, nearest first, is an item of a select list. -/
def isItem : List Lexeme → Bool
  | prev :: before =>
      prev.isWord "SELECT" || prev.isWord "DISTINCT" || prev.isWord "ALL"
        || prev.isSymbol "," || prev.isSymbol "."
        || (prev.kind == .number && before.head?.any (·.isWord "TOP"))
  | [] => false

/-- What is said about a star at position `i`. A star behind a point needs the name before it. -/
def star (i : Nat) (before : List Lexeme) : Option Finding :=
  if isItem before then
    if Lexeme.nextIs "." before then
      if before.tail.head?.any (·.isName) then
        some ⟨"Expected column names instead of alias.*", i - 2, i⟩
      else none
    else some ⟨"Expected column names instead of *", i, i⟩
  else none

def findingsFrom (allowInExists : Bool) :
    Parens → Nat → List Lexeme → List Lexeme → List Finding
  | _, _, _, [] => []
  | s, i, before, l :: after =>
      let rest := findingsFrom allowInExists (s.step before l) (i + 1) (l :: before) after
      if l.isSymbol "*" && !(allowInExists && !s.exist.isEmpty) then
        (star i before).toList ++ rest
      else rest

def findings (allowInExists : Bool) (ls : List Lexeme) : List Finding :=
  findingsFrom allowInExists .start 0 [] ls

end SqlStyle.SelectStar
