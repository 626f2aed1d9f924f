import SqlStyle.Rule.Finding
import SqlStyle.Slice

/-! # Names of four parts -/

namespace SqlStyle.LinkedServer

/-- How many lexemes carry on a dotted name that has come to `prev`: points, and names right
behind a point. -/
def chain (prev : Lexeme) : List Lexeme → Nat
  | [] => 0
  | l :: rest =>
      if l.isSymbol "." || (prev.isSymbol "." && l.isName) then chain l rest + 1 else 0

theorem chain_le (prev : Lexeme) (ls : List Lexeme) : chain prev ls ≤ ls.length := by
  induction ls generalizing prev with
  | nil => simp [chain]
  | cons l rest ih =>
      simp only [chain, List.length_cons]
      split
      · have := ih l
        omega
      · omega

/-- A dotted name with three points or more that ends in a name. -/
def isFourPart (name : List Lexeme) : Bool :=
  3 ≤ name.countP (·.isSymbol ".") && name.getLast?.any (·.isName)

def message : String := "Unexpected linked server call through a four-part name"

/-- The findings in the lexemes from position `i` on, where no dotted name is under way. -/
def findingsFrom (i : Nat) : List Lexeme → List Finding
  | [] => []
  | l :: rest =>
      if l.isName then
        let n := chain l rest
        let found := findingsFrom (i + n + 1) (rest.drop n)
        if isFourPart (l :: rest.take n) then
          ⟨message, i, i + n⟩ :: found
        else found
      else findingsFrom (i + 1) rest
termination_by ls => ls.length
decreasing_by all_goals simp only [List.length_cons, List.length_drop]; omega

def findings (ls : List Lexeme) : List Finding := findingsFrom 0 ls

/-! The same by two loops over positions, which fail where they look out of range. -/

/-- Follow a dotted name that has come to `last`, with so many points, from position `j` on. Answers
with all of its points and its last position. -/
def follow (ts : Array Token) (j points last : Nat) : Option (Nat × Nat) :=
  match _h : ts[j]? with
  | none => some (points, last)
  | some next =>
      if next.isSymbol "." then follow ts (j + 1) (points + 1) j
      else
        match before? ts j with
        | none => none
        | some prev =>
            if prev.isSymbol "." && next.isName then follow ts (j + 1) points j
            else some (points, last)
termination_by ts.size - j
decreasing_by all_goals grind

theorem le_of_follow {ts : Array Token} {j points last points' last' : Nat}
    (h : follow ts j points last = some (points', last')) (hj : last ≤ j) : last ≤ last' := by
  fun_induction follow ts j points last with grind

/-- The violation of a dotted name, if it has three points or more and ends in a name. -/
def violation? (ts : Array Token) (i points last : Nat) : Option (Option Violation) :=
  if points < 3 then some none
  else do
    let l ← ts[last]?
    if l.isName then
      let stretch ← slice? ts i (last + 1)
      return Violation.spanning "linked-server" message stretch
    else return none

/-- Go through the positions from `i` on, with the violations found so far. -/
def loop (ts : Array Token) (i : Nat) (found : List Violation) : Option (List Violation) :=
  if i < ts.size then
    match ts[i]? with
    | none => none
    | some t =>
        if !t.isName then loop ts (i + 1) found
        else
          match _h : follow ts (i + 1) 0 i with
          | none => none
          | some (points, last) =>
              match violation? ts i points last with
              | none => none
              | some v => loop ts (last + 1) (found ++ v.toList)
  else some found
termination_by ts.size - i
decreasing_by
  · omega
  · have := le_of_follow ‹_› (Nat.le_succ i)
    omega

end SqlStyle.LinkedServer
