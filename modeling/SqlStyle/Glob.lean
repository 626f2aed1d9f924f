import SqlStyle.Ends

/-! # Glob patterns

`?` is any character, `*` any text, `[…]` and `[!…]` sets of characters, and `**` any whole
components of a path. -/

namespace SqlStyle

namespace Glob

inductive Piece
  | char (c : Char)
  | any
  | many
  /-- Any whole components, each with the separator behind it. -/
  | deep
  /-- A character in one of the inclusive ranges, or in none of them. -/
  | oneOf (negated : Bool) (ranges : List (Char × Char))
deriving DecidableEq, Repr

inductive Fault
  | wildcards
  | recursion
  | range
deriving DecidableEq, Repr

def Fault.message : Fault → String
  | wildcards => "wildcards are either regular `*` or recursive `**`"
  | recursion => "recursive wildcards must form a single path component"
  | range => "invalid range pattern"

/-- A fault and the character at which it shows. -/
structure Error where
  fault : Fault
  position : Nat
deriving DecidableEq, Repr

def Error.message (e : Error) : String :=
  "Pattern syntax error near position " ++ toString e.position ++ ": " ++ e.fault.message

/-- The ranges of a set; `a-b` is one range. -/
def ranges : List Char → List (Char × Char)
  | a :: '-' :: b :: cs => (a, b) :: ranges cs
  | a :: cs => (a, a) :: ranges cs
  | [] => []

/-- A set that holds its first character whatever it is, up to the bracket that closes it, and how
many characters it takes with that bracket. -/
def setBody? : List Char → Option (List Char × Nat)
  | first :: cs =>
      let more := cs.takeWhile (· ≠ ']')
      if more.length < cs.length then some (first :: more, more.length + 2) else none
  | [] => none

/-- The set behind an opening bracket, and how many characters it takes. -/
def set? : List Char → Option (Piece × Nat)
  | '!' :: cs => (setBody? cs).map fun (body, n) => (.oneOf true (ranges body), n + 1)
  | cs => (setBody? cs).map fun (body, n) => (.oneOf false (ranges body), n)

/-- The pieces of a pattern from position `pos` on, behind the character `before`. -/
def compileFrom (pos : Nat) (before : Option Char) : List Char → Except Error (List Piece)
  | [] => .ok []
  | '?' :: cs => (compileFrom (pos + 1) (some '?') cs).map (.any :: ·)
  | '*' :: '*' :: '*' :: _ => .error ⟨.wildcards, pos + 2⟩
  | '*' :: '*' :: cs =>
      if before = none || before = some '/' then
        match cs with
        | [] => .ok [.deep]
        | '/' :: rest => (compileFrom (pos + 3) (some '/') rest).map (.deep :: ·)
        | _ => .error ⟨.recursion, pos + 2⟩
      else .error ⟨.recursion, pos - 1⟩
  | '*' :: cs => (compileFrom (pos + 1) (some '*') cs).map (.many :: ·)
  | '[' :: cs =>
      match set? cs with
      | some (set, n) => (compileFrom (pos + n + 1) (some ']') (cs.drop n)).map (set :: ·)
      | none => .error ⟨.range, pos⟩
  | c :: cs => (compileFrom (pos + 1) (some c) cs).map (.char c :: ·)
termination_by cs => cs.length
decreasing_by all_goals simp only [List.length_cons, List.length_drop]; omega

def Piece.admits : Piece → Char → Bool
  | char d, c => c == d
  | any, _ => true
  | oneOf negated ranges, c => negated != ranges.any fun (lo, hi) => lo ≤ c && c ≤ hi
  | _, _ => false

/-- The ends of a text that a piece matches together with ends that are matched behind it. A piece
`**` may also take all that is left. -/
def Piece.before (p : Piece) (cs : List Char) (e : Ends) : Ends :=
  match p with
  | many => e.span (fun _ => true) cs
  | deep => ((e.below (· == '/') cs).union e).map (· || e.getLastD false)
  | p => e.step p.admits cs

/-- The ends of a text that the pieces match. -/
def matched (cs : List Char) (ps : List Piece) : Ends :=
  ps.foldr (·.before cs ·) (.empty cs)

end Glob

/-- A pattern for paths. -/
structure Glob where
  pieces : List Glob.Piece
deriving DecidableEq, Repr

namespace Glob

def compile (pattern : String) : Except Error Glob :=
  (compileFrom 0 none pattern.toList).map (⟨·⟩)

/-- Whether a pattern matches the whole path. -/
def isMatch (g : Glob) (path : String) : Bool := (matched path.toList g.pieces).hasAll

end Glob

end SqlStyle
