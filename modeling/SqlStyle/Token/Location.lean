/-! # Lines and columns -/

namespace SqlStyle

/-- A place in a text: line and column both count from 1. -/
structure Location where
  line : Nat
  column : Nat
deriving DecidableEq, Repr

namespace Location

def start : Location := ⟨1, 1⟩

/-- The place after `c`: a line feed opens the next line. -/
def advance (l : Location) (c : Char) : Location :=
  if c = '\n' then ⟨l.line + 1, 1⟩ else ⟨l.line, l.column + 1⟩

/-- The place after a run of characters. -/
def advanceAll (l : Location) (cs : List Char) : Location := cs.foldl advance l

@[simp] theorem advanceAll_nil (l : Location) : l.advanceAll [] = l := rfl

@[simp] theorem advanceAll_cons (l : Location) (c : Char) (cs : List Char) :
    l.advanceAll (c :: cs) = (l.advance c).advanceAll cs := rfl

@[simp] theorem advanceAll_append (l : Location) (cs ds : List Char) :
    l.advanceAll (cs ++ ds) = (l.advanceAll cs).advanceAll ds := by
  simp [advanceAll]

end Location

/-- Where the lines of a text start, and where the text ends. -/
structure LineIndex where
  starts : Array Nat
  size : Nat
deriving DecidableEq, Repr

namespace LineIndex

/-- The offsets right after each line feed, `cs` standing at offset `i`. -/
def startsFrom : Nat → List Char → List Nat
  | _, [] => []
  | i, c :: cs => if c = '\n' then (i + 1) :: startsFrom (i + 1) cs else startsFrom (i + 1) cs

def ofChars (cs : List Char) : LineIndex where
  starts := (0 :: startsFrom 0 cs).toArray
  size := cs.length

/-- The offset of a location, clamped to the text. A line past the end is at the end, and line
0 at the start. -/
def offset (ix : LineIndex) (l : Location) : Nat :=
  if l.line = 0 then 0
  else match ix.starts[l.line - 1]? with
    | some s => min (s + (l.column - 1)) ix.size
    | none => ix.size

theorem offset_le_size (ix : LineIndex) (l : Location) : ix.offset l ≤ ix.size := by
  unfold offset
  split
  · omega
  · split <;> omega

end LineIndex

end SqlStyle
