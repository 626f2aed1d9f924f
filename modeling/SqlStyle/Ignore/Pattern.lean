import SqlStyle.Ends
import SqlStyle.Total

/-! # Patterns of ignore files

`?` is any byte but a separator, `*` any bytes but separators, `[…]` and `[!…]` sets of bytes,
`{…,…}` a choice, and `**` any whole components of a path. -/

namespace SqlStyle.Ignore

/-- A piece of a pattern; it is matched against the bytes of a path. -/
inductive Piece
  | byte (b : UInt8)
  /-- Any byte but the separator. -/
  | any
  /-- Any bytes but the separator. -/
  | many
  /-- Any components at the front, each with the separator behind it. -/
  | deepFront
  /-- A separator and anything below it. -/
  | deepEnd
  /-- A separator, or any components between separators. -/
  | deepMiddle
  /-- A byte in one of the inclusive ranges, or in none of them. -/
  | oneOf (negated : Bool) (ranges : List (UInt8 × UInt8))
  /-- One of the branches; nothing at all if there are none. -/
  | choice (branches : List (List Piece))
deriving Repr

/-- Why a text is no pattern. -/
inductive PatternFault
  | invalidRange (low high : Char)
  | unopenedGroup
  | unclosedGroup
  | danglingEscape
deriving DecidableEq, Repr

def PatternFault.message : PatternFault → String
  | invalidRange low high =>
      "invalid range; '" ++ low.toString ++ "' > '" ++ high.toString ++ "'"
  | unopenedGroup =>
      "unopened alternate group; missing '\x7b' (maybe escape '\x7d' with '[\x7d]'?)"
  | unclosedGroup =>
      "unclosed alternate group; missing '\x7d' (maybe escape '\x7b' with '[\x7b]'?)"
  | danglingEscape => "dangling '\\'"

/-! ### Reading -/

def literal (c : Char) : List Piece := (String.utf8EncodeChar c).map .byte

/-- The ranges of bytes that a range of characters stands for in a set: for ASCII the range
itself, else the bytes of both ends with a range between. -/
def byteRanges (low high : Char) : List (UInt8 × UInt8) :=
  let a := String.utf8EncodeChar low
  let b := String.utf8EncodeChar high
  if low = high then a.map fun x => (x, x)
  else
    a.dropLast.map (fun x => (x, x)) ++ [(a.getLastD 0, b.headD 0)] ++ b.tail.map fun x => (x, x)

/-- The ranges of a set behind its opening bracket, and how many characters they take with the
bracket that closes it; none if no bracket does. A bracket or a hyphen in front stands for itself,
and so does a hyphen at the end. `last` is the range that a hyphen would extend, and `extending`
says that one came. -/
def setRanges (last : Option (Char × Char)) (extending : Bool) :
    List Char → Except PatternFault (Option (List (Char × Char) × Nat))
  | [] => .ok none
  | c :: cs =>
      let one (r : Except PatternFault (Option (List (Char × Char) × Nat))) :=
        r.map (·.map fun (rs, n) => (rs, n + 1))
      match last with
      | none => one (setRanges (some (c, c)) false cs)
      | some (low, high) =>
          if c = ']' then
            .ok (some ((low, high) :: if extending then [('-', '-')] else [], 1))
          else if extending then
            if c < low then .error (.invalidRange low c)
            else one (setRanges (some (low, c)) false cs)
          else if c = '-' then one (setRanges last true cs)
          else (one (setRanges (some (c, c)) false cs)).map
            (·.map fun (rs, n) => ((low, high) :: rs, n))

/-- The set behind an opening bracket, and how many characters it takes. -/
def set? (cs : List Char) : Except PatternFault (Option (Piece × Nat)) :=
  let (negated, body) := match cs with
    | '!' :: cs | '^' :: cs => (true, cs)
    | cs => (false, cs)
  (setRanges none false body).map (·.map fun (rs, n) =>
    (.oneOf negated (rs.flatMap fun (low, high) => byteRanges low high),
      n + (cs.length - body.length)))

/-- A group in braces that is being read: the branches before the one under way, and the pieces
of that one, the last piece first. -/
structure Group where
  closed : List (List Piece) := []
  pieces : List Piece := []
deriving Repr

namespace Group

def push (g : Group) (ps : List Piece) : Group := { g with pieces := ps.reverse ++ g.pieces }

/-- Put a piece in the place of the last one, unless that one reaches any depth at the front or
at the end. -/
def swapLast (g : Group) (p : Piece) : Group :=
  match g.pieces with
  | .deepFront :: _ | .deepEnd :: _ => g
  | _ :: ps => { g with pieces := p :: ps }
  | [] => { g with pieces := [p] }

/-- Begin the next branch. -/
def next (g : Group) : Group := ⟨g.closed ++ [g.pieces.reverse], []⟩

/-- A branch that is empty, or holds only choices between nothing. -/
def isVoid (branch : List Piece) : Bool :=
  branch.all fun
    | .choice [] => true
    | _ => false

/-- The choice between the branches; those that are void do not count. -/
def choice (g : Group) : Piece := .choice (g.next.closed.filter fun b => !isVoid b)

end Group

/-- A pattern that is being read. -/
structure Draft where
  /-- The groups around the one under way, the nearest first. -/
  outer : List Group := []
  group : Group := {}
  /-- Whether an opening bracket may begin a set: a bracket that nothing closes stands for itself,
  and so do all behind it. -/
  hasSets : Bool := true
deriving Repr

namespace Draft

def isNested (d : Draft) : Bool := !d.outer.isEmpty

def push (d : Draft) (ps : List Piece) : Draft := { d with group := d.group.push ps }

/-- Take two stars behind the character `before` with `cs` still to come, and say how many
characters of `cs` they take. Alone between separators they stand for any components. -/
def twoStars (d : Draft) (before : Option Char) (cs : List Char) : Draft × Nat :=
  let plain := (d.push [.many, .many], 0)
  if d.group.pieces.isEmpty then
    match cs.head? with
    | none => (d.push [.deepFront], 0)
    | some '/' => (d.push [.deepFront], 1)
    | some _ => plain
  else if before == some '/' || (d.isNested && (before == some ',' || before == some '\x7b')) then
    match cs.head? with
    | none => ({ d with group := d.group.swapLast .deepEnd }, 0)
    | some '/' => ({ d with group := d.group.swapLast .deepMiddle }, 1)
    | some c =>
        if d.isNested && (c == ',' || c == '\x7d') then
          ({ d with group := d.group.swapLast .deepEnd }, 0)
        else plain
  else plain

/-- Take the character `c` between `before` and `cs`, and say how many characters of `cs` go with
it. -/
def take (d : Draft) (before : Option Char) (c : Char) (cs : List Char) :
    Except PatternFault (Draft × Nat) :=
  match c with
  | '?' => .ok (d.push [.any], 0)
  | '*' =>
      match cs with
      | '*' :: cs =>
          let (d, n) := d.twoStars before cs
          .ok (d, n + 1)
      | _ => .ok (d.push [.many], 0)
  | '[' =>
      if d.hasSets then
        match set? cs with
        | .error e => .error e
        | .ok none => .ok ({ d with hasSets := false }.push (literal c), 0)
        | .ok (some (set, n)) => .ok (d.push [set], n)
      else .ok (d.push (literal c), 0)
  | '\x7b' => .ok ({ d with outer := d.group :: d.outer, group := {} }, 0)
  | '\x7d' =>
      match d.outer with
      | [] => .error .unopenedGroup
      | g :: outer => .ok ({ d with outer, group := g.push [d.group.choice] }, 0)
  | ',' =>
      if d.isNested then .ok ({ d with group := d.group.next }, 0) else .ok (d.push (literal c), 0)
  | '\\' =>
      match cs with
      | e :: _ => .ok (d.push (literal e), 1)
      | [] => .error .danglingEscape
  | c => .ok (d.push (literal c), 0)

/-- Take all characters behind `before`, but pass over the first `skip` of them. -/
def takeAll (d : Draft) (before : Option Char) : (skip : Nat) → List Char → Except PatternFault Draft
  | _, [] => .ok d
  | skip + 1, c :: cs => takeAll d (some c) skip cs
  | 0, c :: cs =>
      match d.take before c cs with
      | .error e => .error e
      | .ok (d, skip) => takeAll d (some c) skip cs

/-- The pattern that was read. One that is only `**` takes every path. -/
def finish (d : Draft) : Except PatternFault (List Piece) :=
  match d.outer, d.group.pieces with
  | _ :: _, _ => .error .unclosedGroup
  | [], [.deepFront] => .ok [.deepFront, .many]
  | [], ps => .ok ps.reverse

end Draft

/-- The pieces of a pattern. -/
def compile (pattern : List Char) : Except PatternFault (List Piece) :=
  match Draft.takeAll {} none 0 pattern with
  | .error e => .error e
  | .ok d => d.finish

/-! ### Depth -/

/-- How many parts a piece adds to the pieces around it. -/
def Piece.width : Piece → Nat
  | .choice [] => 0
  | .deepEnd => 2
  | _ => 1

mutual

/-- How deep parts lie in one another within a piece. -/
def Piece.depth : Piece → Nat
  | .byte _ | .choice [] => 0
  | .any | .deepEnd => 1
  | .many => 2
  | .deepFront | .deepMiddle => 4
  | .oneOf _ ranges => if ranges.length ≤ 1 then 1 else 2
  | .choice [ps] => sequenceDepth ps + 1
  | .choice (ps :: qs :: branches) =>
      max (sequenceDepth ps) (max (sequenceDepth qs) (branchDepth branches)) + 2

/-- The depth of pieces in a row: more than one part makes a part of its own. -/
def sequenceDepth (ps : List Piece) : Nat :=
  pieceDepth ps + if total Piece.width ps ≤ 1 then 0 else 1

def pieceDepth : List Piece → Nat
  | [] => 0
  | p :: ps => max p.depth (pieceDepth ps)

def branchDepth : List (List Piece) → Nat
  | [] => 0
  | ps :: branches => max (sequenceDepth ps) (branchDepth branches)

end

/-- The depth that a pattern may have. -/
def maxDepth : Nat := 249

/-! ### Matching -/

def isSeparator (b : UInt8) : Bool := b == 47

def inByteRanges (ranges : List (UInt8 × UInt8)) (b : UInt8) : Bool :=
  ranges.any fun (low, high) => low ≤ b && b ≤ high

mutual

/-- The ends of a path that a piece matches together with ends that are matched behind it. -/
def Piece.before (bs : List UInt8) : Piece → Ends → Ends
  | .byte a, e => e.step (· == a) bs
  | .any, e => e.step (!isSeparator ·) bs
  | .many, e => e.span (!isSeparator ·) bs
  | .deepFront, e => e.union (e.below isSeparator bs)
  | .deepEnd, e => (e.span (fun _ => true) bs).step isSeparator bs
  | .deepMiddle, e => (e.union (e.below isSeparator bs)).step isSeparator bs
  | .oneOf negated ranges, e => e.step (fun b => negated != inByteRanges ranges b) bs
  | .choice [], e => e
  | .choice (ps :: branches), e => (allBefore bs ps e).union (anyBefore bs branches e)

/-- The ends that all pieces match, one behind the other. -/
def allBefore (bs : List UInt8) : List Piece → Ends → Ends
  | [], e => e
  | p :: ps, e => p.before bs (allBefore bs ps e)

/-- The ends that one of the branches matches. -/
def anyBefore (bs : List UInt8) : List (List Piece) → Ends → Ends
  | [], e => e.map fun _ => false
  | ps :: branches, e => (allBefore bs ps e).union (anyBefore bs branches e)

end

/-- Whether the pieces match a whole path. -/
def isMatch (ps : List Piece) (path : String) : Bool :=
  let bs := path.toUTF8.toList
  (allBefore bs ps (.empty bs)).hasAll

end SqlStyle.Ignore
