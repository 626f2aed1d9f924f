import SqlStyle.FileTree
import SqlStyle.Ignore.Pattern
import SqlStyle.Text.Blank

/-! # Lines of ignore files -/

namespace SqlStyle.Ignore

/-- A line of an ignore file. -/
structure Line where
  pieces : List Piece
  /-- Takes back what earlier lines ignore. -/
  negated : Bool
  onlyDirectories : Bool
deriving Repr

/-- What is wrong with a line of an ignore file. -/
inductive Flaw
  | pattern (text : String) (fault : PatternFault)
  | file (fault : FileFault)
deriving DecidableEq, Repr

def Flaw.message : Flaw → String
  | pattern text fault => "error parsing glob '" ++ text ++ "': " ++ fault.message
  | file fault => fault.message

/-- Why ignore files cannot be trusted. -/
inductive Trouble
  | line (path : String) (number : Nat) (flaw : Flaw)
  | file (path : String) (fault : FileFault)
  /-- A file holds a pattern that is too deep. -/
  | depth
deriving DecidableEq, Repr

def Trouble.message : Trouble → String
  | line path number flaw => path ++ ": line " ++ toString number ++ ": " ++ flaw.message
  | file path fault => path ++ ": " ++ fault.message
  | depth => "error parsing pattern 0"

namespace Line

/-- The sign of a line, whether it is bound to the file's directory, and its pattern. -/
def marks : List Char → Bool × Bool × List Char
  | '\\' :: '!' :: cs => (false, false, '!' :: cs)
  | '\\' :: '#' :: cs => (false, false, '#' :: cs)
  | '!' :: '/' :: cs => (true, true, cs)
  | '!' :: cs => (true, false, cs)
  | '/' :: cs => (false, true, cs)
  | cs => (false, false, cs)

/-- A line that ends in a separator is about directories. -/
def directoryMark (cs : List Char) : Bool × List Char :=
  if cs.getLast? == some '/' then
    let inner := cs.dropLast
    (true, if inner.getLast? == some '\\' then inner.dropLast else inner)
  else (false, cs)

/-- A pattern without a separator holds at every depth. -/
def deepen (anchored : Bool) (cs : List Char) : List Char :=
  let free := !anchored && !cs.contains '/' && cs != ['*', '*']
  let cs := if free then '*' :: '*' :: '/' :: cs else cs
  if ['/', '*', '*'].isSuffixOf cs then cs ++ ['/', '*'] else cs

/-- The line that a text writes. Comments and blank texts write none. -/
def parse (cs : List Char) : Except Flaw (Option Line) :=
  if cs.head? == some '#' then .ok none
  else
    let text := if ['\\', ' '].isSuffixOf cs then cs else Text.trimEnd cs
    if text.isEmpty then .ok none
    else
      let (negated, anchored, cs) := marks text
      let (onlyDirectories, cs) := directoryMark cs
      match compile (deepen anchored cs) with
      | .ok pieces => .ok (some { pieces, negated, onlyDirectories })
      | .error e => .error (.pattern (.ofList text) e)

/-- Whether a line speaks about a path below the file's directory. -/
def speaks (l : Line) (path : String) (isDir : Bool) : Bool :=
  (!l.onlyDirectories || isDir) && isMatch l.pieces path

end Line

/-- What ignore files say about a path. -/
inductive Verdict
  | ignored
  | kept
deriving DecidableEq, Repr

/-- The last line that speaks decides. -/
def verdict? (ls : List Line) (path : String) (isDir : Bool) : Option Verdict :=
  (ls.reverse.find? (·.speaks path isDir)).map fun l => if l.negated then .kept else .ignored

/-- What an ignore file says, and the troubles that are told about it. -/
structure Reading where
  lines : List Line := []
  troubles : List Trouble := []
deriving Repr

namespace Reading

/-- A file that is only cut short is read without a word about that. -/
def told : List Trouble → List Trouble
  | [.line _ _ (.file _)] => []
  | ts => ts

/-- What the line of a number says. Marks of byte order in front of the first line do not count. -/
def readLine (path : String) (line : Except FileFault (List Char)) (number : Nat) :
    Except Trouble (Option Line) :=
  match line with
  | .error e => .error (.line path number (.file e))
  | .ok cs =>
      let cs := if number = 1 then cs.dropWhile (· == '\uFEFF') else cs
      (Line.parse cs).mapError (.line path number)

/-- Read the lines of the file at a path. A pattern that is too deep silences the whole file. -/
def ofLines (path : String) (ls : List (Except FileFault (List Char))) : Reading :=
  let results := (ls.zipIdx 1).map fun (l, n) => readLine path l n
  let lines := results.filterMap fun
    | .ok l => l
    | .error _ => none
  let troubles := told (results.filterMap fun
    | .ok _ => none
    | .error t => some t)
  if lines.all (pieceDepth ·.pieces ≤ maxDepth) then { lines, troubles }
  else { troubles := troubles ++ [.depth] }

/-- Read the file at a path, if there is one. -/
def ofPath (t : FileTree) (path : String) : Reading :=
  match t.find path with
  | .ok (_, n) => ofLines path n.lines
  | .error _ => {}

end Reading

end SqlStyle.Ignore
