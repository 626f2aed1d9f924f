import SqlStyle.Ignore.Line

/-! # Files that a walk passes over

Names that begin with a point, and what the ignore files of the directories above say. Lines of
`.ignore` count before those of `.gitignore`, and those of a nearer directory before the others. -/

namespace SqlStyle.Ignore

/-- A file that stands for a repository leads to its directory with this mark in its first line. -/
def gitDirMark : List Char := "gitdir: ".toList

/-- The first line of the file at a path. -/
def firstLine? (t : FileTree) (path : String) : Option (Except FileFault (List Char)) :=
  match t.find path with
  | .ok (_, n) => n.lines.head?
  | .error _ => none

/-- The exclusions of a repository whose own directory is shared with others: its file `commondir`
leads to what they share. -/
def sharedExclusions (t : FileTree) (gitDir : String) : Reading :=
  let path := Path.join gitDir "commondir"
  match firstLine? t path with
  | none => {}
  | some (.error e) => { troubles := [.file path e] }
  | some (.ok cs) =>
      let common := if cs.head? == some '.' then Path.join gitDir (.ofList cs) else .ofList cs
      .ofPath t (Path.join common "info/exclude")

/-- The exclusions of a repository in a directory. -/
def exclusions (t : FileTree) (dir : String) : Reading :=
  let git := Path.join dir ".git"
  if t.isFile git then
    match firstLine? t git with
    | none => {}
    | some (.error e) => { troubles := [.file git e] }
    | some (.ok cs) =>
        if gitDirMark.isPrefixOf cs then sharedExclusions t (.ofList (cs.drop gitDirMark.length))
        else {}
  else .ofPath t (Path.join git "info/exclude")

/-- What a directory says about the files below it. -/
structure Level where
  dir : List String
  own : List Line
  versioned : List Line
  excluded : List Line
  isRepository : Bool
  troubles : List Trouble
deriving Repr

def Level.ofDir (t : FileTree) (dir : List String) : Level :=
  let path := "/" ++ "/".intercalate dir
  let own := Reading.ofPath t (Path.join path ".ignore")
  let versioned := Reading.ofPath t (Path.join path ".gitignore")
  let excluded := exclusions t path
  { dir
    own := own.lines
    versioned := versioned.lines
    excluded := excluded.lines
    isRepository := [".git", ".jj"].any fun name => (t.find (Path.join path name)).isOk
    troubles := own.troubles ++ versioned.troubles ++ excluded.troubles }

/-- The directories above a place, the nearest first. -/
def above (names : List String) : List (List String) :=
  (List.range names.length).reverse.map names.take

/-- The levels up to the nearest repository; none if there is no repository. -/
def insideRepository (ls : List Level) : List Level :=
  match ls.findIdx? (·.isRepository) with
  | some i => ls.take (i + 1)
  | none => []

/-- The first verdict that levels give about a place by the lines that `pick` takes from them. -/
def firstVerdict? (pick : Level → List Line) (names : List String) (isDir : Bool)
    (ls : List Level) : Option Verdict :=
  ls.findSome? fun l => verdict? (pick l) ("/".intercalate (names.drop l.dir.length)) isDir

/-- What the levels above a place, the nearest first, say about it. The ignore file that a user may
keep for all repositories would come last; it is left out. -/
def judge (ls : List Level) (names : List String) (isDir : Bool) : Option Verdict :=
  let inside := insideRepository ls
  firstVerdict? (·.own) names isDir ls
    |>.or (firstVerdict? (·.versioned) names isDir inside)
    |>.or (firstVerdict? (·.excluded) names isDir inside)

/-- A name with a point in front is hidden. -/
def isHidden (names : List String) : Bool :=
  names.getLast?.any fun n => n.toList.head? == some '.'

/-- Whether a walk passes over a place; `levels` hold all directories above it. -/
def skips (levels : List Level) (names : List String) (isDir : Bool) : Bool :=
  let ls := (above names).filterMap fun d => levels.find? (·.dir == d)
  match judge ls names isDir with
  | some .ignored => true
  | some .kept => false
  | none => isHidden names

/-- Whether a walk from `root` comes to the file at `below`: neither it nor a directory on the
way is passed over. -/
def reaches (levels : List Level) (root below : List String) : Bool :=
  !skips levels (root ++ below) false
    && (List.range below.length).all fun n =>
      n == 0 || !skips levels (root ++ below.take n) true

/-- The directories from `root` on that lead to files below it. -/
def dirsBelow (root : List String) (files : List (List String)) : List (List String) :=
  (files.flatMap fun below => (above below).map (root ++ ·)).eraseDups

/-- The files below a directory, with or without those that are passed over. What is wrong with
the ignore files of the directories above it ends the walk. The ignore file of a user is not asked,
as if there were none. -/
def walk (t : FileTree) (respect : Bool) (root : List String) :
    Except (List Trouble) (List (List String)) :=
  let files := t.filesBelow root
  if respect then
    let upper := (above root).map (Level.ofDir t)
    match upper.reverse.flatMap (·.troubles) with
    | [] =>
        let levels := upper ++ (dirsBelow root files).map (Level.ofDir t)
        .ok (files.filter (reaches levels root))
    | ts => .error ts
  else .ok files

end SqlStyle.Ignore
