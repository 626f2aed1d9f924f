import SqlStyle.Cli.Run

/-! # The program

Takes a snapshot of the files that a command may look at, runs the command on it, and prints what
it answers. -/

namespace SqlStyle.Main

open Cli

/-- Places with what stands there. -/
abbrev Nodes := List (List String × FileNode)

/-- Names of files whose text is of use; all others stay unread. -/
def isRead (name : String) : Bool :=
  Project.isScript name || [".ignore", ".gitignore", "exclude", "commondir"].contains name

/-- The names that lead to an absolute path. -/
def placeOf (path : String) : List String :=
  (Path.components path).foldl (fun names c =>
    match c with
    | .root => []
    | .current => names
    | .parent => names.dropLast
    | .normal name => names ++ [name]) []

/-- What stands at a path, if anything does. -/
def node? (path : String) : IO (Option FileNode) := do
  try
    if ← ((← IO.currentDir) / path).isDir then return some .directory
    return some (.ofBytes (← IO.FS.readBinFile path).toList)
  catch _ => return none

def nodeAt (path : String) : IO Nodes := do
  return ((← node? path).map (placeOf path, ·)).toList

/-- The text of a file's first line. -/
def firstLine? (n : Option FileNode) : Option (List Char) :=
  match n.bind (·.lines.head?) with
  | some (.ok cs) => some cs
  | _ => none

/-- The files to which a file `.git` leads, through the shared part of its repository. -/
def sharedNodes (cwd git : String) : IO Nodes := do
  match firstLine? (← node? git) with
  | none => return []
  | some cs =>
      let dir := Path.join cwd (.ofList (cs.drop Ignore.gitDirMark.length))
      let path := Path.join dir "commondir"
      let common := (firstLine? (← node? path)).map String.ofList
      let excludes := common.toList.flatMap fun c =>
        [Path.join dir c, Path.join cwd c].map (Path.join · "info/exclude")
      return (← (path :: excludes).mapM nodeAt).flatten

/-- A repository's mark in a directory, with the files to which it leads. -/
def repositoryNodes (cwd dir : String) : IO Nodes := do
  let git := Path.join dir ".git"
  let marks ← [git, Path.join git "info/exclude", Path.join dir ".jj"].mapM nodeAt
  return marks.flatten ++ (← sharedNodes cwd git)

/-- All that lies below a directory. -/
partial def nodesBelow (cwd dir : String) : IO Nodes := do
  let mut nodes ← repositoryNodes cwd dir
  for entry in ← ((← IO.currentDir) / dir).readDir do
    let path := Path.join dir entry.fileName
    if ← entry.path.isDir then
      nodes := nodes ++ (placeOf path, .directory) :: (← nodesBelow cwd path)
    else if isRead entry.fileName then nodes := nodes ++ (← nodeAt path)
    else if entry.fileName != ".git" then nodes := nodes ++ [(placeOf path, .file "")]
  return nodes

/-- The files of the directories above a path that say what to ignore. -/
partial def nodesAbove (cwd path : String) : IO Nodes := do
  match Path.parent? path with
  | none => return []
  | some dir =>
      let files ← [".ignore", ".gitignore"].mapM fun name => nodeAt (Path.join dir name)
      return files.flatten ++ (← repositoryNodes cwd dir) ++ (← nodesAbove cwd dir)

/-- The directory of the user's own configuration. -/
def globalDir : IO (Option String) := do
  match ← IO.getEnv "TSQLLINT_CONFIG_DIR" with
  | some dir => return some dir
  | none => return (← IO.getEnv "HOME").map (Path.join · ".tsqllint")

/-- The files that a request may look at. -/
def snapshot (cwd : String) (global : Option String) : Request → IO Nodes
  | .run (.check request) config => do
      let root := Path.join cwd request.path
      let dir ← ((← IO.currentDir) / root).isDir
      let below ← if dir then nodesBelow cwd root else pure []
      let project := if dir then root else (Path.parent? root).getD root
      let configs := configNames.map (Path.join project) ++ config.toList.map (Path.join cwd)
        ++ global.toList.map fun g => Path.join cwd (Path.join g "config.toml")
      let configs ← configs.mapM nodeAt
      let top := "/" ++ "/".intercalate (placeOf root)
      return (← nodeAt root) ++ configs.flatten ++ below ++ (← nodesAbove cwd top)
  | .run (.init _) _ => nodeAt (Path.join cwd "tsqllint.toml")
  | _ => return []

end SqlStyle.Main

def main (args : List String) : IO UInt32 := do
  let cwd := (← IO.currentDir).toString
  let global ← SqlStyle.Main.globalDir
  match SqlStyle.Cli.parse args with
  | .error _ =>
      IO.eprint SqlStyle.Cli.helpText
      return 2
  | .ok request =>
      let nodes ← SqlStyle.Main.snapshot cwd global request
      match SqlStyle.Cli.run ⟨⟨nodes, cwd⟩, global, .ofSystem⟩ args with
      | .error _ => return 2
      | .ok o =>
          IO.print o.output
          IO.eprint o.errors
          if let some (path, text) := o.write then IO.FS.writeFile path text
          return o.exit.toUInt32
