import SqlStyle.Config
import SqlStyle.Glob
import SqlStyle.Ignore
import SqlStyle.Lint

/-! # Linting a project -/

namespace SqlStyle

/-- What is linted, and by which rules. -/
structure Project where
  /-- An absolute path to a file or a directory. -/
  root : String
  rules : List Rule
  excludes : List Glob
  includes : List Glob
  config : Config
  failsOnLexError : Bool

namespace Project

/-- Why a run over a project stops. -/
inductive Fault
  | file (e : FileFault)
  | lex (path : String) (e : LexError)
  | glob (e : Glob.Error)
  | walk (path : String) (e : FileFault)
  | ignoreFiles (troubles : List Ignore.Trouble)
  | pool (cause : String)
deriving DecidableEq, Repr

def Fault.message : Fault → String
  | file e => "IO error: " ++ e.message
  | lex path e => "Tokenizer error in " ++ path ++ ": " ++ e.message
  | glob e => "Invalid glob pattern: " ++ e.message
  | walk path e =>
      "Failed to walk directory: " ++ path ++ ": IO error for operation on " ++ path ++ ": "
        ++ e.message
  | ignoreFiles troubles =>
      "Failed to walk directory: " ++ "\n".intercalate (troubles.map (·.message))
  | pool cause => "Failed to build worker pool: " ++ cause

def compileGlobs (patterns : List String) : Except Fault (List Glob) :=
  (patterns.mapM Glob.compile).mapError .glob

/-- A project with the patterns given and those of its configuration. -/
def make (root : String) (rules : List Rule) (excludes includes : List String) (config : Config)
    (failsOnLexError : Bool) : Except Fault Project := do
  let excludes ← compileGlobs (excludes ++ config.linter.excludes)
  let includes ← compileGlobs (includes ++ config.linter.includes)
  return { root, rules, excludes, includes, config, failsOnLexError }

/-- The rules that the configuration does not switch off. -/
def activeRules (p : Project) : List Rule := p.rules.filter (p.config.isEnabled ·.name)

/-- The directory from which paths are told. -/
def baseDir (p : Project) (t : FileTree) : String :=
  if t.isFile p.root then (Path.parent? p.root).getD p.root else p.root

def relativePath (p : Project) (t : FileTree) (path : String) : String :=
  Path.relativeTo path (p.baseDir t)

/-- A pattern may match the path from the base directory or the whole path. -/
def isTaken (p : Project) (t : FileTree) (path : String) : Bool :=
  let relative := p.relativePath t path
  let hit := fun (g : Glob) => g.isMatch relative || g.isMatch path
  !p.excludes.any hit && (p.includes.isEmpty || p.includes.any hit)

/-- A file with the extension `sql` in any ASCII case. -/
def isScript (path : String) : Bool := (Path.extension? path).any (Text.eqIgnoreCase · "sql")

/-- The files to lint, in the order of their paths. A root that is a file is the only one. -/
def discover (p : Project) (t : FileTree) : Except Fault (List String) :=
  match t.find p.root with
  | .error e => .error (.walk p.root e)
  | .ok (root, .directory) =>
      match Ignore.walk t p.config.linter.respectIgnoreFiles root with
      | .error troubles => .error (.ignoreFiles troubles)
      | .ok files =>
          let paths := files.map fun below => below.foldl Path.join p.root
          .ok ((paths.filter fun path => isScript path && p.isTaken t path).mergeSort Path.le)
  | .ok (_, _) => .ok [p.root]

/-- Severities that the configuration sets replace those of the rules; faults keep theirs. -/
def overrideSeverity (c : Config) (d : Diagnostic) : Diagnostic :=
  if d.isFault then d else { d with severity := (c.severity? d.rule).getD d.severity }

def overrideSeverities (c : Config) (r : Report) : Report :=
  { r with diagnostics := r.diagnostics.map (overrideSeverity c) }

/-- The report of a text that stands at a path. -/
def lintText (p : Project) (t : FileTree) (path text : String) : Except LexError Report :=
  (Token.ofSource text).map fun tokens =>
    overrideSeverities p.config
      (Lint.file (FileContext.ofPath path (p.baseDir t) tokens) p.activeRules)

/-- What became of a file. -/
inductive Outcome
  | linted (r : Report)
  | noTokens (e : LexError)
  | noText (e : FileFault)
deriving DecidableEq, Repr

def lintFile (p : Project) (t : FileTree) (path : String) : Outcome :=
  match t.read path with
  | .error e => .noText e
  | .ok text =>
      match p.lintText t path text with
      | .ok r => .linted r
      | .error e => .noTokens e

/-- The result of files in order. A file that cannot be read stops the run, and so does one
without tokens if the project says so. -/
def tally (failsOnLexError : Bool) (relative : String → String) :
    List (String × Outcome) → Except Fault RunResult
  | [] => .ok .empty
  | (path, .linted report) :: rest =>
      (tally failsOnLexError relative rest).map fun r =>
        { r with
          files := ⟨relative path, report⟩ :: r.files
          filesChecked := r.filesChecked + 1 }
  | (path, .noTokens e) :: rest =>
      if failsOnLexError then .error (.lex path e)
      else (tally failsOnLexError relative rest).map fun r =>
        { r with lexFailures := ⟨relative path, e.message⟩ :: r.lexFailures }
  | (_, .noText e) :: _ => .error (.file e)

/-- Workers that lint files side by side. Whichever is linted first, the outcomes come back in the
order of the files. -/
structure Workers where
  collect : (String → Outcome) → List String → List Outcome
  collect_eq : ∀ lint paths, collect lint paths = paths.map lint

/-- A worker that takes one file after the other. -/
def Workers.single : Workers where
  collect lint paths := paths.map lint
  collect_eq _ _ := rfl

/-- Where workers come from. -/
structure Pool where
  /-- The workers for a run that asks for no number of them; they are always there. -/
  shared : Workers
  /-- So many workers for one run, or the reason why there are none. -/
  build : Nat → Except String Workers

/-- No run has more workers than this. -/
def Pool.maxWorkers : Nat := 65535

/-- A pool on a system that starts no more than `threads` threads. -/
def Pool.upTo (threads : Nat) : Pool where
  shared := .single
  build n := if min n maxWorkers ≤ threads then .ok .single
    else .error "Resource temporarily unavailable (os error 11)"

/-- A system starts so many threads unless it is told otherwise. -/
def Pool.ofSystem : Pool := .upTo 32768

/-- The outcomes of files, in their order. A run with one worker needs no pool. -/
def outcomes (p : Project) (t : FileTree) (pool : Pool) (paths : List String) :
    Except Fault (List Outcome) :=
  match p.config.linter.parallelism with
  | none => .ok (pool.shared.collect (p.lintFile t) paths)
  | some 1 => .ok (paths.map (p.lintFile t))
  | some n =>
      match pool.build n with
      | .ok workers => .ok (workers.collect (p.lintFile t) paths)
      | .error cause => .error (.pool cause)

/-- Lint files and put together what became of them. -/
def lintFiles (p : Project) (t : FileTree) (pool : Pool) (paths : List String) :
    Except Fault RunResult := do
  let outcomes ← p.outcomes t pool paths
  tally p.failsOnLexError (p.relativePath t) (paths.zip outcomes)

/-- Lint every file of a project. -/
def run (p : Project) (t : FileTree) (pool : Pool) : Except Fault RunResult := do
  let paths ← p.discover t
  p.lintFiles t pool paths

end Project

end SqlStyle
