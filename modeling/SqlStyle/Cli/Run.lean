import SqlStyle.Cli.Arguments
import SqlStyle.Cli.Output
import SqlStyle.Config.Reader
import SqlStyle.Project
import SqlStyle.RuleSet

/-! # Commands

A command reads a snapshot of the files and answers with what it prints, the status it ends with,
and the file it writes, if any. -/

namespace SqlStyle.Cli

/-- What a command sees. -/
structure World where
  tree : FileTree
  /-- The directory of the user's own configuration. -/
  globalDir : Option String
  /-- Where the workers of a check come from. -/
  pool : Project.Pool

/-- Why a command fails, and what lies behind it. -/
inductive Fault
  | config (path : String) (cause : String)
  | preset (e : Preset.Unknown)
  | build (cause : String)
  | analysis (cause : String)
  | source (path : String) (cause : String)
  | configExists (path : String)
  | write (path : String) (cause : String)
deriving DecidableEq, Repr

namespace Fault

def headline : Fault → String
  | config path _ => "Failed to load config: " ++ path
  | preset e => e.message
  | build _ => "Failed to build analyzer"
  | analysis _ => "Analysis failed"
  | source path _ => "Failed to read " ++ path
  | configExists path =>
      "Configuration file already exists at " ++ path ++ ". Use --force to overwrite."
  | write path _ => "Failed to write " ++ path

def cause? : Fault → Option String
  | config _ c | build c | analysis c | source _ c | write _ c => some c
  | preset _ | configExists _ => none

/-- The text of a failure, its first line the headline. -/
def message (f : Fault) : String :=
  "Error: " ++ f.headline
    ++ (f.cause?.map fun c => "\n\nCaused by:\n    " ++ c).getD "" ++ "\n"

end Fault

/-- What a command does. -/
structure Outcome where
  exit : Nat
  output : String
  errors : String := ""
  /-- A file to write, by its path from the working directory. -/
  write : Option (String × String) := none
deriving DecidableEq, Repr

/-- The names of a project's configuration file, the first one found counts. -/
def configNames : List String := ["tsqllint.toml", ".tsqllintrc"]

/-- The directory in which a project's configuration lies. -/
def projectDir (w : World) (path : String) : String :=
  if w.tree.isFile path then (Path.parent? path).getD "" else path

/-- The configuration file: the one named, else the project's, else the user's. -/
def configPath? (w : World) (path : String) (named : Option String) : Option String :=
  match named with
  | some p => some p
  | none =>
      match (configNames.map (Path.join (projectDir w path))).find? w.tree.isFile with
      | some p => some p
      | none => (w.globalDir.map (Path.join · "config.toml")).filter w.tree.isFile

def loadConfig (w : World) (path : Option String) : Except Fault Config :=
  match path with
  | none => .ok {}
  | some p =>
      match w.tree.read p with
      | .error e => .error (.config p ("Failed to read config file " ++ p ++ ": " ++ e.message))
      | .ok text => (Config.parse text).mapError fun e => .config p e.message

/-- Names between commas, without the blanks around them. -/
def ruleNames (s : String) : List String :=
  (s.splitOn ",").map fun name => .ofList (Text.trim name.toList)

/-- The rules that a request names, else those of the configuration. -/
def chosenRules (request : CheckRequest) (c : Config) : Except Fault (List BuiltIn) :=
  match request.rules with
  | some names => .ok (RuleSet.select (ruleNames names) c)
  | none => (RuleSet.resolve c).mapError .preset

/-- The configuration of a request: a preset that it names counts before the file's. -/
def requestConfig (w : World) (request : CheckRequest) (named : Option String) :
    Except Fault Config :=
  (loadConfig w (configPath? w request.path named)).map fun c =>
    { c with preset := request.preset.or c.preset }

/-- The project of a request. -/
def project (w : World) (request : CheckRequest) (c : Config) : Except Fault Project := do
  let rules ← chosenRules request c
  let root := Path.join w.tree.workingDir request.path
  (Project.make root (rules.map (·.toRule)) request.excludes [] c false).mapError
    fun e => .build e.message

/-- The text of a linted file, read again. -/
def sourceOf (w : World) (p : Project) (f : FileReport) : Except Fault String :=
  let path := Path.join (p.baseDir w.tree) f.path
  (w.tree.read path).mapError fun e => .source path e.message

def render (w : World) (p : Project) (format : Format) (r : RunResult) : Except Fault String :=
  match format with
  | .text => .ok (showText r)
  | .json => .ok (showJson r)
  | .compact => .ok (showCompact r)
  | .pretty => showPretty (sourceOf w p) r

/-- The status of a run that found something severe enough. -/
def foundStatus : Nat := 2

/-- Lint, and end with `foundStatus` if a diagnostic is as severe as the configuration asks. -/
def check (w : World) (request : CheckRequest) (named : Option String) : Except Fault Outcome := do
  let c ← requestConfig w request named
  let p ← project w request c
  let r ← (p.run w.tree w.pool).mapError fun e => Fault.analysis e.message
  let output ← render w p request.format r
  return { exit := if r.reaches c.failsAt then foundStatus else 0, output }

/-- A text filled up with blanks to a width. -/
def fill (width : Nat) (s : String) : String :=
  s ++ .ofList (List.replicate (width - s.length) ' ')

def ruleLine (b : BuiltIn) : String :=
  fill 22 b.name ++ " " ++ fill 9 b.severity.name ++ " " ++ b.description ++ "\n"

def presetLine (p : Preset) : String :=
  "  " ++ fill 12 p.name ++ " - " ++ ", ".intercalate (p.rules.map (·.name)) ++ "\n"

def listRules : String :=
  "Available rules:\n\n" ++ fill 22 "Name" ++ " " ++ fill 9 "Severity" ++ " Description\n"
    ++ .ofList (List.replicate 80 '-') ++ "\n"
    ++ .join (BuiltIn.all.map ruleLine)
    ++ "\nPresets:\n" ++ .join ([Preset.recommended, .strict, .minimal].map presetLine)
    ++ "\nUse --rules to run specific rules, e.g.:\n"
    ++ "  tsqllint check --rules keyword-casing,select-star\n"
    ++ "\nSuppress a rule inside a script with:\n"
    ++ "  /* tsqllint-disable keyword-casing */ ... /* tsqllint-enable keyword-casing */\n"

/-- The configuration file to begin with. -/
def defaultConfig : String :=
  String.join [
    "# tsqllint configuration\n",
    "\n",
    "# Rule preset: recommended | strict | minimal\n",
    "preset = \"recommended\"\n",
    "\n",
    "# Lowest severity that makes `tsqllint check` exit with status 2\n",
    "fail_on = \"info\"\n",
    "\n",
    "[linter]\n",
    "# Glob patterns to exclude from analysis\n",
    "exclude = [\n",
    "    \"**/node_modules/**\",\n",
    "    \"**/bin/**\",\n",
    "]\n",
    "\n",
    "# Respect .gitignore files\n",
    "respect_gitignore = true\n",
    "\n",
    "# Worker threads (default: one per CPU)\n",
    "# parallelism = 4\n",
    "\n",
    "# Rule configurations\n",
    "# Each rule can be enabled/disabled and have its severity overridden\n",
    "\n",
    "[rules.keyword-casing]\n",
    "enabled = true\n",
    "# severity = \"warning\"\n",
    "casing = \"upper\"\n",
    "\n",
    "[rules.select-star]\n",
    "allow_in_exists = true\n",
    "\n",
    "[rules.print-statement]\n",
    "allow_in_tests = true\n",
    "\n",
    "# [rules.upper-lower]\n",
    "# enabled = true\n"]

/-- Write a configuration file, unless one is there and may not be replaced. -/
def init (w : World) (force : Bool) : Except Fault Outcome :=
  let path := "./tsqllint.toml"
  match w.tree.find path, force with
  | .ok _, false => .error (.configExists path)
  | .ok (_, .directory), true => .error (.write path FileFault.isDirectory.message)
  | _, _ => .ok {
      exit := 0
      output := "Created tsqllint.toml\n\nNext steps:\n"
        ++ "  1. Edit tsqllint.toml to configure rules\n  2. Run: tsqllint check\n"
      write := some (path, defaultConfig) }

def versionText : String := "tsqllint 0.1.0\n"

def helpText : String :=
  "Style linter for T-SQL scripts\n\n"
    ++ "Usage: tsqllint [-v] [-c CONFIG] check [PATH] [-f text|json|compact|pretty]\n"
    ++ "                [--rules NAMES] [-e PATTERN]... [--preset NAME]\n"
    ++ "       tsqllint list-rules\n"
    ++ "       tsqllint init [--force]\n"

def perform (w : World) : Request → Except Fault Outcome
  | .version => .ok { exit := 0, output := versionText }
  | .help => .ok { exit := 0, output := helpText }
  | .run (.check request) named => check w request named
  | .run .listRules _ => .ok { exit := 0, output := listRules }
  | .run (.init force) _ => init w force

/-- Do what a command line asks for. A failure ends with status 1. -/
def run (w : World) (args : List String) : Except UsageError Outcome :=
  (parse args).map fun request =>
    match perform w request with
    | .ok o => o
    | .error f => { exit := 1, output := "", errors := f.message }

end SqlStyle.Cli
