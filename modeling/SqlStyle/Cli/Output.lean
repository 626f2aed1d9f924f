import SqlStyle.Diagnostic.Label
import SqlStyle.Json
import SqlStyle.Report

/-! # How results are shown -/

namespace SqlStyle.Cli

namespace Color

def red : String := "\x1b[31m"
def green : String := "\x1b[32m"
def yellow : String := "\x1b[33m"
def reset : String := "\x1b[0m"

end Color

/-- The last line: counts by severity, in the color of the worst. -/
def summary (r : RunResult) : String :=
  let errors := r.countOf .error
  let warnings := r.countOf .warning
  let color := if 0 < errors then Color.red else if 0 < warnings then Color.yellow else Color.green
  color ++ "Found " ++ toString errors ++ " error(s), " ++ toString warnings ++ " warning(s), "
    ++ toString (r.countOf .info) ++ " info(s) in " ++ toString r.filesChecked ++ " file(s) ("
    ++ toString r.suppressed ++ " suppressed)" ++ Color.reset ++ "\n"

/-- A file's diagnostics and their number. -/
def fileText (f : FileReport) : String :=
  .join (f.report.diagnostics.map fun d => d.format f.path ++ "\n")
    ++ if f.report.count = 0 then ""
      else toString f.report.count ++ " errors detected in " ++ f.path ++ "\n"

def failureText (f : LexFailure) : String :=
  Color.red ++ "error" ++ Color.reset ++ ": could not tokenize " ++ f.path ++ ": " ++ f.message
    ++ "\n"

def showText (r : RunResult) : String :=
  .join (r.files.map fileText) ++ .join (r.lexFailures.map failureText) ++ summary r

/-- One line for each diagnostic. -/
def showCompact (r : RunResult) : String :=
  .join (r.diagnostics.map fun (path, d) => path ++ ":" ++ d.summary ++ "\n")

def diagnosticJson (level : Nat) (d : Diagnostic) : String :=
  Json.object level [
    ("rule_name", Json.string d.rule),
    ("message", Json.string d.message),
    ("trigger_text", Json.string d.trigger),
    ("line", toString d.line),
    ("column", toString d.column),
    ("start_char", toString d.startChar),
    ("stop_char", toString d.stopChar),
    ("severity", Json.string d.severity.name),
    ("kind", Json.string (if d.isFault then "rule-fault" else "violation"))]

def reportJson (level : Nat) (r : Report) : String :=
  Json.object level [
    ("diagnostics", Json.array (level + 1) (r.diagnostics.map (diagnosticJson (level + 2)))),
    ("count", toString r.count),
    ("suppressed", toString r.suppressed)]

def showJson (r : RunResult) : String :=
  Json.object 0 [
    ("files", Json.array 1 (r.files.map fun f =>
      Json.object 2 [("path", Json.string f.path), ("report", reportJson 3 f.report)])),
    ("files_checked", toString r.filesChecked),
    ("lex_failures", Json.array 1 (r.lexFailures.map fun f =>
      Json.object 2 [("path", Json.string f.path), ("message", Json.string f.message)]))] ++ "\n"

/-- A diagnostic with the bytes that it marks in its source. -/
def labelText (path : String) (d : Diagnostic) (source : String) : String :=
  let l := Label.ofDiagnostic d source
  l.message ++ "\n  --> " ++ path ++ ":" ++ d.position ++ " (" ++ l.text ++ ", bytes "
    ++ toString l.span.offset ++ ".." ++ toString (l.span.offset + l.span.length) ++ ")\n"
    ++ ((l.help.map fun h => "  help: " ++ h ++ "\n").getD "") ++ "\n"

/-- The diagnostics of files whose sources are read again, and the last line. -/
def showPretty (source : FileReport → Except ε String) (r : RunResult) : Except ε String := do
  let parts ← (r.files.filter (!·.report.isEmpty)).mapM fun f => do
    let text ← source f
    return String.join (f.report.diagnostics.map (labelText f.path · text))
  return .join parts ++ summary r

end SqlStyle.Cli
