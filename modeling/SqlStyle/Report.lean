import SqlStyle.Diagnostic
import SqlStyle.Total

/-! # Reports about files and runs -/

namespace SqlStyle

/-- The diagnostics of one file. -/
structure Report where
  diagnostics : List Diagnostic
  count : Nat
  suppressed : Nat
deriving DecidableEq, Repr

namespace Report

/-- Place order: by line, then by column. -/
def placeLe (a b : Diagnostic) : Bool :=
  a.line < b.line || (a.line == b.line && a.column ≤ b.column)

/-- A report of diagnostics in place order; those at one place keep their order. -/
def ofDiagnostics (ds : List Diagnostic) (suppressed : Nat) : Report :=
  ⟨ds.mergeSort placeLe, ds.length, suppressed⟩

def isEmpty (r : Report) : Bool := r.diagnostics.isEmpty

def faultCount (r : Report) : Nat := r.diagnostics.countP (·.isFault)

end Report

/-- A report with the file's path. -/
structure FileReport where
  path : String
  report : Report
deriving DecidableEq, Repr

/-- A file that has no tokens. -/
structure LexFailure where
  path : String
  message : String
deriving DecidableEq, Repr

/-- What a run over many files found. -/
structure RunResult where
  files : List FileReport
  filesChecked : Nat
  lexFailures : List LexFailure
deriving DecidableEq, Repr

namespace RunResult

def empty : RunResult := ⟨[], 0, []⟩

/-- Every diagnostic with its file's path. -/
def diagnostics (r : RunResult) : List (String × Diagnostic) :=
  r.files.flatMap fun f => f.report.diagnostics.map (f.path, ·)

def totalCount (r : RunResult) : Nat := total (·.report.count) r.files

def suppressed (r : RunResult) : Nat := total (·.report.suppressed) r.files

/-- Whether some diagnostic is at least as severe as `s`. -/
def reaches (r : RunResult) (s : Severity) : Bool :=
  r.diagnostics.any fun (_, d) => s ≤ d.severity

def countOf (r : RunResult) (s : Severity) : Nat :=
  r.diagnostics.countP fun (_, d) => d.severity == s

end RunResult

end SqlStyle
