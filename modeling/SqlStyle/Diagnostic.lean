import SqlStyle.Severity
import SqlStyle.Violation

/-! # Diagnostics -/

namespace SqlStyle

/-- A rule that failed instead of answering. -/
structure RuleFault where
  rule : String
  message : String
deriving DecidableEq, Repr

/-- A violation with its severity, or the trace of a rule that failed. -/
structure Diagnostic extends Violation where
  severity : Severity
  isFault : Bool
deriving DecidableEq, Repr

namespace Diagnostic

def ofViolation (v : Violation) (severity : Severity) : Diagnostic :=
  { v with severity := severity, isFault := false }

/-- Faults stand at the start of the file and are errors. -/
def ofFault (f : RuleFault) : Diagnostic where
  rule := f.rule
  message := "rule `" ++ f.rule ++ "` failed: " ++ f.message
  trigger := ""
  startChar := 0
  stopChar := 0
  line := 1
  column := 0
  severity := .error
  isFault := true

/-- `line:column`, the column shown from 1. -/
def position (d : Diagnostic) : String := toString d.line ++ ":" ++ toString (d.column + 1)

/-- One line about a diagnostic. -/
def summary (d : Diagnostic) : String :=
  d.position ++ ": " ++ d.severity.name ++ " [" ++ d.rule ++ "] " ++ d.message

/-- The lines about a diagnostic of a file. -/
def format (d : Diagnostic) (file : String) : String :=
  d.rule ++ " at " ++ file ++ ":" ++ d.position ++ "\n"
    ++ "  " ++ d.severity.name ++ ": " ++ d.message ++ "\n"
    ++ if d.trigger.isEmpty then "" else "  = found: " ++ d.trigger ++ "\n"

end Diagnostic

end SqlStyle
