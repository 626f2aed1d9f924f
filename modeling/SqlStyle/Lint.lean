import SqlStyle.Exemption.Index
import SqlStyle.Report
import SqlStyle.Rule
import SqlStyle.Token.Source

/-! # Linting one file -/

namespace SqlStyle.Lint

/-- What one rule adds to a report. -/
structure Share where
  diagnostics : List Diagnostic
  suppressed : Nat
deriving DecidableEq, Repr

/-- A rule's share: its violations outside exempt ranges, or its fault. -/
def share (ix : Exemption.Index) (ctx : FileContext) (r : Rule) : Share :=
  match r.run ctx with
  | .ok vs =>
      let (kept, gone) := ix.filter vs
      ⟨kept.map (Diagnostic.ofViolation · r.severity), gone⟩
  | .error f => ⟨[.ofFault f], 0⟩

/-- The report of a file under some rules. -/
def file (ctx : FileContext) (rules : List Rule) : Report :=
  let ix := Exemption.Index.ofRanges (Exemption.scan ctx.tokens)
  let shares := rules.map (share ix ctx)
  .ofDiagnostics (shares.flatMap (·.diagnostics)) (total (·.suppressed) shares)

def tokens (ts : List Token) (rules : List Rule) : Report := file (.anonymous ts) rules

def source (sql : String) (rules : List Rule) : Except LexError Report :=
  (Token.ofSource sql).map (tokens · rules)

end SqlStyle.Lint
