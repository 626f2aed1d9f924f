import SqlStyle.Cli.Run
import SqlStyle.Main
import SqlStyle.Proofs.Cli.Status
import SqlStyle.Proofs.Exemption.Separation
import SqlStyle.Proofs.Exemption.Shape
import SqlStyle.Proofs.Lint.Edit
import SqlStyle.Proofs.Lint.Header
import SqlStyle.Proofs.Lint.Place
import SqlStyle.Proofs.Lint.Selection
import SqlStyle.Proofs.Lint.Strictness
import SqlStyle.Proofs.Project.Accounting
import SqlStyle.Proofs.Rule.SelectStar
import SqlStyle.Proofs.RuleSet.Active
import SqlStyle.Proofs.RuleSet.Select
import SqlStyle.Proofs.Directive
import SqlStyle.Proofs.Rule.LinkedServer
import SqlStyle.Proofs.Exemption.Redundancy
import SqlStyle.Proofs.RuleSet.Options
import SqlStyle.Proofs.Diagnostic.Hint
import SqlStyle.Proofs.Diagnostic.Span
import SqlStyle.Proofs.Rule.Layout
import SqlStyle.Proofs.Rule.LetterCase
import SqlStyle.Proofs.Rule.Recasing
import SqlStyle.Proofs.Cli.Source
import SqlStyle.Proofs.Exemption.Canonical
import SqlStyle.Proofs.Token.Bounds
import SqlStyle.Proofs.Glob
