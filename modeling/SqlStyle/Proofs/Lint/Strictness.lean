import SqlStyle.Proofs.Lint.Pipeline
import SqlStyle.RuleSet

/-!
# Stricter rules report more

A rule with an exception finds part of what it finds without.  For a star the exception is looked
up in the parentheses that are open, and these do not depend on whether it is asked for; so both
runs go through the lexemes in step.  From the findings this is carried to the violations, past the
exempt ranges, and through the order of the report, where the diagnostics of other rules stand in
between.
-/

namespace SqlStyle

/-- Without the exception for `EXISTS`, stars are found where they are found with it, and
elsewhere. -/
theorem SelectStar.findingsFrom_sublist (s : Parens) (i : Nat) (before after : List Lexeme) :
    (findingsFrom true s i before after).Sublist (findingsFrom false s i before after) := by
  induction after generalizing s i before with
  | nil => exact .refl _
  | cons l after ih =>
      specialize ih (s.step before l) (i + 1) (l :: before)
      simp only [findingsFrom, Bool.true_and, Bool.false_and, Bool.not_false, Bool.and_true]
      cases hstar : l.isSymbol "*" with
      | false => exact ih
      | true =>
          cases s.exist.isEmpty with
          | true => exact ih.append_left _
          | false => exact ih.trans (List.sublist_append_right _ _)

namespace BuiltIn

/-- The rules have one name and severity, and `c` finds in every file what `b` finds. -/
structure Laxer (b c : BuiltIn) : Prop where
  name_eq : b.name = c.name
  severity_eq : b.severity = c.severity
  findings_sublist : ∀ isTest ls, (b.findings isTest ls).Sublist (c.findings isTest ls)

namespace Laxer

theorem refl (b : BuiltIn) : Laxer b b := ⟨rfl, rfl, fun _ _ => .refl _⟩

theorem selectStar : Laxer (.selectStar true) (.selectStar false) :=
  ⟨rfl, rfl, fun _ ls => SelectStar.findingsFrom_sublist .start 0 [] ls⟩

theorem printStatement : Laxer (.printStatement true) (.printStatement false) := by
  refine ⟨rfl, rfl, fun isTest ls => ?_⟩
  cases isTest with
  | false => exact .refl _
  | true => exact List.nil_sublist _

theorem check_sublist {b c : BuiltIn} (h : Laxer b c) (ctx : FileContext) :
    (b.check ctx).Sublist (c.check ctx) := by
  rw [check, check, Finding.violations, Finding.violations, h.name_eq]
  exact (h.findings_sublist _ _).filterMap _

end Laxer

end BuiltIn

namespace Lint

open BuiltIn (Laxer)

/-- What is exempt is a matter of the name and the offset, so it goes from both rules. -/
theorem plain_sublist_of_laxer {b c : BuiltIn} (h : Laxer b c) (ctx : FileContext) :
    (plain ctx b.toRule).Sublist (plain ctx c.toRule) := by
  rw [plain_toRule, plain_toRule, h.name_eq, h.severity_eq]
  exact ((h.check_sublist ctx).filter _).map _

/-- Rules that are laxer one by one, some of them left out, report part of what the others do. -/
theorem diagnostics_sublist_of_laxer {bs cs : List BuiltIn} (h : List.SublistForall₂ Laxer bs cs)
    (ctx : FileContext) :
    (file ctx (bs.map (·.toRule))).diagnostics.Sublist
      (file ctx (cs.map (·.toRule))).diagnostics := by
  have hplain : ((bs.map (·.toRule)).flatMap (plain ctx)).Sublist
      ((cs.map (·.toRule)).flatMap (plain ctx)) := by
    induction h with
    | nil => exact List.nil_sublist _
    | cons hbc _ ih => exact (plain_sublist_of_laxer hbc ctx).append ih
    | cons_right _ ih => exact ih.trans (List.sublist_append_right _ _)
  rw [file_eq, file_eq]
  exact (Report.stableOrder_ofDiagnostics _ _).sublist (Report.stableOrder_ofDiagnostics _ _) hplain

/-- A stricter preset hides nothing.  In every file, what the minimal rules report is part of what
the recommended ones do, and this is part of what the strict ones do: the same diagnostics, in the
same order.  The strict preset does not only add a rule, it takes exceptions away from two. -/
theorem stricter_preset_hides_nothing (ctx : FileContext) :
    let report (p : Preset) := file ctx (p.rules.map (·.toRule))
    (report .minimal).diagnostics.Sublist (report .recommended).diagnostics ∧
      (report .recommended).diagnostics.Sublist (report .strict).diagnostics := by
  intro report
  constructor
  · exact diagnostics_sublist_of_laxer (.cons (.refl _) .nil) ctx
  · refine diagnostics_sublist_of_laxer ?_ ctx
    exact .cons (.refl _) (.cons .selectStar (.cons .printStatement
      (.cons (.refl _) (.cons (.refl _) (.cons (.refl _) .nil)))))

end Lint

end SqlStyle
