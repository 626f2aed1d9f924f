import SqlStyle.Proofs.Lint.Pipeline

/-!
# Rules do not see each other

Every diagnostic carries the name of the rule that ran, and a rule runs on the file alone.  So the
report of some of the rules can be read off the report of all of them, by name.  This holds for
rules that fail as well: their fault is a diagnostic like any other, and hides nothing.
-/

namespace SqlStyle.Lint

/-- By name, a rule's diagnostics are taken all together or not at all. -/
theorem filter_rule_plain (ctx : FileContext) (r : Rule) (p : String → Bool) :
    (plain ctx r).filter (p ·.rule) = if p r.name then plain ctx r else [] := by
  split
  · next h =>
      rw [List.filter_eq_self]
      intro d hd
      rw [rule_of_mem_plain hd, h]
  · next h =>
      rw [List.filter_eq_nil_iff]
      intro d hd
      rw [rule_of_mem_plain hd]
      exact h

/-- Leaving out rules leaves out their diagnostics. -/
theorem flatMap_plain_filter (ctx : FileContext) (rules : List Rule) (p : String → Bool) :
    (rules.filter (p ·.name)).flatMap (plain ctx) =
      (rules.flatMap (plain ctx)).filter (p ·.rule) := by
  induction rules with
  | nil => rfl
  | cons r rules ih =>
      rw [List.flatMap_cons, List.filter_append, filter_rule_plain, ← ih, List.filter_cons]
      split
      · rw [List.flatMap_cons]
      · rfl

/-- What a test takes and what it leaves add up to the whole. -/
theorem total_filter_add_total_filter_not {α : Type} (f : α → Nat) (p : α → Bool) (as : List α) :
    total f (as.filter p) + total f (as.filter (!p ·)) = total f as := by
  induction as with
  | nil => rfl
  | cons a as ih =>
      cases h : p a with
      | true =>
          rw [List.filter_cons_of_pos h, List.filter_cons_of_neg (by simp [h]), total_cons,
            total_cons, ← ih, Nat.add_assoc]
      | false =>
          rw [List.filter_cons_of_neg (by simp [h]), List.filter_cons_of_pos (by simp [h]),
            total_cons, total_cons, ← ih, Nat.add_left_comm]

/-- Rules are independent of each other, and a rule that fails changes nothing for the others.
Running only the rules with some names, in their order, reports what running all of them reports
under these names, faults included and in the same order; and what the chosen rules and the other
ones suppress adds up to what all of them suppress.  No name has to be unique for this. -/
theorem selected_rules_report_alone (ctx : FileContext) (rules : List Rule) (S : Set String)
    [DecidablePred (· ∈ S)] :
    (file ctx (rules.filter (·.name ∈ S))).diagnostics =
      (file ctx rules).diagnostics.filter (·.rule ∈ S) ∧
    (file ctx (rules.filter (·.name ∈ S))).suppressed +
        (file ctx (rules.filter (·.name ∉ S))).suppressed =
      (file ctx rules).suppressed := by
  constructor
  · rw [file_eq, file_eq, flatMap_plain_filter ctx rules fun name => decide (name ∈ S)]
    exact Report.filter_diagnostics _ _ _ _
  · rw [file_eq, file_eq, file_eq]
    simp only [Report.ofDiagnostics, decide_not]
    exact total_filter_add_total_filter_not _ _ _

end SqlStyle.Lint
