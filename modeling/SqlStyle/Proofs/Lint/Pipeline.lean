import SqlStyle.Lint
import SqlStyle.Proofs.Exemption.Lookup
import SqlStyle.Proofs.Report
import SqlStyle.Rule.BuiltIn

/-!
# What a report of a file holds

A file is linted in stages: its directives become ranges, the ranges an index, each rule runs and
its violations pass the index, and what is left is sorted.  All stages together do what is said
here in one line per rule, with no index and no sorting: hold each violation against every range.
-/

namespace SqlStyle.Lint

open Exemption (Exempt scan)

/-! ## Rule by rule -/

/-- The violations that a rule returns; none where it fails. -/
def returned (ctx : FileContext) (r : Rule) : List Violation :=
  match r.check ctx with
  | .ok vs => vs
  | .error _ => []

/-- The diagnostics of one rule.  Its violations carry the rule's name and severity, whatever name
the rule has put on them, and those in an exempt range are left out.  A rule that fails has one
diagnostic, an error at the start of the file, which no range reaches. -/
def plain (ctx : FileContext) (r : Rule) : List Diagnostic :=
  match r.check ctx with
  | .ok vs =>
      (vs.filter fun v => ¬ Exempt (scan ctx.tokens) r.name v.startChar).map fun v =>
        { v with rule := r.name, severity := r.severity, isFault := false }
  | .error f =>
      [{ rule := r.name
         message := "rule `" ++ r.name ++ "` failed: " ++ f.message
         trigger := ""
         startChar := 0
         stopChar := 0
         line := 1
         column := 0
         severity := .error
         isFault := true }]

/-- How many violations of a rule lie in exempt ranges. -/
def exempted (ctx : FileContext) (r : Rule) : Nat :=
  (returned ctx r).countP fun v => Exempt (scan ctx.tokens) r.name v.startChar

/-- The share of a rule under the index of a file is what the ranges of the file leave of it. -/
theorem share_ofRanges (ctx : FileContext) (r : Rule) :
    share (.ofRanges (scan ctx.tokens)) ctx r = ⟨plain ctx r, exempted ctx r⟩ := by
  rw [share, Rule.run, plain, exempted, returned]
  cases r.check ctx with
  | error f => rfl
  | ok vs =>
      simp only [Exemption.Index.filter_ofRanges, List.filter_map, List.countP_map, List.map_map,
        Share.mk.injEq]
      exact ⟨rfl, rfl⟩

theorem plain_of_ok {ctx : FileContext} {r : Rule} {vs : List Violation}
    (h : r.check ctx = .ok vs) :
    plain ctx r = (vs.filter fun v => ¬ Exempt (scan ctx.tokens) r.name v.startChar).map fun v =>
      { v with rule := r.name, severity := r.severity, isFault := false } := by
  simp only [plain, h]

/-- Built-in rules do not fail. -/
theorem plain_toRule (ctx : FileContext) (b : BuiltIn) :
    plain ctx b.toRule =
      ((b.check ctx).filter fun v => ¬ Exempt (scan ctx.tokens) b.name v.startChar).map fun v =>
        { v with rule := b.name, severity := b.severity, isFault := false } :=
  plain_of_ok rfl

/-- Whatever name a rule puts on its violations, its diagnostics carry the rule's own. -/
theorem rule_of_mem_plain {ctx : FileContext} {r : Rule} {d : Diagnostic} (hd : d ∈ plain ctx r) :
    d.rule = r.name := by
  rw [plain] at hd
  split at hd
  · obtain ⟨v, -, rfl⟩ := List.mem_map.mp hd
    rfl
  · rw [List.mem_singleton.mp hd]

/-- A rule that does not fail reports no fault, and nothing in an exempt range. -/
theorem not_exempt_of_mem_plain {ctx : FileContext} {r : Rule} {vs : List Violation}
    (h : r.check ctx = .ok vs) {d : Diagnostic} (hd : d ∈ plain ctx r) :
    d.isFault = false ∧ ¬ Exempt (scan ctx.tokens) d.rule d.startChar := by
  rw [plain_of_ok h] at hd
  obtain ⟨v, hv, rfl⟩ := List.mem_map.mp hd
  exact ⟨rfl, of_decide_eq_true (List.mem_filter.mp hv).2⟩

/-- No violation is lost between the report and the count of what is exempt. -/
theorem exempted_add_countP_plain (ctx : FileContext) (r : Rule) :
    exempted ctx r + (plain ctx r).countP (!·.isFault) = (returned ctx r).length := by
  cases h : r.check ctx with
  | error f => simp [exempted, returned, plain, h]
  | ok vs =>
      have hkept : (plain ctx r).countP (!·.isFault) = (plain ctx r).length := by
        rw [List.countP_eq_length]
        intro d hd
        rw [(not_exempt_of_mem_plain h hd).1]
        rfl
      have hlen := List.length_eq_countP_add_countP
        (fun v : Violation => decide (Exempt (scan ctx.tokens) r.name v.startChar)) (l := vs)
      rw [hkept]
      simp only [exempted, returned, plain, h, List.length_map, ← List.countP_eq_length_filter]
      simpa using hlen.symm

/-! ## All rules -/

theorem total_map {α β : Type} (f : β → Nat) (g : α → β) (as : List α) :
    total f (as.map g) = total (fun a => f (g a)) as := by
  induction as with
  | nil => rfl
  | cons a as ih => rw [List.map_cons, total_cons, total_cons, ih]

theorem total_congr {α : Type} {f g : α → Nat} {as : List α} (h : ∀ a ∈ as, f a = g a) :
    total f as = total g as := by
  induction as with
  | nil => rfl
  | cons a as ih =>
      rw [total_cons, total_cons, h a List.mem_cons_self,
        ih fun b hb => h b (List.mem_cons_of_mem a hb)]

/-- The report of a file lists what each rule is left with, and counts the rest. -/
theorem file_eq (ctx : FileContext) (rules : List Rule) :
    file ctx rules = .ofDiagnostics (rules.flatMap (plain ctx)) (total (exempted ctx) rules) := by
  have hshares : rules.map (share (.ofRanges (scan ctx.tokens)) ctx) =
      rules.map fun r => ⟨plain ctx r, exempted ctx r⟩ :=
    List.map_congr_left fun r _ => share_ofRanges ctx r
  rw [file, hshares, total_map, List.flatMap_map]

/-- Sorting aside, a report lists the diagnostics of its rules. -/
theorem mem_diagnostics_file {ctx : FileContext} {rules : List Rule} {d : Diagnostic} :
    d ∈ (file ctx rules).diagnostics ↔ ∃ r ∈ rules, d ∈ plain ctx r := by
  rw [file_eq, (Report.stableOrder_ofDiagnostics _ _).perm.mem_iff, List.mem_flatMap]

theorem count_file (ctx : FileContext) (rules : List Rule) :
    (file ctx rules).count = (file ctx rules).diagnostics.length := by
  rw [file_eq, Report.ofDiagnostics, List.length_mergeSort]

/-- Rule by rule, what is exempt and what is listed add up to what is returned. -/
theorem total_exempted_add_countP (ctx : FileContext) (rules : List Rule) :
    total (exempted ctx) rules + (rules.flatMap (plain ctx)).countP (!·.isFault) =
      (rules.flatMap (returned ctx)).length := by
  induction rules with
  | nil => rfl
  | cons r rules ih =>
      have hrule := exempted_add_countP_plain ctx r
      simp only [total_cons, List.flatMap_cons, List.countP_append, List.length_append]
      omega

theorem suppressed_add_countP_file (ctx : FileContext) (rules : List Rule) :
    (file ctx rules).suppressed + (file ctx rules).diagnostics.countP (!·.isFault) =
      (rules.flatMap (returned ctx)).length := by
  rw [file_eq, (Report.stableOrder_ofDiagnostics _ _).perm.countP_eq]
  exact total_exempted_add_countP ctx rules

/-- Rules that do not fail report no fault, and nothing in an exempt range. -/
theorem not_exempt_of_mem_file {ctx : FileContext} {rules : List Rule}
    (hok : ∀ r ∈ rules, ∃ vs, r.check ctx = .ok vs) {d : Diagnostic}
    (hd : d ∈ (file ctx rules).diagnostics) :
    d.isFault = false ∧ ¬ Exempt (scan ctx.tokens) d.rule d.startChar := by
  obtain ⟨r, hr, hd⟩ := mem_diagnostics_file.mp hd
  obtain ⟨vs, hvs⟩ := hok r hr
  exact not_exempt_of_mem_plain hvs hd

/-- Without faults, what rules return is listed or suppressed. -/
theorem count_add_suppressed {ctx : FileContext} {rules : List Rule}
    (hok : ∀ r ∈ rules, ∃ vs, r.check ctx = .ok vs) :
    (file ctx rules).count + (file ctx rules).suppressed =
      (rules.flatMap (returned ctx)).length := by
  have hfault : (file ctx rules).diagnostics.countP (!·.isFault) =
      (file ctx rules).diagnostics.length := by
    rw [List.countP_eq_length]
    intro d hd
    rw [(not_exempt_of_mem_file hok hd).1]
    rfl
  rw [count_file, ← suppressed_add_countP_file, hfault, Nat.add_comm]

/-- The report of a file is that of going through its rules one by one, in their order, and
holding each violation against every exempt range.  It is sorted by line and column, and what
stands at one place keeps that order.  It counts its diagnostics, and every violation that a rule
returns is either listed or suppressed. -/
theorem file_reports_plain (ctx : FileContext) (rules : List Rule) :
    Report.StableOrder (rules.flatMap (plain ctx)) (file ctx rules).diagnostics ∧
    (file ctx rules).count = (file ctx rules).diagnostics.length ∧
    (file ctx rules).suppressed + (file ctx rules).diagnostics.countP (!·.isFault) =
      (rules.flatMap (returned ctx)).length := by
  refine ⟨?_, count_file ctx rules, suppressed_add_countP_file ctx rules⟩
  rw [file_eq]
  exact Report.stableOrder_ofDiagnostics _ _

end SqlStyle.Lint
