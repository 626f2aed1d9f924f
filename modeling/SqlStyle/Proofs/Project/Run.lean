import SqlStyle.Project
import SqlStyle.Proofs.Lint.Pipeline

/-!
# What a run over a project holds

A run that is not stopped has one report for each file that it finds and that has tokens: the
report of the file's active rules, with the severities that the configuration sets.  So whether a
run reaches a severity can be read off the rules and the files, without the run.  Workers only come
in where the system does not give them, and then there is no result.
-/

namespace SqlStyle

/-! ## Stages that do not fail -/

section Stages

variable {ε ε' α β : Type}

theorem bind_eq_ok_iff {x : Except ε α} {f : α → Except ε β} {b : β} :
    (x >>= f) = .ok b ↔ ∃ a, x = .ok a ∧ f a = .ok b := by
  cases x with
  | error e => simp [bind, Except.bind]
  | ok a => simp [bind, Except.bind]

theorem map_eq_ok_iff {x : Except ε α} {f : α → β} {b : β} :
    x.map f = .ok b ↔ ∃ a, x = .ok a ∧ f a = b := by
  cases x with
  | error e => simp [Except.map]
  | ok a => simp [Except.map]

theorem map_eq_error_iff {x : Except ε α} {f : α → β} {e : ε} :
    x.map f = .error e ↔ x = .error e := by
  cases x with
  | error e => simp [Except.map]
  | ok a => simp [Except.map]

theorem mapError_eq_ok_iff {x : Except ε α} {f : ε → ε'} {a : α} :
    x.mapError f = .ok a ↔ x = .ok a := by
  cases x with
  | error e => simp [Except.mapError]
  | ok a => simp [Except.mapError]

end Stages

/-! ## Counts -/

namespace RunResult

theorem length_diagnostics (r : RunResult) :
    r.diagnostics.length = total (·.report.diagnostics.length) r.files := by
  rw [diagnostics]
  induction r.files with
  | nil => rfl
  | cons f fs ih => rw [List.flatMap_cons, List.length_append, List.length_map, total_cons, ih]

/-- Every diagnostic has one of the three severities. -/
theorem countOf_add_countOf_add_countOf (r : RunResult) :
    r.countOf .error + r.countOf .warning + r.countOf .info = r.diagnostics.length := by
  simp only [countOf]
  induction r.diagnostics with
  | nil => rfl
  | cons d ds ih =>
      simp only [List.countP_cons, List.length_cons, ← ih]
      cases d.2.severity <;> simp <;> omega

end RunResult

/-! ## Severities -/

/-- The diagnostic `e` is `d`, except that a configuration may have set its severity.  Faults keep
theirs. -/
structure Diagnostic.Overridden (c : Config) (d e : Diagnostic) : Prop where
  toViolation_eq : e.toViolation = d.toViolation
  isFault_eq : e.isFault = d.isFault
  severity_eq : e.severity =
    if d.isFault then d.severity else (c.severity? d.rule).getD d.severity

/-- A rule is active unless its table switches it off. -/
theorem Config.isEnabled_iff {c : Config} {rule : String} :
    c.isEnabled rule = true ↔ (c.rules.lookup rule).bind (·.enabled) ≠ some false := by
  rw [isEnabled]
  cases (c.rules.lookup rule).bind (·.enabled) with
  | none => simp
  | some b => simp

/-- A rule fails on a file, or it returns a violation in no exempt range, and the severity that
the configuration sets for the rule, or else its own, is at least `s`. -/
def Rule.Reaches (c : Config) (s : Severity) (ctx : FileContext) (r : Rule) : Prop :=
  (∃ f, r.check ctx = .error f) ∨
    ∃ vs, r.check ctx = .ok vs ∧ ∃ v ∈ vs,
      (¬ ∃ x ∈ Exemption.scan ctx.tokens, x.covers r.name v.startChar = true) ∧
        s ≤ (c.severity? r.name).getD r.severity

theorem Severity.le_error (s : Severity) : s ≤ error := by
  cases s <;> decide

namespace Project

theorem overridden_overrideSeverity (c : Config) (d : Diagnostic) :
    d.Overridden c (overrideSeverity c d) := by
  rw [overrideSeverity]
  split
  · next h => exact ⟨rfl, rfl, (if_pos h).symm⟩
  · next h => exact ⟨rfl, rfl, (if_neg h).symm⟩

theorem forall₂_overrideSeverities (c : Config) (r : Report) :
    List.Forall₂ (Diagnostic.Overridden c) r.diagnostics
      (overrideSeverities c r).diagnostics := by
  rw [overrideSeverities, List.forall₂_map_right_iff, List.forall₂_same]
  exact fun d _ => overridden_overrideSeverity c d

/-- Among the diagnostics of one rule, one is as severe as `s` if the rule reaches `s`. -/
theorem exists_severe_plain_iff {c : Config} {s : Severity} {ctx : FileContext} {r : Rule} :
    (∃ d ∈ Lint.plain ctx r, s ≤ (overrideSeverity c d).severity) ↔ r.Reaches c s ctx := by
  rw [Rule.Reaches]
  cases h : r.check ctx with
  | error f =>
      refine iff_of_true ?_ (.inl ⟨f, rfl⟩)
      simp only [Lint.plain, h, List.mem_singleton, exists_eq_left]
      exact s.le_error
  | ok vs =>
      simp only [reduceCtorEq, exists_false, false_or, Except.ok.injEq, exists_eq_left']
      rw [Lint.plain_of_ok h]
      constructor
      · rintro ⟨d, hd, hs⟩
        obtain ⟨v, hv, rfl⟩ := List.mem_map.mp hd
        obtain ⟨hv, hexempt⟩ := List.mem_filter.mp hv
        exact ⟨v, hv, of_decide_eq_true hexempt, hs⟩
      · rintro ⟨v, hv, hexempt, hs⟩
        exact ⟨_, List.mem_map_of_mem (List.mem_filter.mpr ⟨hv, decide_eq_true hexempt⟩), hs⟩

/-! ## Workers -/

variable {p : Project} {t : FileTree} {pool : Pool} {paths : List String} {path : String}
  {ts : List Token} {r : RunResult} {e : Fault}

/-- A run asks for a number of workers other than one, and the pool does not give them. -/
def LacksWorkers (p : Project) (pool : Pool) (cause : String) : Prop :=
  ∃ n, p.config.linter.parallelism = some n ∧ n ≠ 1 ∧ pool.build n = .error cause

/-- A run has no outcomes for lack of workers, and else every file has its own. -/
theorem outcomes_cases (p : Project) (t : FileTree) (pool : Pool) (paths : List String) :
    (∃ cause, p.LacksWorkers pool cause ∧ p.outcomes t pool paths = .error (.pool cause)) ∨
      (¬ ∃ cause, p.LacksWorkers pool cause) ∧
        p.outcomes t pool paths = .ok (paths.map (p.lintFile t)) := by
  rw [outcomes]
  split
  · next hnone =>
      refine .inr ⟨?_, congrArg Except.ok (pool.shared.collect_eq _ _)⟩
      rintro ⟨cause, n, hn, -⟩
      cases hnone.symm.trans hn
  · next hone =>
      refine .inr ⟨?_, rfl⟩
      rintro ⟨cause, n, hn, hne, -⟩
      cases hone.symm.trans hn
      exact hne rfl
  · next n hne hsome =>
      cases hbuild : pool.build n with
      | ok workers =>
          refine .inr ⟨?_, congrArg Except.ok (workers.collect_eq _ _)⟩
          rintro ⟨cause, m, hm, -, herror⟩
          cases hsome.symm.trans hm
          cases hbuild.symm.trans herror
      | error cause => exact .inl ⟨cause, ⟨n, hsome, hne, hbuild⟩, rfl⟩

/-- The lack that stops a run is the only one. -/
theorem LacksWorkers.unique {cause cause' : String} (h : p.LacksWorkers pool cause)
    (h' : p.LacksWorkers pool cause') : cause = cause' := by
  obtain ⟨n, hn, -, hbuild⟩ := h
  obtain ⟨m, hm, -, hbuild'⟩ := h'
  cases hn.symm.trans hm
  cases hbuild.symm.trans hbuild'
  rfl

/-- With workers, every outcome goes to its own file. -/
theorem zip_map_lintFile (paths : List String) :
    paths.zip (paths.map (p.lintFile t)) = paths.map fun path => (path, p.lintFile t path) :=
  calc
    paths.zip (paths.map (p.lintFile t)) = (paths.map id).zip (paths.map (p.lintFile t)) := by
      rw [List.map_id]
    _ = paths.map fun path => (path, p.lintFile t path) := List.zip_map'

theorem lintFiles_eq_ok_iff :
    p.lintFiles t pool paths = .ok r ↔
      (¬ ∃ cause, p.LacksWorkers pool cause) ∧
        tally p.failsOnLexError (p.relativePath t)
          (paths.map fun path => (path, p.lintFile t path)) = .ok r := by
  rcases p.outcomes_cases t pool paths with ⟨cause, hlacks, h⟩ | ⟨hbuilt, h⟩
  · rw [lintFiles, h]
    exact iff_of_false nofun fun hbuilt => hbuilt.1 ⟨cause, hlacks⟩
  · rw [lintFiles, h, and_iff_right hbuilt, ← zip_map_lintFile]
    rfl

theorem lintFiles_eq_error_iff :
    p.lintFiles t pool paths = .error e ↔
      (∃ cause, p.LacksWorkers pool cause ∧ e = .pool cause) ∨
        (¬ ∃ cause, p.LacksWorkers pool cause) ∧
          tally p.failsOnLexError (p.relativePath t)
            (paths.map fun path => (path, p.lintFile t path)) = .error e := by
  rcases p.outcomes_cases t pool paths with ⟨cause, hlacks, h⟩ | ⟨hbuilt, h⟩
  · have hcause : (∃ cause', p.LacksWorkers pool cause' ∧ e = .pool cause') ↔ e = .pool cause := by
      constructor
      · rintro ⟨cause', hlacks', he⟩
        rw [hlacks.unique hlacks', he]
      · intro he
        exact ⟨cause, hlacks, he⟩
    have herror : p.lintFiles t pool paths = .error (.pool cause) := by
      rw [lintFiles, h]
      rfl
    rw [herror, hcause, or_iff_left fun hbuilt => hbuilt.1 ⟨cause, hlacks⟩, Except.error.injEq,
      eq_comm]
  · rw [lintFiles, h, or_iff_right fun ⟨cause, hlacks, _⟩ => hbuilt ⟨cause, hlacks⟩,
      and_iff_right hbuilt, ← zip_map_lintFile]
    rfl

/-! ## Files -/

/-- What the rules see of tokens that stand at a path. -/
def context (p : Project) (t : FileTree) (path : String) (ts : List Token) : FileContext :=
  .ofPath path (p.baseDir t) ts

/-- The project finds a file at the path, and the file has these tokens. -/
structure Lints (p : Project) (t : FileTree) (path : String) (ts : List Token) : Prop where
  found : ∃ paths, p.discover t = .ok paths ∧ path ∈ paths
  tokens : ∃ text, t.read path = .ok text ∧ Token.ofSource text = .ok ts

/-- What is reported of tokens that stand at a path. -/
def reportOf (p : Project) (t : FileTree) (path : String) (ts : List Token) : Report :=
  overrideSeverities p.config (Lint.file (p.context t path ts) p.activeRules)

theorem count_reportOf (p : Project) (t : FileTree) (path : String) (ts : List Token) :
    (p.reportOf t path ts).count = (p.reportOf t path ts).diagnostics.length := by
  rw [reportOf, overrideSeverities, List.length_map]
  exact Lint.count_file _ _

/-- The report of a file that was linted. -/
def Outcome.report? : Outcome → Option Report
  | .linted report => some report
  | _ => none

/-- A file is linted if it can be read and has tokens. -/
theorem report?_lintFile_eq_some_iff {report : Report} :
    (p.lintFile t path).report? = some report ↔
      ∃ ts, (∃ text, t.read path = .ok text ∧ Token.ofSource text = .ok ts) ∧
        p.reportOf t path ts = report := by
  rw [lintFile]
  cases t.read path with
  | error e => simp [Outcome.report?]
  | ok text =>
      simp only [lintText]
      cases h : Token.ofSource text with
      | error e => simp [Except.map, Outcome.report?, h]
      | ok ts => simp [Except.map, Outcome.report?, h, reportOf, context]

/-- A tally that is not stopped keeps every report, in order. -/
theorem files_of_tally {fails : Bool} {relative : String → String}
    {outcomes : List (String × Outcome)} (h : tally fails relative outcomes = .ok r) :
    r.files = outcomes.filterMap fun o => o.2.report?.map (⟨relative o.1, ·⟩) := by
  induction outcomes generalizing r with
  | nil =>
      cases h
      rfl
  | cons o outcomes ih =>
      obtain ⟨path, o⟩ := o
      cases o with
      | linted report =>
          obtain ⟨rest, hrest, rfl⟩ := map_eq_ok_iff.mp h
          exact congrArg (⟨relative path, report⟩ :: ·) (ih hrest)
      | noTokens e =>
          rw [tally] at h
          split at h
          · cases h
          · obtain ⟨rest, hrest, rfl⟩ := map_eq_ok_iff.mp h
            have hfiles := ih hrest
            exact hfiles
      | noText e => cases h

/-- The files of a run are those that it finds and that have tokens. -/
theorem mem_files_of_run (h : p.run t pool = .ok r) {f : FileReport} :
    f ∈ r.files ↔ ∃ path ts, p.Lints t path ts ∧
      f = ⟨p.relativePath t path, p.reportOf t path ts⟩ := by
  obtain ⟨paths, hpaths, hlint⟩ := bind_eq_ok_iff.mp h
  rw [files_of_tally (lintFiles_eq_ok_iff.mp hlint).2, List.filterMap_map, List.mem_filterMap]
  simp only [Function.comp, Option.map_eq_some_iff, report?_lintFile_eq_some_iff]
  constructor
  · rintro ⟨path, hpath, -, ⟨ts, htokens, rfl⟩, rfl⟩
    exact ⟨path, ts, ⟨⟨paths, hpaths, hpath⟩, htokens⟩, rfl⟩
  · rintro ⟨path, ts, ⟨⟨paths', hpaths', hpath⟩, htokens⟩, rfl⟩
    cases hpaths.symm.trans hpaths'
    exact ⟨path, hpath, _, ⟨ts, htokens, rfl⟩, rfl⟩

/-! ## Runs -/

/-- Some file of a project has a rule that is not switched off and that reaches `s` on it. -/
def Reaches (p : Project) (t : FileTree) (s : Severity) : Prop :=
  ∃ path ts, p.Lints t path ts ∧ ∃ rule ∈ p.rules,
    (p.config.rules.lookup rule.name).bind (·.enabled) ≠ some false ∧
      rule.Reaches p.config s (p.context t path ts)

theorem exists_severe_reportOf_iff {s : Severity} :
    (∃ d ∈ (p.reportOf t path ts).diagnostics, s ≤ d.severity) ↔
      ∃ rule ∈ p.rules, (p.config.rules.lookup rule.name).bind (·.enabled) ≠ some false ∧
        rule.Reaches p.config s (p.context t path ts) := by
  simp only [reportOf, overrideSeverities, List.mem_map, Lint.mem_diagnostics_file, activeRules,
    List.mem_filter, Config.isEnabled_iff, ← exists_severe_plain_iff]
  constructor
  · rintro ⟨-, ⟨d, ⟨rule, ⟨hrule, hactive⟩, hd⟩, rfl⟩, hs⟩
    exact ⟨rule, hrule, hactive, d, hd, hs⟩
  · rintro ⟨rule, hrule, hactive, d, hd, hs⟩
    exact ⟨_, ⟨d, ⟨rule, ⟨hrule, hactive⟩, hd⟩, rfl⟩, hs⟩

theorem reaches_of_run (h : p.run t pool = .ok r) (s : Severity) :
    r.reaches s = true ↔ p.Reaches t s := by
  have hfiles : r.reaches s = true ↔
      ∃ f ∈ r.files, ∃ d ∈ f.report.diagnostics, s ≤ d.severity := by
    simp [RunResult.reaches, RunResult.diagnostics]
  simp only [hfiles, mem_files_of_run h, Reaches, ← exists_severe_reportOf_iff]
  constructor
  · rintro ⟨-, ⟨path, ts, hlints, rfl⟩, hsevere⟩
    exact ⟨path, ts, hlints, hsevere⟩
  · rintro ⟨path, ts, hlints, hsevere⟩
    exact ⟨_, ⟨path, ts, hlints, rfl⟩, hsevere⟩

/-- The counts of the reports add up to the diagnostics of a run. -/
theorem totalCount_of_run (h : p.run t pool = .ok r) : r.totalCount = r.diagnostics.length := by
  rw [RunResult.length_diagnostics, RunResult.totalCount]
  refine Lint.total_congr ?_
  intro f hf
  obtain ⟨path, ts, -, rfl⟩ := (mem_files_of_run h).mp hf
  exact count_reportOf p t path ts

end Project

end SqlStyle
