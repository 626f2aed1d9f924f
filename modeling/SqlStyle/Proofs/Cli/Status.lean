import SqlStyle.Cli.Run
import SqlStyle.Proofs.Project.Run

/-!
# The exit status of a check

A check ends with the status of a find exactly if some rule that is not switched off has something
severe enough to say about some file with tokens.  Between the rules and the status lie the exempt
ranges, the severities that the configuration sets, the reports of the files and the result of the
run; none of them adds or loses anything that counts.
-/

namespace SqlStyle.Cli

/-- A project is made with the configuration of its request. -/
theorem config_of_project {w : World} {request : CheckRequest} {c : Config} {p : Project}
    (h : project w request c = .ok p) : p.config = c := by
  obtain ⟨rules, -, hmake⟩ := bind_eq_ok_iff.mp h
  obtain ⟨excludes, -, hmake⟩ := bind_eq_ok_iff.mp (mapError_eq_ok_iff.mp hmake)
  obtain ⟨includes, -, hmake⟩ := bind_eq_ok_iff.mp hmake
  cases hmake
  rfl

/-- A check that does not fail has gone through its stages. -/
theorem stages_of_check {w : World} {request : CheckRequest} {named : Option String} {o : Outcome}
    (h : check w request named = .ok o) :
    ∃ c p r, requestConfig w request named = .ok c ∧ project w request c = .ok p ∧
      p.run w.tree w.pool = .ok r ∧ o.exit = if r.reaches c.failsAt then foundStatus else 0 := by
  obtain ⟨c, hc, h⟩ := bind_eq_ok_iff.mp h
  obtain ⟨p, hp, h⟩ := bind_eq_ok_iff.mp h
  obtain ⟨r, hr, h⟩ := bind_eq_ok_iff.mp h
  obtain ⟨output, -, h⟩ := bind_eq_ok_iff.mp h
  cases h
  exact ⟨c, p, r, hc, hp, mapError_eq_ok_iff.mp hr, rfl⟩

/-- The result of a run, for rules of any kind, and the status of a check.  A run that is not
stopped reaches a severity exactly if some file that it finds and that has tokens has a rule that
is not switched off and fails on it, or returns a violation in no exempt range under a severity as
high: the one that the configuration sets for the rule, or else the rule's own.  The diagnostics
of the three severities add up to the count of the run, and setting severities changes nothing
else, and nothing at all about faults.  A check that does not fail ends with status 2 exactly if
its run reaches the severity that the configuration asks for, which is the lowest if it asks for
none; otherwise it ends with status 0. -/
theorem exit_status_of_check :
    (∀ (p : Project) (t : FileTree) (pool : Project.Pool) (r : RunResult), p.run t pool = .ok r →
      (∀ s, r.reaches s = true ↔ p.Reaches t s) ∧
      r.countOf .error + r.countOf .warning + r.countOf .info = r.totalCount ∧
      ∀ f ∈ r.files, ∃ path ts, p.Lints t path ts ∧ f.path = p.relativePath t path ∧
        let report := Lint.file (p.context t path ts) p.activeRules
        f.report.count = report.count ∧ f.report.suppressed = report.suppressed ∧
          List.Forall₂ (Diagnostic.Overridden p.config) report.diagnostics f.report.diagnostics) ∧
    (∀ (w : World) (request : CheckRequest) (named : Option String) (o : Outcome),
      check w request named = .ok o →
        ∃ c p r, requestConfig w request named = .ok c ∧ project w request c = .ok p ∧
          p.config = c ∧ p.run w.tree w.pool = .ok r ∧
          (o.exit = 2 ↔ p.Reaches w.tree (c.failOn.getD .info)) ∧ (o.exit = 2 ∨ o.exit = 0)) := by
  constructor
  · intro p t pool r h
    refine ⟨Project.reaches_of_run h, ?_, ?_⟩
    · rw [Project.totalCount_of_run h, RunResult.countOf_add_countOf_add_countOf]
    · intro f hf
      obtain ⟨path, ts, hlints, rfl⟩ := (Project.mem_files_of_run h).mp hf
      exact ⟨path, ts, hlints, rfl, rfl, rfl, Project.forall₂_overrideSeverities _ _⟩
  · intro w request named o h
    obtain ⟨c, p, r, hc, hp, hr, hexit⟩ := stages_of_check h
    refine ⟨c, p, r, hc, hp, config_of_project hp, hr, ?_⟩
    have hreaches : r.reaches c.failsAt = true ↔ p.Reaches w.tree (c.failOn.getD .info) :=
      Project.reaches_of_run hr c.failsAt
    rw [← hreaches, hexit]
    split
    · next hfound => exact ⟨iff_of_true rfl hfound, .inl rfl⟩
    · next hnone => exact ⟨iff_of_false nofun hnone, .inr rfl⟩

/-- One star is exempt and one is not, and the configuration makes an error of it. -/
theorem star_made_error_ends_with_two :
    let tree : FileTree := ⟨[
      (["tsqllint.toml"],
        .file "fail_on = \"error\"\nrules.select-star.severity = \"error\""),
      (["a.sql"], .file "SELECT *, /* tsqllint-disable */ *")], "/"⟩
    let w : World := ⟨tree, none, .upTo 8⟩
    let request : CheckRequest := { path := "a.sql", format := .compact }
    ∃ o c p r, check w request none = .ok o ∧ requestConfig w request none = .ok c ∧
      project w request c = .ok p ∧ p.run tree w.pool = .ok r ∧ o.exit = 2 ∧
      c.failOn = some .error ∧ p.Reaches tree .error ∧
      r.countOf .error + r.countOf .warning + r.countOf .info = r.totalCount := by
  intro tree w request
  have hexit : (check w request none).toOption.map (·.exit) = some 2 := by decide +kernel
  have hfail : (requestConfig w request none).toOption.bind (·.failOn) = some .error := by
    decide +kernel
  cases h : check w request none with
  | error e =>
      rw [h] at hexit
      cases hexit
  | ok o =>
      rw [h] at hexit
      obtain ⟨hrun, hcheck⟩ := exit_status_of_check
      obtain ⟨c, p, r, hc, hp, -, hr, hstatus, -⟩ := hcheck w request none o h
      rw [hc] at hfail
      have hfail : c.failOn = some .error := hfail
      have htwo : o.exit = 2 := Option.some.inj hexit
      rw [hfail] at hstatus
      have hsum := (hrun p tree w.pool r hr).2.1
      exact ⟨o, c, p, r, rfl, hc, hp, hr, htwo, hfail, hstatus.mp htwo, hsum⟩

end SqlStyle.Cli
