import SqlStyle.Proofs.Path
import SqlStyle.Proofs.Project.Run

/-!
# A run accounts for every file

A walk comes to the files of a project in some order, and some number of workers lints them.
Neither shows in the result.  The files are sorted by their paths, every outcome goes back to its
path, and the first file that has to stop the run does so.  If there is none, every file is in the
result once: among the reports if it has tokens, else among the failures.  Only a number of workers
that the system does not give comes before all this, and stops the run whatever its files are.
-/

namespace SqlStyle.Project

variable {p : Project} {t : FileTree} {pool : Pool} {files paths : List String}
  {path : String} {e : Fault} {r : RunResult}

/-- The files that a project finds are in the order of their paths. -/
theorem pairwise_discover (h : p.discover t = .ok paths) :
    paths.Pairwise fun a b => Path.le a b = true := by
  rw [discover] at h
  split at h
  · cases h
  · split at h
    · cases h
    · cases h
      exact Path.pairwise_mergeSort _
  · cases h
    exact List.pairwise_singleton _ _

/-- A run lints the files that the project finds, in whatever order these are come upon. -/
theorem run_eq_lintFiles (hdistinct : (files.map Path.components).Nodup)
    (h : p.discover t = .ok paths) (hperm : paths.Perm files) :
    p.run t pool = p.lintFiles t pool (files.mergeSort Path.le) := by
  rw [← Path.eq_mergeSort_of_perm hdistinct hperm (pairwise_discover h), run, h]
  rfl

/-! ## What becomes of a file -/

theorem lintFile_eq_linted_iff {report : Report} :
    p.lintFile t path = .linted report ↔
      ∃ text, t.read path = .ok text ∧ p.lintText t path text = .ok report := by
  rw [lintFile]
  cases t.read path with
  | error e => simp
  | ok text => cases h : p.lintText t path text <;> simp [h]

theorem lintFile_eq_noTokens_iff {fault : LexError} :
    p.lintFile t path = .noTokens fault ↔
      ∃ text, t.read path = .ok text ∧ Token.ofSource text = .error fault := by
  rw [lintFile]
  cases t.read path with
  | error e => simp
  | ok text => cases h : Token.ofSource text <;> simp [lintText, Except.map, h]

theorem lintFile_eq_noText_iff {fault : FileFault} :
    p.lintFile t path = .noText fault ↔ t.read path = .error fault := by
  rw [lintFile]
  cases t.read path with
  | error e => simp
  | ok text => cases h : p.lintText t path text <;> simp [h]

/-! ## Files that stop a run -/

/-- A file stops a run if it cannot be read, and also if it can be but has no tokens, provided
that the project does not put up with that. -/
inductive Stops (p : Project) (t : FileTree) (path : String) : Fault → Prop
  | unread {e : FileFault} (hread : t.read path = .error e) : Stops p t path (.file e)
  | untokenized {text : String} {e : LexError} (hfails : p.failsOnLexError = true)
      (hread : t.read path = .ok text) (hlex : Token.ofSource text = .error e) :
      Stops p t path (.lex path e)

/-- The fault that an outcome is, if any. -/
def Outcome.fault? (fails : Bool) (path : String) : Outcome → Option Fault
  | linted _ => none
  | noTokens e => if fails then some (.lex path e) else none
  | noText e => some (.file e)

theorem fault?_lintFile_eq_some_iff :
    (p.lintFile t path).fault? p.failsOnLexError path = some e ↔ p.Stops t path e := by
  constructor
  · intro h
    cases houtcome : p.lintFile t path with
    | linted report =>
        rw [houtcome] at h
        cases h
    | noTokens fault =>
        rw [houtcome] at h
        obtain ⟨hfails, hfault⟩ := Option.ite_none_right_eq_some.mp h
        cases hfault
        obtain ⟨text, hread, hlex⟩ := lintFile_eq_noTokens_iff.mp houtcome
        exact .untokenized hfails hread hlex
    | noText fault =>
        rw [houtcome] at h
        cases h
        exact .unread (lintFile_eq_noText_iff.mp houtcome)
  · intro h
    cases h with
    | unread hread =>
        rw [lintFile_eq_noText_iff.mpr hread]
        rfl
    | untokenized hfails hread hlex =>
        rw [lintFile_eq_noTokens_iff.mpr ⟨_, hread, hlex⟩, Outcome.fault?, if_pos hfails]

/-- A tally fails with the first fault. -/
theorem tally_eq_error_iff {fails : Bool} {relative : String → String}
    {os : List (String × Outcome)} :
    tally fails relative os = .error e ↔ os.findSome? (fun o => o.2.fault? fails o.1) = some e := by
  induction os with
  | nil => simp [tally]
  | cons o os ih =>
      obtain ⟨path, o⟩ := o
      cases o with
      | linted report =>
          rw [tally, map_eq_error_iff, ih]
          rfl
      | noTokens fault =>
          cases fails with
          | false =>
              rw [tally, if_neg Bool.false_ne_true, map_eq_error_iff, ih]
              rfl
          | true => simp [tally, Outcome.fault?]
      | noText fault => simp [tally, Outcome.fault?]

/-- Files in order are tallied up to the first that stops the run. -/
theorem tally_files_eq_error_iff :
    tally p.failsOnLexError (p.relativePath t)
        ((files.mergeSort Path.le).map fun path => (path, p.lintFile t path)) = .error e ↔
      (files.mergeSort Path.le).findSome?
        (fun path => (p.lintFile t path).fault? p.failsOnLexError path) = some e := by
  rw [tally_eq_error_iff, List.findSome?_map]
  rfl

/-- Some file stops a run, or none does. -/
theorem exists_findSome?_eq_some_iff :
    (∃ e, (files.mergeSort Path.le).findSome?
        (fun path => (p.lintFile t path).fault? p.failsOnLexError path) = some e) ↔
      ∃ path ∈ files, ∃ e, p.Stops t path e := by
  simp only [← Option.isSome_iff_exists, List.findSome?_isSome_iff, List.mem_mergeSort,
    ← fault?_lintFile_eq_some_iff]

/-- A run fails for lack of workers, or if some file stops it. -/
theorem exists_lintFiles_eq_error_iff :
    (∃ e, p.lintFiles t pool (files.mergeSort Path.le) = .error e) ↔
      (∃ cause, p.LacksWorkers pool cause) ∨ ∃ path ∈ files, ∃ e, p.Stops t path e := by
  simp only [lintFiles_eq_error_iff, tally_files_eq_error_iff, ← exists_findSome?_eq_some_iff]
  constructor
  · rintro ⟨e, ⟨cause, hlacks, -⟩ | ⟨-, hstops⟩⟩
    · exact .inl ⟨cause, hlacks⟩
    · exact .inr ⟨e, hstops⟩
  · rintro (⟨cause, hlacks⟩ | ⟨e, hstops⟩)
    · exact ⟨.pool cause, .inl ⟨cause, hlacks, rfl⟩⟩
    · by_cases hlacks : ∃ cause, p.LacksWorkers pool cause
      · obtain ⟨cause, hcause⟩ := hlacks
        exact ⟨.pool cause, .inl ⟨cause, hcause, rfl⟩⟩
      · exact ⟨e, .inr ⟨hlacks, hstops⟩⟩

/-- With workers, the fault that ends a run is that of the first file that stops it. -/
theorem lintFiles_sorted_eq_error_iff (hdistinct : (files.map Path.components).Nodup) :
    p.lintFiles t pool (files.mergeSort Path.le) = .error e ↔
      (∃ cause, p.LacksWorkers pool cause ∧ e = .pool cause) ∨
        (¬ ∃ cause, p.LacksWorkers pool cause) ∧
          ∃ path ∈ files, p.Stops t path e ∧
            ∀ other ∈ files, (∃ e', p.Stops t other e') → Path.le path other = true := by
  simp only [lintFiles_eq_error_iff, tally_files_eq_error_iff,
    Path.findSome?_mergeSort_eq_some_iff hdistinct, Option.isSome_iff_exists,
    fault?_lintFile_eq_some_iff]

/-! ## Files of a result -/

/-- A report stands for the file at a path if it is the report about the file's text. -/
structure Reports (p : Project) (t : FileTree) (path : String) (f : FileReport) : Prop where
  path_eq : f.path = p.relativePath t path
  report_eq : ∃ text, t.read path = .ok text ∧ p.lintText t path text = .ok f.report

/-- A failure stands for the file at a path if the file can be read but has no tokens. -/
structure Fails (p : Project) (t : FileTree) (path : String) (f : LexFailure) : Prop where
  path_eq : f.path = p.relativePath t path
  message_eq : ∃ text fault, t.read path = .ok text ∧ Token.ofSource text = .error fault ∧
    f.message = fault.message

/-- A result accounts for files if they fall into those of its reports and those of its failures,
both in the order of their paths. -/
structure Accounts (p : Project) (t : FileTree) (files linted failed : List String)
    (r : RunResult) : Prop where
  perm : (linted ++ failed).Perm files
  linted_ordered : linted.Pairwise fun a b => Path.le a b = true
  failed_ordered : failed.Pairwise fun a b => Path.le a b = true
  reports : List.Forall₂ (p.Reports t) linted r.files
  failures : List.Forall₂ (p.Fails t) failed r.lexFailures
  filesChecked_eq : r.filesChecked = r.files.length

namespace Accounts

variable {linted failed : List String}

theorem empty (p : Project) (t : FileTree) : p.Accounts t [] [] [] .empty where
  perm := .nil
  linted_ordered := .nil
  failed_ordered := .nil
  reports := .nil
  failures := .nil
  filesChecked_eq := rfl

/-- A report goes before those of files behind its own. -/
theorem cons_report (h : p.Accounts t files linted failed r) {f : FileReport}
    (hle : ∀ other ∈ files, Path.le path other = true) (hf : p.Reports t path f) :
    p.Accounts t (path :: files) (path :: linted) failed
      { r with files := f :: r.files, filesChecked := r.filesChecked + 1 } where
  perm := h.perm.cons path
  linted_ordered := by
    refine List.pairwise_cons.mpr ⟨?_, h.linted_ordered⟩
    intro other hother
    exact hle other (h.perm.subset (List.mem_append_left failed hother))
  failed_ordered := h.failed_ordered
  reports := .cons hf h.reports
  failures := h.failures
  filesChecked_eq := congrArg (· + 1) h.filesChecked_eq

/-- A failure goes before those of files behind its own. -/
theorem cons_failure (h : p.Accounts t files linted failed r) {f : LexFailure}
    (hle : ∀ other ∈ files, Path.le path other = true) (hf : p.Fails t path f) :
    p.Accounts t (path :: files) linted (path :: failed)
      { r with lexFailures := f :: r.lexFailures } where
  perm := List.perm_middle.trans (h.perm.cons path)
  linted_ordered := h.linted_ordered
  failed_ordered := by
    refine List.pairwise_cons.mpr ⟨?_, h.failed_ordered⟩
    intro other hother
    exact hle other (h.perm.subset (List.mem_append_right linted hother))
  reports := h.reports
  failures := .cons hf h.failures
  filesChecked_eq := h.filesChecked_eq

/-- Every file is counted once. -/
theorem filesChecked_add_length (h : p.Accounts t files linted failed r) :
    r.filesChecked + r.lexFailures.length = files.length := by
  rw [h.filesChecked_eq, ← h.reports.length_eq, ← h.failures.length_eq, ← List.length_append]
  exact h.perm.length_eq

end Accounts

/-- A tally of files in order that is not stopped accounts for them. -/
theorem accounts_of_tally (hordered : paths.Pairwise fun a b => Path.le a b = true)
    (h : tally p.failsOnLexError (p.relativePath t)
      (paths.map fun path => (path, p.lintFile t path)) = .ok r) :
    ∃ linted failed, p.Accounts t paths linted failed r := by
  induction paths generalizing r with
  | nil =>
      cases h
      exact ⟨[], [], .empty p t⟩
  | cons path paths ih =>
      obtain ⟨hle, hordered⟩ := List.pairwise_cons.mp hordered
      rw [List.map_cons] at h
      cases houtcome : p.lintFile t path with
      | linted report =>
          rw [houtcome] at h
          obtain ⟨rest, hrest, rfl⟩ := map_eq_ok_iff.mp h
          obtain ⟨linted, failed, haccounts⟩ := ih hordered hrest
          exact ⟨_, _, haccounts.cons_report hle ⟨rfl, lintFile_eq_linted_iff.mp houtcome⟩⟩
      | noTokens fault =>
          rw [houtcome, tally] at h
          split at h
          · cases h
          · obtain ⟨rest, hrest, rfl⟩ := map_eq_ok_iff.mp h
            obtain ⟨linted, failed, haccounts⟩ := ih hordered hrest
            obtain ⟨text, hread, hlex⟩ := lintFile_eq_noTokens_iff.mp houtcome
            exact ⟨_, _, haccounts.cons_failure hle ⟨rfl, text, fault, hread, hlex, rfl⟩⟩
      | noText fault =>
          rw [houtcome] at h
          cases h

/-- A run that is not stopped accounts for its files. -/
theorem accounts_of_lintFiles (h : p.lintFiles t pool (files.mergeSort Path.le) = .ok r) :
    ∃ linted failed, p.Accounts t files linted failed r := by
  obtain ⟨linted, failed, haccounts⟩ :=
    accounts_of_tally (Path.pairwise_mergeSort files) (lintFiles_eq_ok_iff.mp h).2
  exact ⟨linted, failed,
    { haccounts with perm := haccounts.perm.trans (List.mergeSort_perm files Path.le) }⟩

/-- What comes of a run over files with different paths, in whatever order a walk comes to them and
whatever the number of workers.  The run is that of the project if these are the files that it
finds.  It fails exactly if the system does not give as many workers as the configuration asks for,
or some file cannot be read, or has no tokens and the project does not put up with that.  A lack of
workers comes first and does not depend on the files; without one, the fault is that of the first
such file in the order of paths.  A run that does not fail has reports about the texts of the files
with tokens, its failures stand for the other files, both in the order of paths, and every file is
counted once. -/
theorem run_accounts_for_every_file (p : Project) (t : FileTree) (pool : Pool)
    (files : List String) (hdistinct : (files.map Path.components).Nodup) :
    let run := p.lintFiles t pool (files.mergeSort Path.le)
    (∀ paths, p.discover t = .ok paths → paths.Perm files → p.run t pool = run) ∧
    ((∃ e, run = .error e) ↔
      (∃ cause, p.LacksWorkers pool cause) ∨ ∃ path ∈ files, ∃ e, p.Stops t path e) ∧
    (∀ e, run = .error e ↔
      (∃ cause, p.LacksWorkers pool cause ∧ e = .pool cause) ∨
        (¬ ∃ cause, p.LacksWorkers pool cause) ∧
          ∃ path ∈ files, p.Stops t path e ∧
            ∀ other ∈ files, (∃ e', p.Stops t other e') → Path.le path other = true) ∧
    ∀ r, run = .ok r →
      (∃ linted failed, p.Accounts t files linted failed r) ∧
        r.filesChecked = r.files.length ∧
        r.filesChecked + r.lexFailures.length = files.length := by
  intro run
  refine ⟨?_, exists_lintFiles_eq_error_iff, ?_, ?_⟩
  · intro paths hfound hperm
    exact run_eq_lintFiles hdistinct hfound hperm
  · intro e
    exact lintFiles_sorted_eq_error_iff hdistinct
  · intro r hrun
    obtain ⟨linted, failed, haccounts⟩ := accounts_of_lintFiles hrun
    exact ⟨⟨linted, failed, haccounts⟩, haccounts.filesChecked_eq,
      haccounts.filesChecked_add_length⟩

/-- The last of three files cannot be read and stops the run behind one without tokens, which does
not.  A run over the first two counts both.  The walk comes to the last file first, and the workers
begin at the other end. -/
theorem unread_file_stops_behind_untokenized :
    let t : FileTree := ⟨[(["p", "c.sql"], .binary [255]), (["p", "b.sql"], .file "SELECT 1"),
      (["p", "a.sql"], .file "SELECT 'a")], "/"⟩
    let p : Project := ⟨"/p", [], [], [], { linter := { parallelism := some 3 } }, false⟩
    let backwards : Workers := ⟨fun lint paths => (paths.reverse.map lint).reverse, by simp⟩
    let pool : Pool := ⟨backwards, fun n => if n ≤ 4 then .ok backwards else .error "too many"⟩
    p.run t pool = .error (.file .notText) ∧
      ∃ r, p.lintFiles t pool (["/p/b.sql", "/p/a.sql"].mergeSort Path.le) = .ok r ∧
        r.filesChecked + r.lexFailures.length = 2 := by
  intro t p backwards pool
  have ha : t.read "/p/a.sql" = .ok "SELECT 'a" := by decide +kernel
  have hb : t.read "/p/b.sql" = .ok "SELECT 1" := by decide +kernel
  have hc : t.read "/p/c.sql" = .error .notText := by decide +kernel
  have hworkers : ¬ ∃ cause, p.LacksWorkers pool cause := by
    rintro ⟨cause, n, hn, -, hbuild⟩
    cases hn
    cases hbuild
  -- the project puts up with files without tokens, so it is enough that there is a text
  have hstops {path text : String} (htext : t.read path = .ok text) (e : Fault) :
      ¬ p.Stops t path e := by
    rintro (hread | hfails)
    · rw [htext] at hread
      cases hread
    · cases hfails
  constructor
  · have hfind : t.find p.root = .ok (["p"], .directory) := by decide +kernel
    have hwalk : Ignore.walk t p.config.linter.respectIgnoreFiles ["p"] =
        .ok [["c.sql"], ["b.sql"], ["a.sql"]] := by decide +kernel
    have htaken : ([["c.sql"], ["b.sql"], ["a.sql"]].map fun below =>
        below.foldl Path.join p.root).filter (fun path => isScript path && p.isTaken t path) =
          ["/p/c.sql", "/p/b.sql", "/p/a.sql"] := by decide +kernel
    have hfound : p.discover t = .ok (["/p/c.sql", "/p/b.sql", "/p/a.sql"].mergeSort Path.le) := by
      simp only [discover, hfind, hwalk, htaken]
    obtain ⟨hrun, -, herror, -⟩ := run_accounts_for_every_file p t pool
      ["/p/c.sql", "/p/b.sql", "/p/a.sql"] (by decide +kernel)
    rw [hrun _ hfound (List.mergeSort_perm _ _)]
    refine (herror _).mpr (.inr ⟨hworkers, "/p/c.sql", by decide, .unread hc, ?_⟩)
    rintro other hother ⟨e, he⟩
    simp only [List.mem_cons, List.not_mem_nil, or_false] at hother
    rcases hother with rfl | rfl | rfl
    · exact Path.le_refl _
    · exact absurd he (hstops hb e)
    · exact absurd he (hstops ha e)
  · obtain ⟨-, hfails, -, hok⟩ := run_accounts_for_every_file p t pool
      ["/p/b.sql", "/p/a.sql"] (by decide +kernel)
    cases hrun : p.lintFiles t pool (["/p/b.sql", "/p/a.sql"].mergeSort Path.le) with
    | error e =>
        rcases hfails.mp ⟨e, hrun⟩ with hlacks | ⟨path, hpath, e', he⟩
        · exact absurd hlacks hworkers
        · simp only [List.mem_cons, List.not_mem_nil, or_false] at hpath
          rcases hpath with rfl | rfl
          · exact absurd he (hstops hb e')
          · exact absurd he (hstops ha e')
    | ok r => exact ⟨r, rfl, (hok r hrun).2.2⟩

/-- A run that asks for more workers than there are threads fails, and no file is at fault. -/
theorem run_fails_without_workers :
    ¬ ∀ (p : Project) (t : FileTree) (pool : Pool) (files : List String),
      (files.map Path.components).Nodup →
        ((∃ e, p.lintFiles t pool (files.mergeSort Path.le) = .error e) ↔
          ∃ path ∈ files, ∃ e, p.Stops t path e) := by
  intro h
  let t : FileTree := ⟨[(["p", "a.sql"], .file "SELECT 1")], "/"⟩
  let p : Project := ⟨"/p", [], [], [], { linter := { parallelism := some 65535 } }, false⟩
  have hread : t.read "/p/a.sql" = .ok "SELECT 1" := by decide +kernel
  have hfault : p.lintFiles t .ofSystem (["/p/a.sql"].mergeSort Path.le) =
      .error (.pool "Resource temporarily unavailable (os error 11)") := by
    rw [List.mergeSort_singleton]
    rfl
  obtain ⟨path, hpath, e, he⟩ :=
    (h p t .ofSystem ["/p/a.sql"] (List.nodup_singleton _)).mp ⟨_, hfault⟩
  rw [List.mem_singleton.mp hpath] at he
  rcases he with hunread | hfails
  · cases hread.symm.trans hunread
  · cases hfails

end SqlStyle.Project
