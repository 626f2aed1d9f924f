import SqlStyle.Cli.Run
import SqlStyle.Proofs.Path.Relative
import SqlStyle.Proofs.Project.Run

/-!
# The source of a diagnostic is the file that was linted

A report tells a file by its path from the base directory: the root of the project, or the
directory of the root if that is a file.  To show a diagnostic in its source, the path is joined to
the base directory again and the file there is read a second time.  The joined path has the
components of the path that was linted.  For the files of a run this is enough to find the same
text: a file below a directory gets its path back letter by letter, and a root that is a file gets
one that is no longer and ends in the file's name.
-/

namespace SqlStyle

open SqlStyle.Path (absolute components isAbsolute join pieces relativeTo trimPiecesEnd)

namespace FileTree

variable {t : FileTree} {names : List String} {n : FileNode}

/-- The names in a tree are names that files can have in paths. -/
def WellNamed (t : FileTree) : Prop := ∀ node ∈ t.nodes, ∀ name ∈ node.1, Path.IsName name

instance (t : FileTree) : Decidable t.WellNamed :=
  inferInstanceAs (Decidable (∀ node ∈ t.nodes, ∀ name ∈ node.1, Path.IsName name))

/-! ## What a path leads to -/

theorem endsOpen_absolute (cs : List Char) :
    endsOpen (absolute cs) = false ↔ trimPiecesEnd (pieces cs) = pieces cs := by
  rw [endsOpen, Path.ofChars_absolute]
  simp

/-- An absolute path leads to what its components lead to, if it is not too long, holds no NUL and,
for a file, has nothing behind its last component. -/
theorem find_absolute_eq_ok_iff {cs : List Char} :
    t.find (absolute cs) = .ok (names, n) ↔
      '\x00' ∉ cs ∧ (absolute cs).utf8ByteSize ≤ maxPath ∧
        t.follow [] (components (absolute cs)) = .ok names ∧ t.node? names = some n ∧
        (n = .directory ∨ trimPiecesEnd (pieces cs) = pieces cs) := by
  have hjoin : join t.workingDir (absolute cs) = absolute cs := by simp [join]
  have hnul : (absolute cs).toList.contains '\x00' = true ↔ '\x00' ∈ cs := by simp
  have hempty : (absolute cs).isEmpty = false := by simp [absolute]
  rw [find, hjoin, hempty, ← endsOpen_absolute]
  by_cases hnulcs : '\x00' ∈ cs
  · simp [hnulcs]
  by_cases hsize : maxPath < (absolute cs).utf8ByteSize
  · simp [hnulcs, hsize]
  simp only [hnul, hnulcs, hsize, if_false, Bool.false_eq_true, not_false_eq_true,
    Nat.le_of_not_lt hsize, true_and]
  cases t.follow [] (components (absolute cs)) with
  | error e => simp
  | ok place =>
      simp only [Except.ok.injEq]
      cases hnode : t.node? place with
      | none => grind
      | some m => cases m <;> grind

theorem read_eq_ok_iff {path text : String} :
    t.read path = .ok text ↔ ∃ names, t.find path = .ok (names, .file text) := by
  rw [read]
  cases t.find path with
  | error e => simp
  | ok found =>
      obtain ⟨names, n⟩ := found
      cases n <;> simp

/-- A path with the same components and fewer characters leads to the same file, if nothing stands
behind its last component. -/
theorem read_of_sublist {cs ds : List Char} {text : String}
    (hread : t.read (absolute cs) = .ok text) (hsub : ds.Sublist cs)
    (hcomponents : components (absolute ds) = components (absolute cs))
    (hend : trimPiecesEnd (pieces ds) = pieces ds) : t.read (absolute ds) = .ok text := by
  obtain ⟨names, hfind⟩ := read_eq_ok_iff.mp hread
  obtain ⟨hnul, hsize, hfollow, hnode, -⟩ := find_absolute_eq_ok_iff.mp hfind
  refine read_eq_ok_iff.mpr ⟨names, find_absolute_eq_ok_iff.mpr ⟨?_, ?_, ?_, hnode, .inr hend⟩⟩
  · exact fun hmem => hnul (hsub.subset hmem)
  · have hle := String.utf8Len_le_of_sublist (hsub.cons_cons '/')
    rw [← Path.toList_absolute, ← Path.toList_absolute, String.utf8Len_toList,
      String.utf8Len_toList] at hle
    exact hle.trans hsize
  · rw [hcomponents, hfollow]

/-! ## Files below a directory -/

theorem isName_of_mem_filesBelow (h : t.WellNamed) {below : List String}
    (hbelow : below ∈ t.filesBelow names) : ∀ name ∈ below, Path.IsName name := by
  rw [filesBelow, List.mem_eraseDups, List.mem_filterMap] at hbelow
  obtain ⟨⟨place, n⟩, hnode, hplace⟩ := hbelow
  obtain ⟨-, hdrop⟩ := Option.ite_none_right_eq_some.mp hplace
  cases hdrop
  exact fun name hname => h _ hnode name (List.mem_of_mem_drop hname)

end FileTree

theorem Ignore.mem_filesBelow_of_walk {t : FileTree} {respect : Bool} {root : List String}
    {files : List (List String)} (h : walk t respect root = .ok files) {below : List String}
    (hbelow : below ∈ files) : below ∈ t.filesBelow root := by
  simp only [walk] at h
  split at h
  · split at h
    · cases h
      exact List.mem_of_mem_filter hbelow
    · cases h
  · cases h
    exact hbelow

namespace Project

variable {p : Project} {t : FileTree} {path text : String}

/-- A project finds its root, if that is a file, and else files below its root. -/
theorem mem_discover {paths : List String} (h : p.discover t = .ok paths) (hpath : path ∈ paths) :
    (t.isFile p.root = true ∧ path = p.root) ∨
      ∃ place, t.find p.root = .ok (place, .directory) ∧
        ∃ below ∈ t.filesBelow place, path = below.foldl join p.root := by
  rw [discover] at h
  split at h
  · cases h
  · next place hfind =>
      split at h
      · cases h
      · next files hwalk =>
          cases h
          rw [List.mem_mergeSort, List.mem_filter] at hpath
          obtain ⟨below, hbelow, rfl⟩ := List.mem_map.mp hpath.1
          exact .inr ⟨place, hfind, below, Ignore.mem_filesBelow_of_walk hwalk hbelow, rfl⟩
  · next place n hnot hfind =>
      cases h
      refine .inl ⟨?_, List.mem_singleton.mp hpath⟩
      rw [FileTree.isFile, hfind]
      cases n with
      | directory => exact absurd rfl hnot
      | file text => rfl
      | binary bytes => rfl

theorem isAbsolute_baseDir (hroot : isAbsolute p.root = true) :
    isAbsolute (p.baseDir t) = true := by
  rw [baseDir]
  split
  · cases hparent : Path.parent? p.root with
    | none => exact hroot
    | some dir => exact Path.isAbsolute_of_parent? hroot hparent
  · exact hroot

/-- A root that is a file is read again from its own directory. -/
theorem read_again_of_isFile (hroot : isAbsolute p.root = true) (hfile : t.isFile p.root = true)
    (hread : t.read p.root = .ok text) :
    t.read (join (p.baseDir t) (p.relativePath t p.root)) = .ok text := by
  have hcomponents := Path.components_join_relativeTo (isAbsolute_baseDir (t := t) hroot) hroot
  obtain ⟨names, hfind⟩ := FileTree.read_eq_ok_iff.mp hread
  obtain ⟨cs, hcs⟩ := Path.exists_eq_absolute hroot
  rw [hcs] at hfind hread
  obtain ⟨-, -, -, -, hdir | hend⟩ := FileTree.find_absolute_eq_ok_iff.mp hfind
  · cases hdir
  · obtain ⟨front, last, -, -, hparent⟩ := Path.exists_parent?_absolute hend
    have hbase : p.baseDir t = absolute (Path.joinPieces (trimPiecesEnd front)) := by
      rw [baseDir, if_pos hfile, hcs, hparent, Option.getD_some]
    obtain ⟨ds, hds, hsub, hend'⟩ := Path.exists_join_relativeTo_parent hend hparent
    rw [hbase, hcs, hds] at hcomponents
    rw [relativePath, hbase, hcs, hds]
    exact FileTree.read_of_sublist hread hsub hcomponents hend'

/-- A file that a project finds is read again where its report says. -/
theorem read_again (hroot : isAbsolute p.root = true) (hnames : t.WellNamed)
    {paths : List String} (hdiscover : p.discover t = .ok paths) (hpath : path ∈ paths)
    (hread : t.read path = .ok text) :
    t.read (join (p.baseDir t) (p.relativePath t path)) = .ok text := by
  rcases mem_discover hdiscover hpath with ⟨hfile, rfl⟩ | ⟨place, hfind, below, hbelow, rfl⟩
  · exact read_again_of_isFile hroot hfile hread
  · have hbase : p.baseDir t = p.root := by
      rw [baseDir, FileTree.isFile, hfind]
      rfl
    by_cases hnil : below = []
    · -- the root is a directory, and has no text
      rw [hnil, List.foldl_nil, FileTree.read, hfind] at hread
      cases hread
    · have hbelow := FileTree.isName_of_mem_filesBelow hnames hbelow
      rw [relativePath, hbase, Path.join_relativeTo_foldl_join hroot hnil hbelow, hread]

end Project

namespace Cli

/-- The root of a project is absolute if the working directory is. -/
theorem isAbsolute_root_of_project {w : World} {request : CheckRequest} {c : Config} {p : Project}
    (hdir : isAbsolute w.tree.workingDir = true) (h : project w request c = .ok p) :
    isAbsolute p.root = true := by
  obtain ⟨rules, -, hmake⟩ := bind_eq_ok_iff.mp h
  obtain ⟨excludes, -, hmake⟩ := bind_eq_ok_iff.mp (mapError_eq_ok_iff.mp hmake)
  obtain ⟨includes, -, hmake⟩ := bind_eq_ok_iff.mp hmake
  cases hmake
  exact Path.isAbsolute_join hdir request.path

/-- A path told from the base directory of a project and joined to it again has the components
that it had, for every absolute root, a file or not, and every absolute path, below the base
directory or not; and this joined path is where the source of a report is read.  So the source of
each file in the result of a run is the text that was linted, provided that the names of the files
are names.  The projects of a check have absolute roots, if the working directory is absolute. -/
theorem reported_paths_lead_back :
    (∀ (w : World) (p : Project) (path : String), isAbsolute p.root = true →
      isAbsolute path = true →
      let full := join (p.baseDir w.tree) (p.relativePath w.tree path)
      components full = components path ∧
        ∀ report, sourceOf w p ⟨p.relativePath w.tree path, report⟩ =
          (w.tree.read full).mapError fun e => .source full e.message) ∧
    (∀ (w : World) (p : Project) (r : RunResult), isAbsolute p.root = true → w.tree.WellNamed →
      p.run w.tree w.pool = .ok r → ∀ f ∈ r.files, ∃ path text,
        (∃ paths, p.discover w.tree = .ok paths ∧ path ∈ paths) ∧
        f.path = p.relativePath w.tree path ∧ w.tree.read path = .ok text ∧
        p.lintText w.tree path text = .ok f.report ∧ sourceOf w p f = .ok text) ∧
    (∀ (w : World) (request : CheckRequest) (c : Config) (p : Project),
      isAbsolute w.tree.workingDir = true → project w request c = .ok p →
        isAbsolute p.root = true) := by
  refine ⟨?_, ?_, fun w request c p hdir h => isAbsolute_root_of_project hdir h⟩
  · intro w p path hroot hpath full
    exact ⟨Path.components_join_relativeTo (Project.isAbsolute_baseDir hroot) hpath,
      fun report => rfl⟩
  · intro w p r hroot hnames hrun f hf
    obtain ⟨path, ts, hlints, rfl⟩ := (Project.mem_files_of_run hrun).mp hf
    obtain ⟨⟨paths, hpaths, hpath⟩, text, hread, htokens⟩ := hlints
    refine ⟨path, text, ⟨paths, hpaths, hpath⟩, rfl, hread, ?_, ?_⟩
    · rw [Project.lintText, map_eq_ok_iff]
      exact ⟨ts, htokens, rfl⟩
    · simp only [sourceOf, mapError_eq_ok_iff]
      exact Project.read_again hroot hnames hpaths hpath hread

/-- The root is a file under a path with pieces that do not count.  Another path of the file, one
outside its directory, and the file itself. -/
theorem source_found_behind_idle_pieces :
    let w : World := ⟨⟨[(["repo", "db", "a.sql"], .file "SELECT *")], "/repo"⟩, none, .upTo 8⟩
    let p : Project :=
      ⟨"/repo//db/./a.sql", [(BuiltIn.selectStar true).toRule], [], [], {}, false⟩
    (p.baseDir w.tree = "/repo//db" ∧ p.relativePath w.tree "/repo/./db//a.sql/" = "a.sql" ∧
        components (join "/repo//db" "a.sql") = components "/repo/./db//a.sql/") ∧
      (p.relativePath w.tree "/etc//b.sql" = "/etc//b.sql" ∧
        components (join "/repo//db" "/etc//b.sql") = components "/etc//b.sql") ∧
      (w.tree.WellNamed ∧ ∃ r f, p.run w.tree w.pool = .ok r ∧ f ∈ r.files ∧ f.path = "a.sql" ∧
        ∃ path text, w.tree.read path = .ok text ∧ p.lintText w.tree path text = .ok f.report ∧
          sourceOf w p f = .ok text) ∧
      ∃ q, project w { path := "db" } {} = .ok q ∧ isAbsolute q.root = true := by
  intro w p
  obtain ⟨hpaths, hfiles, hprojects⟩ := reported_paths_lead_back
  have hroot : isAbsolute p.root = true := by decide +kernel
  have hbase : p.baseDir w.tree = "/repo//db" := by decide +kernel
  have hinside : p.relativePath w.tree "/repo/./db//a.sql/" = "a.sql" := by decide +kernel
  have houtside : p.relativePath w.tree "/etc//b.sql" = "/etc//b.sql" := by decide +kernel
  refine ⟨⟨hbase, hinside, ?_⟩, ⟨houtside, ?_⟩, ?_, ?_⟩
  · have h := (hpaths w p "/repo/./db//a.sql/" hroot (by decide +kernel)).1
    rwa [hbase, hinside] at h
  · have h := (hpaths w p "/etc//b.sql" hroot (by decide +kernel)).1
    rwa [hbase, houtside] at h
  · have hnames : w.tree.WellNamed := by decide +kernel
    have hrun : (p.run w.tree w.pool).toOption.map (·.files.map (·.path)) = some ["a.sql"] := by
      decide +kernel
    cases h : p.run w.tree w.pool with
    | error e =>
        rw [h] at hrun
        cases hrun
    | ok r =>
        rw [h] at hrun
        have hmem : "a.sql" ∈ r.files.map (·.path) := by simp [Option.some.inj hrun]
        obtain ⟨f, hf, hpath⟩ := List.mem_map.mp hmem
        obtain ⟨path, text, -, -, hread, hlint, hsource⟩ := hfiles w p r hroot hnames h f hf
        exact ⟨hnames, r, f, rfl, hf, hpath, path, text, hread, hlint, hsource⟩
  · cases h : project w { path := "db" } {} with
    | error e =>
        have hok : (project w { path := "db" } {}).isOk = true := by decide +kernel
        rw [h] at hok
        cases hok
    | ok q => exact ⟨q, rfl, hprojects w _ _ q (by decide +kernel) h⟩

end Cli

end SqlStyle
