import SqlStyle.Path
import Mathlib

/-!
# Paths told from a directory, and back

Behind its first `/`, an absolute path is a list of pieces between separators, and the pieces that
count are its steps.  Telling a path from a directory takes the directory's steps away from its
front, and joining puts them back.  Pieces that do not count may be lost on the way, so what comes
back is a path with the same components, not the same text.  A path that does not begin with the
directory's steps is told as it is, and joining leaves it alone.
-/

namespace SqlStyle.Path

variable {cs ds p : List Char} {ps qs : List (List Char)}

/-! ## Pieces -/

theorem pieces_eq_splitOn (cs : List Char) : pieces cs = cs.splitOn '/' := by
  induction cs with
  | nil => rfl
  | cons c cs ih =>
      rw [pieces, List.splitOn_cons_eq_if_modifyHead, ih]
      by_cases hc : c = '/'
      · simp [hc]
      · cases hs : cs.splitOn '/' with
        | nil => exact absurd hs (List.splitOn_ne_nil _ _)
        | cons p ps => simp [hc]

theorem pieces_ne_nil (cs : List Char) : pieces cs ≠ [] := by
  rw [pieces_eq_splitOn]
  exact List.splitOn_ne_nil _ _

/-- A separator divides the pieces before it from those behind it. -/
theorem pieces_append (cs ds : List Char) : pieces (cs ++ '/' :: ds) = pieces cs ++ pieces ds := by
  rw [pieces_eq_splitOn, pieces_eq_splitOn, pieces_eq_splitOn, List.splitOn_append_cons_self]

theorem joinPieces_pieces (cs : List Char) : joinPieces (pieces cs) = cs := by
  rw [joinPieces, pieces_eq_splitOn, List.intercalate_splitOn]

theorem pieces_joinPieces (h : ∀ p ∈ ps, '/' ∉ p) (hne : ps ≠ []) :
    pieces (joinPieces ps) = ps := by
  rw [joinPieces, pieces_eq_splitOn, List.splitOn_intercalate '/' h hne]

theorem pieces_of_notMem (h : '/' ∉ p) : pieces p = [p] := by
  rw [pieces_eq_splitOn, List.splitOn_eq_singleton h]

theorem notMem_of_mem_pieces (h : p ∈ pieces cs) : '/' ∉ p := by
  induction cs generalizing p with
  | nil => simp_all [pieces]
  | cons c cs ih =>
      rw [pieces] at h
      split at h
      · rcases List.mem_cons.mp h with rfl | h
        · exact List.not_mem_nil
        · exact ih h
      · next hc =>
          split at h
          · next q qs hq =>
              rw [hq] at ih
              rcases List.mem_cons.mp h with rfl | h
              · exact List.not_mem_cons_of_ne_of_not_mem (Ne.symm hc) (ih List.mem_cons_self)
              · exact ih (List.mem_cons_of_mem q h)
          · next hnil => exact absurd hnil (pieces_ne_nil cs)

@[simp] theorem joinPieces_singleton (p : List Char) : joinPieces [p] = p :=
  List.intercalate_singleton

theorem joinPieces_cons (p : List Char) (h : ps ≠ []) :
    joinPieces (p :: ps) = p ++ '/' :: joinPieces ps := by
  rw [joinPieces, List.intercalate_cons_of_ne_nil h, List.append_assoc, List.singleton_append]
  rfl

theorem joinPieces_append (hps : ps ≠ []) (hqs : qs ≠ []) :
    joinPieces (ps ++ qs) = joinPieces ps ++ '/' :: joinPieces qs := by
  induction ps with
  | nil => exact absurd rfl hps
  | cons p ps ih =>
      cases ps with
      | nil => rw [List.singleton_append, joinPieces_cons p hqs, joinPieces_singleton]
      | cons p' ps =>
          have hne : p' :: ps ≠ [] := List.cons_ne_nil p' ps
          rw [List.cons_append, joinPieces_cons p (by simp), ih hne, joinPieces_cons p hne,
            List.append_assoc, List.cons_append]

/-! ## Steps -/

/-- The components that a text stands for behind the beginning of a path. -/
def steps (cs : List Char) : List Component := (pieces cs).filterMap component?

theorem steps_joinPieces (h : ∀ p ∈ ps, '/' ∉ p) :
    steps (joinPieces ps) = ps.filterMap component? := by
  cases ps with
  | nil => rfl
  | cons p ps => rw [steps, pieces_joinPieces h (List.cons_ne_nil p ps)]

/-- The absolute path that goes on with the given characters. -/
def absolute (cs : List Char) : String := .ofList ('/' :: cs)

@[simp] theorem toList_absolute (cs : List Char) : (absolute cs).toList = '/' :: cs :=
  String.toList_ofList

@[simp] theorem isAbsolute_absolute (cs : List Char) : isAbsolute (absolute cs) = true := by
  simp [isAbsolute]

theorem exists_eq_absolute {path : String} (h : isAbsolute path = true) :
    ∃ cs, path = absolute cs := by
  rw [isAbsolute, beq_iff_eq, List.head?_eq_some_iff] at h
  obtain ⟨cs, hcs⟩ := h
  refine ⟨cs, ?_⟩
  rw [← String.toList_inj, hcs, toList_absolute]

@[simp] theorem ofChars_absolute (cs : List Char) :
    Anatomy.ofChars (absolute cs).toList = ⟨some .root, pieces cs⟩ := by
  rw [toList_absolute]
  rfl

theorem components_absolute (cs : List Char) : components (absolute cs) = .root :: steps cs := by
  rw [components, ofChars_absolute]
  rfl

/-! ## Pieces that do not count -/

theorem filterMap_trimPieces (ps : List (List Char)) :
    (trimPieces ps).filterMap component? = ps.filterMap component? := by
  induction ps with
  | nil => rfl
  | cons p ps ih =>
      cases hp : component? p with
      | none => rw [trimPieces, List.dropWhile_cons_of_pos (by simp [hp]),
          List.filterMap_cons_none hp, ← ih, trimPieces]
      | some c => rw [trimPieces, List.dropWhile_cons_of_neg (by simp [hp])]

theorem filterMap_trimPiecesEnd (ps : List (List Char)) :
    (trimPiecesEnd ps).filterMap component? = ps.filterMap component? := by
  rw [trimPiecesEnd, List.filterMap_reverse, filterMap_trimPieces, List.filterMap_reverse,
    List.reverse_reverse]

theorem trimPieces_isSuffix (ps : List (List Char)) : trimPieces ps <:+ ps :=
  List.dropWhile_suffix _

theorem trimPiecesEnd_isPrefix (ps : List (List Char)) : trimPiecesEnd ps <+: ps :=
  List.rdropWhile_prefix _ _

theorem trimPieces_append_of_none (h : ∀ p ∈ ps, component? p = none) :
    trimPieces (ps ++ qs) = trimPieces qs :=
  List.dropWhile_append_of_pos fun p hp => by simp [h p hp]

/-- Nothing is dropped in front of a piece that counts. -/
theorem trimPieces_cons_of_some (h : component? p ≠ none) (ps : List (List Char)) :
    trimPieces (p :: ps) = p :: ps :=
  List.dropWhile_cons_of_neg (by simpa using h)

theorem trimPiecesEnd_concat_of_some (h : component? p ≠ none) (ps : List (List Char)) :
    trimPiecesEnd (ps ++ [p]) = ps ++ [p] := by
  rw [trimPiecesEnd, List.reverse_append, List.reverse_singleton, List.singleton_append,
    trimPieces_cons_of_some h, List.reverse_cons, List.reverse_reverse]

/-- A last piece that is not dropped counts. -/
theorem component?_of_trimPiecesEnd_concat (h : trimPiecesEnd (ps ++ [p]) = ps ++ [p]) :
    component? p ≠ none := by
  intro hnone
  have hdrop : trimPiecesEnd (ps ++ [p]) = trimPiecesEnd ps := by
    rw [trimPiecesEnd, List.reverse_append, List.reverse_singleton,
      trimPieces_append_of_none (by simpa using hnone), trimPiecesEnd]
  have hle : (trimPiecesEnd ps).length ≤ ps.length := (trimPiecesEnd_isPrefix ps).length_le
  rw [← hdrop, h, List.length_append, List.length_singleton] at hle
  omega

theorem trimPieces_eq_self (h : ∀ p ∈ ps, component? p ≠ none) : trimPieces ps = ps := by
  cases ps with
  | nil => rfl
  | cons p ps => exact trimPieces_cons_of_some (h p List.mem_cons_self) ps

theorem trimPiecesEnd_eq_self (h : ∀ p ∈ ps, component? p ≠ none) : trimPiecesEnd ps = ps := by
  rw [trimPiecesEnd, trimPieces_eq_self fun p hp => h p (List.mem_reverse.mp hp),
    List.reverse_reverse]

theorem component?_of_mem_head?_trimPieces (h : p ∈ (trimPieces ps).head?) :
    component? p ≠ none := by
  have hhead := List.head?_dropWhile_not (fun p => (component? p).isNone) ps
  rw [trimPieces] at h
  rw [h] at hhead
  rw [← Option.isSome_iff_ne_none]
  simpa using hhead

/-! ## Joining -/

/-- Below an absolute path, all paths are absolute. -/
theorem isAbsolute_join {base : String} (h : isAbsolute base = true) (path : String) :
    isAbsolute (join base path) = true := by
  obtain ⟨cs, rfl⟩ := exists_eq_absolute h
  rw [join]
  split
  · next hpath => simpa [absolute] using hpath
  · split <;> simp [isAbsolute]

/-- What `join` puts behind the absolute path of some characters. -/
def separator (cs : List Char) : List Char :=
  if ('/' :: cs).getLast? = some '/' then [] else ['/']

theorem join_absolute (h : ds.head? ≠ some '/') :
    join (absolute cs) (.ofList ds) = absolute (cs ++ separator cs ++ ds) := by
  have hds : isAbsolute (.ofList ds) = false := by
    simpa [isAbsolute] using h
  have hne : (absolute cs).isEmpty = false := by
    simp [absolute]
  rw [← String.toList_inj, toList_absolute, join, hds, hne, Bool.or_self, if_neg Bool.false_ne_true,
    toList_absolute, separator]
  split
  · next hlast => simp [eq_of_beq hlast]
  · next hlast =>
      have hne' : ('/' :: cs).getLast? ≠ some '/' := by simpa using hlast
      simp [hne']

/-- The pieces behind a joined path's last part are those of the part; the others have the steps
of the directory. -/
theorem exists_pieces_join (cs ds : List Char) :
    ∃ ps, pieces (cs ++ separator cs ++ ds) = ps ++ pieces ds ∧
      ps.filterMap component? = steps cs := by
  rw [separator]
  split
  · next hlast =>
      rcases List.eq_nil_or_concat' cs with rfl | ⟨front, c, rfl⟩
      · exact ⟨[], rfl, rfl⟩
      · rw [← List.cons_append, List.getLast?_concat, Option.some.injEq] at hlast
        subst hlast
        refine ⟨pieces front, ?_, ?_⟩
        · simp [pieces_append]
        · rw [steps, pieces_append, List.filterMap_append]
          exact (List.append_nil _).symm
  · refine ⟨pieces cs, ?_, rfl⟩
    rw [List.append_assoc, List.singleton_append, pieces_append]

theorem steps_join (cs ds : List Char) :
    steps (cs ++ separator cs ++ ds) = steps cs ++ steps ds := by
  obtain ⟨ps, hpieces, hsteps⟩ := exists_pieces_join cs ds
  rw [steps, hpieces, List.filterMap_append, hsteps]
  rfl

/-! ## Telling a path from a directory -/

/-- What is left behind some steps has the other steps. -/
theorem filterMap_of_behind? {as : List Component} (h : behind? as ps = some qs) :
    qs <:+ ps ∧ ps.filterMap component? = as ++ qs.filterMap component? := by
  fun_induction behind? as ps with
  | case1 ps =>
      cases h
      exact ⟨List.suffix_refl _, rfl⟩
  | case2 => cases h
  | case3 c cs p ps hp ih =>
      obtain ⟨hsuffix, hsteps⟩ := ih h
      exact ⟨hsuffix.trans (List.suffix_cons p ps), by rw [List.filterMap_cons_none hp, hsteps]⟩
  | case4 cs p ps d hp ih =>
      obtain ⟨hsuffix, hsteps⟩ := ih h
      refine ⟨hsuffix.trans (List.suffix_cons p ps), ?_⟩
      rw [List.filterMap_cons_some hp, hsteps, List.cons_append]
  | case5 => cases h

/-- Behind the steps of some pieces, what follows these pieces is left, and maybe a few of them
that do not count. -/
theorem exists_behind?_append (ps qs : List (List Char)) :
    ∃ skipped, behind? (ps.filterMap component?) (ps ++ qs) = some (skipped ++ qs) ∧
      ∀ p ∈ skipped, component? p = none := by
  induction ps with
  | nil => exact ⟨[], by rw [List.filterMap_nil, behind?], nofun⟩
  | cons p ps ih =>
      obtain ⟨skipped, hbehind, hskipped⟩ := ih
      cases hp : component? p with
      | none =>
          rw [List.filterMap_cons_none hp]
          cases hsteps : ps.filterMap component? with
          | nil =>
              refine ⟨p :: ps, by rw [behind?], ?_⟩
              exact List.forall_mem_cons.mpr ⟨hp, List.filterMap_eq_nil_iff.mp hsteps⟩
          | cons c cs =>
              refine ⟨skipped, ?_, hskipped⟩
              rw [List.cons_append, behind?, hp, ← hsteps]
              exact hbehind
      | some c =>
          refine ⟨skipped, ?_, hskipped⟩
          rw [List.filterMap_cons_some hp, List.cons_append, behind?, hp]
          simpa using hbehind

theorem stripBase?_absolute (cs ds : List Char) :
    stripBase? (absolute ds) (absolute cs) =
      (behind? (steps cs) (pieces ds)).map fun ps =>
        .ofList (joinPieces (trimPiecesEnd (trimPieces ps))) := by
  rw [stripBase?, components_absolute, ofChars_absolute]
  rfl

/-- A text whose first piece counts does not begin with a separator. -/
theorem head?_joinPieces_cons (hp : component? p ≠ none) (hslash : '/' ∉ p)
    (ps : List (List Char)) : (joinPieces (p :: ps)).head? ≠ some '/' := by
  cases p with
  | nil => exact absurd rfl hp
  | cons c p =>
      have hc : c ≠ '/' := fun heq => hslash (heq ▸ List.mem_cons_self)
      cases ps with
      | nil => simpa using hc
      | cons q ps => simpa [joinPieces_cons] using hc

theorem head?_joinPieces_trim (h : ∀ p ∈ ps, '/' ∉ p) :
    (joinPieces (trimPiecesEnd (trimPieces ps))).head? ≠ some '/' := by
  have hprefix := trimPiecesEnd_isPrefix (trimPieces ps)
  cases htrim : trimPiecesEnd (trimPieces ps) with
  | nil => simp [joinPieces]
  | cons p rest =>
      have hhead : p ∈ (trimPieces ps).head? := by
        rw [htrim] at hprefix
        obtain ⟨tail, htail⟩ := hprefix
        rw [← htail]
        rfl
      exact head?_joinPieces_cons (component?_of_mem_head?_trimPieces hhead)
        (h p ((trimPieces_isSuffix ps).subset (List.mem_of_mem_head? hhead))) rest

/-- A path told from a directory and joined to it again has the components that it had. -/
theorem components_join_relativeTo {base path : String} (hbase : isAbsolute base = true)
    (hpath : isAbsolute path = true) :
    components (join base (relativeTo path base)) = components path := by
  obtain ⟨cs, rfl⟩ := exists_eq_absolute hbase
  obtain ⟨ds, rfl⟩ := exists_eq_absolute hpath
  rw [relativeTo, stripBase?_absolute]
  cases hbehind : behind? (steps cs) (pieces ds) with
  | none =>
      -- outside the directory, the whole path is told
      simp [join]
  | some ps =>
      obtain ⟨hsuffix, hsteps⟩ := filterMap_of_behind? hbehind
      have hslash : ∀ p ∈ ps, '/' ∉ p := fun p hp => notMem_of_mem_pieces (hsuffix.subset hp)
      have htrim : ∀ p ∈ trimPiecesEnd (trimPieces ps), '/' ∉ p := fun p hp =>
        hslash p ((trimPieces_isSuffix ps).subset ((trimPiecesEnd_isPrefix _).subset hp))
      rw [Option.map_some, Option.getD_some, join_absolute (head?_joinPieces_trim hslash),
        components_absolute, components_absolute, steps_join, steps_joinPieces htrim,
        filterMap_trimPiecesEnd, filterMap_trimPieces, ← hsteps]
      rfl

/-! ## Files of a directory

Where the pieces behind a directory all count, they come back as they were. -/

theorem relativeTo_of_pieces (hpieces : pieces ds = ps ++ qs)
    (hsteps : ps.filterMap component? = steps cs) (hqs : ∀ p ∈ qs, component? p ≠ none) :
    relativeTo (absolute ds) (absolute cs) = .ofList (joinPieces qs) := by
  obtain ⟨skipped, hbehind, hskipped⟩ := exists_behind?_append ps qs
  rw [relativeTo, stripBase?_absolute, hpieces, ← hsteps, hbehind, Option.map_some,
    Option.getD_some, trimPieces_append_of_none hskipped, trimPieces_eq_self hqs,
    trimPiecesEnd_eq_self hqs]

/-- A name that a file can have in a path: it counts there, and it is one piece. -/
def IsName (name : String) : Prop := component? name.toList ≠ none ∧ '/' ∉ name.toList

instance (name : String) : Decidable (IsName name) := inferInstanceAs (Decidable (_ ∧ _))

theorem separator_append (hp : component? p ≠ none) (hslash : '/' ∉ p) (cs : List Char) :
    separator (cs ++ p) = ['/'] := by
  rcases List.eq_nil_or_concat' p with rfl | ⟨front, c, rfl⟩
  · exact absurd rfl hp
  · have hc : c ≠ '/' := fun heq => hslash (by simp [heq])
    refine if_neg ?_
    rw [← List.append_assoc, ← List.cons_append, List.getLast?_concat]
    simpa using hc

/-- Going down name by name is joining the names. -/
theorem foldl_join_absolute (cs : List Char) {names : List String} (hne : names ≠ [])
    (h : ∀ name ∈ names, IsName name) :
    names.foldl join (absolute cs) =
      absolute (cs ++ separator cs ++ joinPieces (names.map String.toList)) := by
  induction names generalizing cs with
  | nil => exact absurd rfl hne
  | cons name rest ih =>
      obtain ⟨⟨hcounts, hslash⟩, hrest⟩ := List.forall_mem_cons.mp h
      have hfirst : join (absolute cs) name = absolute (cs ++ separator cs ++ name.toList) := by
        rw [← join_absolute fun hhead => hslash (List.mem_of_mem_head? hhead),
          String.ofList_toList]
      rw [List.foldl_cons, hfirst]
      cases rest with
      | nil => simp
      | cons other rest =>
          rw [ih _ (List.cons_ne_nil other rest) hrest, separator_append hcounts hslash,
            List.map_cons (a := name), joinPieces_cons _ (by simp)]
          simp

/-- The path of a file below a directory comes back letter by letter. -/
theorem join_relativeTo_foldl_join {root : String} (hroot : isAbsolute root = true)
    {names : List String} (hne : names ≠ []) (h : ∀ name ∈ names, IsName name) :
    join root (relativeTo (names.foldl join root) root) = names.foldl join root := by
  obtain ⟨cs, rfl⟩ := exists_eq_absolute hroot
  have hcounts : ∀ p ∈ names.map String.toList, component? p ≠ none := by
    intro p hp
    obtain ⟨name, hname, rfl⟩ := List.mem_map.mp hp
    exact (h name hname).1
  have hslash : ∀ p ∈ names.map String.toList, '/' ∉ p := by
    intro p hp
    obtain ⟨name, hname, rfl⟩ := List.mem_map.mp hp
    exact (h name hname).2
  have hne' : names.map String.toList ≠ [] := by simpa using hne
  rw [foldl_join_absolute cs hne h]
  generalize names.map String.toList = texts at hcounts hslash hne'
  obtain ⟨ps, hpieces, hsteps⟩ := exists_pieces_join cs (joinPieces texts)
  rw [pieces_joinPieces hslash hne'] at hpieces
  rw [relativeTo_of_pieces hpieces hsteps hcounts]
  cases texts with
  | nil => exact absurd rfl hne'
  | cons p rest =>
      exact join_absolute (head?_joinPieces_cons (hcounts p List.mem_cons_self)
        (hslash p List.mem_cons_self) rest)

/-! ## The directory of a file -/

/-- The parent of an absolute path is absolute. -/
theorem isAbsolute_of_parent? {path dir : String} (hpath : isAbsolute path = true)
    (h : parent? path = some dir) : isAbsolute dir = true := by
  obtain ⟨cs, rfl⟩ := exists_eq_absolute hpath
  rw [parent?, ofChars_absolute] at h
  cases htrim : trimPiecesEnd (pieces cs) with
  | nil => simp [htrim] at h
  | cons p ps =>
      simp only [htrim, Option.some.injEq] at h
      rw [← h]
      exact isAbsolute_absolute _

/-- A path whose last piece counts has that piece behind its parent. -/
theorem exists_parent?_absolute (h : trimPiecesEnd (pieces cs) = pieces cs) :
    ∃ front last, pieces cs = front ++ [last] ∧ component? last ≠ none ∧
      parent? (absolute cs) = some (absolute (joinPieces (trimPiecesEnd front))) := by
  rcases List.eq_nil_or_concat' (pieces cs) with hnil | ⟨front, last, hpieces⟩
  · exact absurd hnil (pieces_ne_nil cs)
  · refine ⟨front, last, hpieces, ?_, ?_⟩
    · rw [hpieces] at h
      exact component?_of_trimPiecesEnd_concat h
    · rw [parent?, ofChars_absolute]
      cases hcons : pieces cs with
      | nil => exact absurd hcons (pieces_ne_nil cs)
      | cons p ps =>
          rw [hcons] at h hpieces
          simp only [h]
          rw [hpieces, List.dropLast_concat]
          rfl

theorem joinPieces_isPrefix (h : ps <+: qs) : joinPieces ps <+: joinPieces qs := by
  obtain ⟨rest, rfl⟩ := h
  by_cases hps : ps = []
  · rw [hps]
    exact List.nil_prefix
  · by_cases hrest : rest = []
    · rw [hrest, List.append_nil]
    · rw [joinPieces_append hps hrest]
      exact List.prefix_append _ _

/-- A file told from its own directory and joined to it again is a path without pieces that do not
count behind it, and with no characters that the file's path does not have. -/
theorem exists_join_relativeTo_parent (h : trimPiecesEnd (pieces cs) = pieces cs) {dir : String}
    (hdir : parent? (absolute cs) = some dir) :
    ∃ ds, join dir (relativeTo (absolute cs) dir) = absolute ds ∧ ds.Sublist cs ∧
      trimPiecesEnd (pieces ds) = pieces ds := by
  obtain ⟨front, last, hpieces, hlast, hparent⟩ := exists_parent?_absolute h
  cases hdir.symm.trans hparent
  have hslash : ∀ p ∈ pieces cs, '/' ∉ p := fun _ => notMem_of_mem_pieces
  rw [hpieces] at hslash
  have hfront : ∀ p ∈ trimPiecesEnd front, '/' ∉ p := fun p hp =>
    hslash p (List.mem_append_left _ ((trimPiecesEnd_isPrefix front).subset hp))
  have hlast' : '/' ∉ last := hslash last (by simp)
  have hsteps : front.filterMap component? = steps (joinPieces (trimPiecesEnd front)) := by
    rw [steps_joinPieces hfront, filterMap_trimPiecesEnd]
  rw [relativeTo_of_pieces hpieces hsteps (by simpa using hlast), joinPieces_singleton,
    join_absolute fun hhead => hlast' (List.mem_of_mem_head? hhead)]
  refine ⟨_, rfl, ?_, ?_⟩
  · -- only pieces that do not count are lost, and at most one separator stands for them
    have hseparator : (separator (joinPieces (trimPiecesEnd front))).Sublist ['/'] := by
      rw [separator]
      split
      · exact List.nil_sublist _
      · exact List.Sublist.refl _
    rw [← joinPieces_pieces cs, hpieces]
    by_cases hnil : front = []
    · rw [hnil, List.nil_append, joinPieces_singleton]
      exact List.Sublist.refl last
    · rw [joinPieces_append hnil (List.cons_ne_nil last []), joinPieces_singleton,
        ← List.singleton_append, ← List.append_assoc]
      exact (((joinPieces_isPrefix (trimPiecesEnd_isPrefix front)).sublist.append hseparator).append
        (List.Sublist.refl _))
  · obtain ⟨ps, hjoined, -⟩ := exists_pieces_join (joinPieces (trimPiecesEnd front)) last
    rw [hjoined, pieces_of_notMem hlast', trimPiecesEnd_concat_of_some hlast]

end SqlStyle.Path
