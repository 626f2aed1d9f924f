import SqlStyle.Proofs.Rule.Anchor
import SqlStyle.Proofs.Rule.SelectStar.Nesting

/-!
# Dotted names and where they end

A dotted name goes on with points, and with names right behind a point.  The rule takes one name
after the other and goes on behind each of them.  Where it goes on, no dotted name is under way
that the next lexeme could carry on; this is what one step hands to the next.  So every name at
which the rule stops to look leads a dotted name of its own, and those it passes over belong to
one that has been looked at.  Loops over positions take the same way, and wherever they look there
is a token.
-/

namespace SqlStyle.LinkedServer

open SelectStar (At Before)

variable {ls rest : List Lexeme} {l : Lexeme} {i j n last : Nat}

/-- The lexeme at the position carries on a dotted name: a point, or a name right behind one. -/
def Link (ls : List Lexeme) (j : Nat) : Prop :=
  At ls j (·.isSymbol ".") ∨ Before ls 1 j (·.isSymbol ".") ∧ At ls j (·.isName)

/-- Right before the position there is a run of points, which may be empty, and before it a name. -/
def UnderWay (ls : List Lexeme) (i : Nat) : Prop :=
  ∃ j < i, At ls j (·.isName) ∧ ∀ k < i, j < k → At ls k (·.isSymbol ".")

/-- A name with no points right before it, or none that a name stands before. -/
def Leads (ls : List Lexeme) (i : Nat) : Prop :=
  At ls i (·.isName) ∧ ¬ (Before ls 1 i (·.isSymbol ".") ∧ UnderWay ls i)

/-- The last lexeme up to which all that follow the position carry on a dotted name. -/
def Reaches (ls : List Lexeme) (i last : Nat) : Prop :=
  IsGreatest {m | i ≤ m ∧ ∀ j, i < j → j ≤ m → Link ls j} last

/-- A dotted name from one position to another, with three points or more, that ends in a name. -/
structure FourPart (ls : List Lexeme) (i last : Nat) : Prop where
  leads : Leads ls i
  reaches : Reaches ls i last
  points : 3 ≤ ((ls.drop i).take (last + 1 - i)).countP (·.isSymbol ".")
  ends : At ls last (·.isName)

/-! ## Positions -/

theorem at_of_drop {p : Lexeme → Bool} (h : ls.drop i = l :: rest) :
    At ls i p ↔ p l = true := by
  rw [At, ← List.head?_drop, h]
  rfl

theorem not_at_of_drop {p : Lexeme → Bool} (h : ls.drop i = []) (hij : i ≤ j) : ¬ At ls j p := by
  have hlength : ls.length ≤ j := (List.drop_eq_nil_iff.mp h).trans hij
  rw [At, List.getElem?_eq_none hlength]
  exact Bool.false_ne_true

theorem before_succ {p : Lexeme → Bool} : Before ls 1 (i + 1) p ↔ At ls i p :=
  and_iff_right (Nat.le_add_left 1 i)

/-- A point is not a name. -/
theorem not_name_of_point (h : At ls i (·.isSymbol ".")) : ¬ At ls i (·.isName) := by
  rw [At, Option.any_eq_true] at h ⊢
  obtain ⟨l, hl, hpoint⟩ := h
  rintro ⟨l', hl', hname⟩
  cases hl.symm.trans hl'
  rw [Lexeme.isName_of_isSymbol hpoint] at hname
  cases hname

theorem drop_behind (h : ls.drop i = l :: rest) (n : Nat) :
    ls.drop (i + n + 1) = rest.drop n := by
  rw [Nat.add_assoc, ← List.drop_drop, h, List.drop_succ_cons]

/-! ## One dotted name -/

theorem links_succ_iff :
    (∀ j, i < j → j ≤ i + (n + 1) → Link ls j) ↔
      Link ls (i + 1) ∧ ∀ j, i + 1 < j → j ≤ i + 1 + n → Link ls j := by
  constructor
  · intro h
    exact ⟨h (i + 1) (Nat.lt_succ_self i) (by omega), fun j hij hj => h j (by omega) (by omega)⟩
  · rintro ⟨hnext, hrest⟩ j hij hj
    rcases Nat.eq_or_lt_of_le hij with rfl | hlt
    · exact hnext
    · exact hrest j hlt (by omega)

/-- The rule counts how far the lexemes behind a position carry on a dotted name. -/
theorem le_chain_iff (h : ls.drop i = l :: rest) :
    n ≤ chain l rest ↔ ∀ j, i < j → j ≤ i + n → Link ls j := by
  induction n generalizing i l rest with
  | zero => exact iff_of_true (Nat.zero_le _) fun j hij hj => absurd hij (Nat.not_lt.mpr hj)
  | succ n ih =>
      rw [links_succ_iff]
      cases rest with
      | nil =>
          have hend : ls.drop (i + 1) = [] := drop_behind h 0
          refine iff_of_false (Nat.not_succ_le_zero n) ?_
          rintro ⟨hpoint | ⟨-, hname⟩, -⟩
          · exact not_at_of_drop hend (Nat.le_refl _) hpoint
          · exact not_at_of_drop hend (Nat.le_refl _) hname
      | cons l' rest =>
          have hnext : ls.drop (i + 1) = l' :: rest := drop_behind h 0
          have hlink : Link ls (i + 1) ↔
              (l'.isSymbol "." || (l.isSymbol "." && l'.isName)) = true := by
            rw [Link, before_succ, at_of_drop hnext, at_of_drop hnext, at_of_drop h,
              Bool.or_eq_true, Bool.and_eq_true]
          rw [chain]
          split
          · next hl' => rw [Nat.add_le_add_iff_right, ih hnext, and_iff_right (hlink.mpr hl')]
          · next hl' =>
              exact iff_of_false (Nat.not_succ_le_zero n) fun hall => hl' (hlink.mp hall.1)

theorem reaches_iff (h : ls.drop i = l :: rest) :
    Reaches ls i last ↔ last = i + chain l rest := by
  have hset : {m | i ≤ m ∧ ∀ j, i < j → j ≤ m → Link ls j} = Set.Icc i (i + chain l rest) := by
    ext m
    refine and_congr_right fun him => ?_
    have hm := le_chain_iff (n := m - i) h
    rw [Nat.add_sub_cancel' him] at hm
    rw [← hm]
    omega
  rw [Reaches, hset]
  have hgreatest := isGreatest_Icc (Nat.le_add_right i (chain l rest))
  constructor
  · intro hlast
    exact hlast.unique hgreatest
  · rintro rfl
    exact hgreatest

/-- What the rule asks of the lexemes it has followed, by their positions. -/
theorem isFourPart_iff (h : ls.drop i = l :: rest) :
    isFourPart (l :: rest.take (chain l rest)) = true ↔
      3 ≤ ((ls.drop i).take (chain l rest + 1)).countP (·.isSymbol ".") ∧
        At ls (i + chain l rest) (·.isName) := by
  have htake : l :: rest.take (chain l rest) = (ls.drop i).take (chain l rest + 1) := by
    rw [h, List.take_succ_cons]
  have hlast : ((ls.drop i).take (chain l rest + 1)).getLast? = ls[i + chain l rest]? := by
    have hlength : chain l rest < (ls.drop i).length := by
      rw [h]
      exact Nat.lt_succ_of_le (chain_le l rest)
    rw [List.getLast?_take, if_neg (Nat.succ_ne_zero _), Nat.add_sub_cancel,
      List.getElem?_eq_getElem hlength, Option.some_or, ← List.getElem?_eq_getElem hlength,
      List.getElem?_drop]
  rw [isFourPart, htake, hlast, Bool.and_eq_true, decide_eq_true_eq, At]

/-- Right behind a name, a dotted name is under way. -/
theorem underWay_behind_name (h : At ls i (·.isName)) : UnderWay ls (i + 1) := by
  refine ⟨i, Nat.lt_succ_self i, h, fun k hk hik => ?_⟩
  exact absurd hik (Nat.not_lt.mpr (Nat.le_of_lt_succ hk))

/-- A step over a lexeme that carries on a dotted name keeps it under way. -/
theorem UnderWay.succ (h : UnderWay ls i) (hlink : Link ls i) : UnderWay ls (i + 1) := by
  rcases hlink with hpoint | ⟨-, hname⟩
  · obtain ⟨j, hj, hname, hpoints⟩ := h
    refine ⟨j, Nat.lt_succ_of_lt hj, hname, fun k hk hjk => ?_⟩
    rcases Nat.lt_succ_iff_lt_or_eq.mp hk with hlt | rfl
    · exact hpoints k hlt hjk
    · exact hpoint
  · exact underWay_behind_name hname

/-- Behind a name, a dotted name is under way as long as it is carried on. -/
theorem underWay_of_links (hname : At ls i (·.isName)) (hij : i < j)
    (hlinks : ∀ k, i < k → k < j → Link ls k) : UnderWay ls j := by
  induction j with
  | zero => exact absurd hij (Nat.not_lt_zero i)
  | succ j ih =>
      rcases Nat.lt_succ_iff_lt_or_eq.mp hij with hlt | rfl
      · have hunder := ih hlt fun k hik hkj => hlinks k hik (Nat.lt_succ_of_lt hkj)
        exact hunder.succ (hlinks j hlt (Nat.lt_succ_self j))
      · exact underWay_behind_name hname

/-- A lexeme that carries on a dotted name leads none. -/
theorem not_leads_of_link (h : UnderWay ls i) (hlink : Link ls i) : ¬ Leads ls i := by
  rintro ⟨hname, hnot⟩
  rcases hlink with hpoint | ⟨hpoint, -⟩
  · exact not_name_of_point hpoint hname
  · exact hnot ⟨hpoint, h⟩

/-! ## From one dotted name to the next -/

/-- The lexeme at the position carries on no dotted name that is under way. -/
def Between (ls : List Lexeme) (i : Nat) : Prop := UnderWay ls i → ¬ Link ls i

theorem between_zero (ls : List Lexeme) : Between ls 0 := by
  rintro ⟨j, hj, -⟩
  exact absurd hj (Nat.not_lt_zero j)

/-- A name between dotted names leads one. -/
theorem Between.leads (h : Between ls i) (hname : At ls i (·.isName)) : Leads ls i := by
  refine ⟨hname, ?_⟩
  rintro ⟨hpoint, hunder⟩
  exact h hunder (.inr ⟨hpoint, hname⟩)

/-- A lexeme other than a name starts nothing. -/
theorem Between.succ (h : Between ls i) (hname : ¬ At ls i (·.isName)) : Between ls (i + 1) := by
  rintro ⟨j, hj, hjname, hpoints⟩
  rcases Nat.lt_succ_iff_lt_or_eq.mp hj with hlt | rfl
  · have hunder : UnderWay ls i :=
      ⟨j, hlt, hjname, fun k hk hjk => hpoints k (Nat.lt_succ_of_lt hk) hjk⟩
    exact absurd (.inl (hpoints i (Nat.lt_succ_self i) hlt)) (h hunder)
  · exact absurd hjname hname

/-- A dotted name ends where it is not carried on. -/
theorem between_behind_chain (h : ls.drop i = l :: rest) : Between ls (i + chain l rest + 1) := by
  intro _ hlink
  have hle : chain l rest + 1 ≤ chain l rest := by
    rw [le_chain_iff h]
    intro j hij hj
    rcases Nat.eq_or_lt_of_le hj with rfl | hlt
    · exact hlink
    · exact (le_chain_iff h).mp (Nat.le_refl _) j hij (by omega)
  exact absurd hle (Nat.not_succ_le_self _)

/-- At a name between dotted names, the rule decides on what it has followed. -/
theorem fourPart_iff_of_between (h : ls.drop i = l :: rest) (hname : l.isName = true)
    (hbetween : Between ls i) :
    FourPart ls i last ↔
      isFourPart (l :: rest.take (chain l rest)) = true ∧ last = i + chain l rest := by
  have hlength : i + chain l rest + 1 - i = chain l rest + 1 := by omega
  rw [isFourPart_iff h]
  constructor
  · rintro ⟨-, hreaches, hpoints, hends⟩
    obtain rfl := (reaches_iff h).mp hreaches
    rw [hlength] at hpoints
    exact ⟨⟨hpoints, hends⟩, rfl⟩
  · rintro ⟨⟨hpoints, hends⟩, rfl⟩
    refine ⟨hbetween.leads ((at_of_drop h).mpr hname), (reaches_iff h).mpr rfl, ?_, hends⟩
    rwa [hlength]

/-- No dotted name is led by a lexeme that the rule has passed over with another. -/
theorem not_fourPart_of_mem_chain (h : ls.drop i = l :: rest) (hname : l.isName = true)
    (hij : i < j) (hj : j ≤ i + chain l rest) : ¬ FourPart ls j last := by
  have hlinks := (le_chain_iff h).mp (Nat.le_refl _)
  have hunder := underWay_of_links ((at_of_drop h).mpr hname) hij fun k hik hkj =>
    hlinks k hik (hkj.le.trans hj)
  intro hfour
  exact not_leads_of_link hunder (hlinks j hij hj) hfour.leads

/-- What is left to find at a name: what it leads, and what comes behind that. -/
theorem fourPart_from_name (h : ls.drop i = l :: rest) (hname : l.isName = true)
    (hbetween : Between ls i) :
    i ≤ j ∧ FourPart ls j last ↔
      (isFourPart (l :: rest.take (chain l rest)) = true ∧ j = i ∧ last = i + chain l rest) ∨
        i + chain l rest + 1 ≤ j ∧ FourPart ls j last := by
  constructor
  · rintro ⟨hij, hfour⟩
    rcases Nat.eq_or_lt_of_le hij with rfl | hlt
    · obtain ⟨hparts, hlast⟩ := (fourPart_iff_of_between h hname hbetween).mp hfour
      exact .inl ⟨hparts, rfl, hlast⟩
    · refine .inr ⟨?_, hfour⟩
      by_contra hle
      exact not_fourPart_of_mem_chain h hname hlt (by omega) hfour
  · rintro (⟨hparts, rfl, hlast⟩ | ⟨hle, hfour⟩)
    · exact ⟨Nat.le_refl _, (fourPart_iff_of_between h hname hbetween).mpr ⟨hparts, hlast⟩⟩
    · exact ⟨by omega, hfour⟩

/-- Other lexemes lead nothing. -/
theorem fourPart_from_other (h : ls.drop i = l :: rest) (hname : ¬ l.isName = true) :
    i ≤ j ∧ FourPart ls j last ↔ i + 1 ≤ j ∧ FourPart ls j last := by
  refine and_congr_left fun hfour => ⟨fun hij => ?_, Nat.le_of_succ_le⟩
  rcases Nat.eq_or_lt_of_le hij with rfl | hlt
  · exact absurd ((at_of_drop h).mp hfour.leads.1) hname
  · exact hlt

/-! ## The loops

The loops come to the positions that the recursion comes to, and find a token there. -/

section Loops

variable {ts : List Token}

theorem exists_token_of_drop (h : (ts.map (·.toLexeme)).drop i = l :: rest) :
    ∃ t, ts.toArray[i]? = some t ∧ t.toLexeme = l := by
  have hl : (ts.map (·.toLexeme))[i]? = some l := by
    rw [← List.head?_drop, h]
    rfl
  rwa [List.getElem?_map, Option.map_eq_some_iff, ← List.getElem?_toArray] at hl

/-- Following a dotted name by its positions takes in what it is carried on by. -/
theorem follow_eq_some {prev : Lexeme} (h : (ts.map (·.toLexeme)).drop last = prev :: rest)
    (points : Nat) :
    follow ts.toArray (last + 1) points last =
      some (points + (rest.take (chain prev rest)).countP (·.isSymbol "."),
        last + chain prev rest) := by
  induction rest generalizing last prev points with
  | nil =>
      have hend : ts.toArray[last + 1]? = none := by
        have hdrop := drop_behind h 0
        simpa using hdrop
      rw [follow]
      split
      · rfl
      · next ht => cases hend.symm.trans ht
  | cons l rest ih =>
      have hnext : (ts.map (·.toLexeme)).drop (last + 1) = l :: rest := drop_behind h 0
      obtain ⟨p, hp, rfl⟩ := exists_token_of_drop h
      obtain ⟨t, ht, rfl⟩ := exists_token_of_drop hnext
      have hbefore : before? ts.toArray (last + 1) = some p := hp
      rw [follow]
      split
      · next hnone => cases ht.symm.trans hnone
      · next next hsome =>
          cases ht.symm.trans hsome
          rw [hbefore]
          simp only [chain]
          by_cases hpoint : t.isSymbol "." = true
          · simp [hpoint, ih hnext]
            omega
          · by_cases hname : (p.isSymbol "." && t.isName) = true
            · simp [hpoint, hname, ih hnext]
              omega
            · simp [hpoint, hname]

/-- A dotted name ends within the tokens. -/
theorem add_chain_lt_length (h : (ts.map (·.toLexeme)).drop i = l :: rest) :
    i + chain l rest < ts.length := by
  have hle := chain_le l rest
  have hlength := congrArg List.length h
  rw [List.length_drop, List.length_map, List.length_cons] at hlength
  omega

/-- The name that leads a dotted name is none of its points. -/
theorem countP_take_chain (h : ls.drop i = l :: rest) (hname : l.isName = true) :
    (rest.take (chain l rest)).countP (·.isSymbol ".") =
      ((ls.drop i).take (chain l rest + 1)).countP (·.isSymbol ".") := by
  have hpoint : ¬ l.isSymbol "." = true := by
    intro hpoint
    rw [Lexeme.isName_of_isSymbol hpoint] at hname
    cases hname
  rw [h, List.take_succ_cons, List.countP_cons_of_neg (by simpa using hpoint)]

/-- A dotted name that has been followed is judged by tokens that are there. -/
theorem violation?_eq_some (h : (ts.map (·.toLexeme)).drop i = l :: rest)
    (hname : l.isName = true) :
    violation? ts.toArray i ((rest.take (chain l rest)).countP (·.isSymbol "."))
        (i + chain l rest) =
      some (if isFourPart (l :: rest.take (chain l rest)) then
        Violation.spanning "linked-server" message
          (Finding.tokens ts.toArray ⟨message, i, i + chain l rest⟩) else none) := by
  have hlength := add_chain_lt_length h
  have hlast : ts.toArray[i + chain l rest]? = some ts[i + chain l rest] := by
    rw [List.getElem?_toArray, List.getElem?_eq_getElem hlength]
  have hends : At (ts.map (·.toLexeme)) (i + chain l rest) (·.isName) ↔
      ts[i + chain l rest].isName = true := by
    rw [At, List.getElem?_map, List.getElem?_eq_getElem hlength]
    rfl
  have hparts := isFourPart_iff h
  rw [hends] at hparts
  rw [violation?, countP_take_chain h hname]
  split
  · next hfew => rw [if_neg fun hfour => absurd (hparts.mp hfour).1 (Nat.not_le_of_lt hfew)]
  · next hmany =>
      rw [hlast, Option.bind_eq_bind, Option.bind_some]
      rw [and_iff_right (Nat.le_of_not_lt hmany)] at hparts
      split
      · next hname =>
          have hslice : slice? ts.toArray i (i + chain l rest + 1) = _ :=
            slice?_of_le (by omega) (by simpa using hlength)
          rw [if_pos (hparts.mpr hname), hslice]
          rfl
      · next hother =>
          rw [if_neg (mt hparts.mp hother)]
          rfl

/-- At a name, the loop goes on behind the dotted name that it leads. -/
theorem loop_of_name (h : (ts.map (·.toLexeme)).drop i = l :: rest) (hname : l.isName = true)
    (found : List Violation) :
    loop ts.toArray i found = loop ts.toArray (i + chain l rest + 1)
      (found ++ (if isFourPart (l :: rest.take (chain l rest)) then
        Violation.spanning "linked-server" message
          (Finding.tokens ts.toArray ⟨message, i, i + chain l rest⟩) else none).toList) := by
  obtain ⟨t, ht, rfl⟩ := exists_token_of_drop h
  have hi : i < ts.toArray.size := (Array.getElem?_eq_some_iff.mp ht).1
  have hfollow := follow_eq_some h 0
  have hviolation := violation?_eq_some h hname
  rw [Nat.zero_add] at hfollow
  rw [loop, if_pos hi, ht]
  simp only [hname, Bool.not_true, Bool.false_eq_true, if_false]
  split
  · next hnone => cases hfollow.symm.trans hnone
  · next points last hsome =>
      cases hfollow.symm.trans hsome
      rw [hviolation]

/-- The loops end with the violations that are found, wherever they start. -/
theorem loop_eq_some (h : (ts.map (·.toLexeme)).drop i = rest) (found : List Violation) :
    loop ts.toArray i found =
      some (found ++ Finding.violations "linked-server" ts (findingsFrom i rest)) := by
  fun_induction findingsFrom i rest generalizing found with
  | case1 i =>
      have hend : ¬ i < ts.toArray.size := by
        simpa using h
      rw [loop, if_neg hend]
      simp [Finding.violations]
  | case2 i l rest hname n rest' hparts ih =>
      rw [loop_of_name h hname, if_pos hparts, ih (drop_behind h n), List.append_assoc,
        Finding.violations_cons]
  | case3 i l rest hname n rest' hparts ih =>
      rw [loop_of_name h hname, if_neg hparts, ih (drop_behind h n), Option.toList_none,
        List.append_nil]
  | case4 i l rest hname ih =>
      obtain ⟨t, ht, rfl⟩ := exists_token_of_drop h
      have hi : i < ts.toArray.size := (Array.getElem?_eq_some_iff.mp ht).1
      rw [loop, if_pos hi, ht, ← ih (drop_behind h 0)]
      simp [hname]

end Loops

/-! ## The findings -/

/-- What the rule says about a four-part name. -/
def finding (s : Nat × Nat) : Finding := ⟨message, s.1, s.2⟩

/-- From a position between dotted names on, the rule finds those of four parts, each with its
first and last position, one behind the other. -/
theorem exists_spans_findingsFrom (h : ls.drop i = rest) (hbetween : Between ls i) :
    ∃ spans : List (Nat × Nat), findingsFrom i rest = spans.map finding ∧
      (∀ j last, (j, last) ∈ spans ↔ i ≤ j ∧ FourPart ls j last) ∧
      spans.Pairwise fun s s' => s.2 < s'.1 := by
  fun_induction findingsFrom i rest with
  | case1 i =>
      refine ⟨[], rfl, fun j last => iff_of_false List.not_mem_nil ?_, .nil⟩
      rintro ⟨hij, hfour⟩
      exact not_at_of_drop h hij hfour.leads.1
  | case2 i l rest hname n found hparts ih =>
      obtain ⟨spans, hfound, hmem, hpairwise⟩ := ih (drop_behind h n) (between_behind_chain h)
      refine ⟨(i, i + n) :: spans, ?_, fun j last => ?_, ?_⟩
      · exact congrArg (finding (i, i + n) :: ·) hfound
      · rw [fourPart_from_name h hname hbetween, List.mem_cons, hmem, Prod.mk.injEq,
          and_iff_right hparts]
      · refine List.pairwise_cons.mpr ⟨fun s hs => ?_, hpairwise⟩
        exact ((hmem s.1 s.2).mp hs).1
  | case3 i l rest hname n found hparts ih =>
      obtain ⟨spans, hfound, hmem, hpairwise⟩ := ih (drop_behind h n) (between_behind_chain h)
      refine ⟨spans, hfound, fun j last => ?_, hpairwise⟩
      rw [fourPart_from_name h hname hbetween, hmem, or_iff_right fun hor => hparts hor.1]
  | case4 i l rest hname ih =>
      have hother : ¬ At ls i (·.isName) := fun hat => hname ((at_of_drop h).mp hat)
      obtain ⟨spans, hfound, hmem, hpairwise⟩ := ih (drop_behind h 0) (hbetween.succ hother)
      refine ⟨spans, hfound, fun j last => ?_, hpairwise⟩
      rw [fourPart_from_other h hname, hmem]

/-- Four-part names are the dotted names with three points or more.  In every file, the violations
are those of some stretches of the significant tokens, one for each, from the first to the last of
its tokens.  These are all the stretches that start with a name which does not carry on a dotted
name, go on as long as points and names right behind a point follow, hold at least three points and
end in a name.  Each of them lies behind the one before, so no two have a token in common.  The
loops over positions come to the same violations and never look out of range. -/
theorem four_part_names_reported (ctx : FileContext) :
    let ts := ctx.significant
    let ls := ts.map (·.toLexeme)
    (∃ spans : List (Nat × Nat),
      (∀ i last, (i, last) ∈ spans ↔ FourPart ls i last) ∧
      spans.Pairwise (fun s s' => s.2 < s'.1) ∧
      (BuiltIn.linkedServer.check ctx).map some = spans.map fun s =>
        Violation.spanning "linked-server"
          "Unexpected linked server call through a four-part name"
          ((ts.drop s.1).take (s.2 + 1 - s.1))) ∧
      loop ts.toArray 0 [] = some (BuiltIn.linkedServer.check ctx) := by
  intro ts ls
  have hdrop : ls.drop 0 = ls := List.drop_zero
  constructor
  · obtain ⟨spans, hfound, hmem, hpairwise⟩ := exists_spans_findingsFrom hdrop (between_zero ls)
    refine ⟨spans, fun i last => ?_, hpairwise, ?_⟩
    · rw [hmem, and_iff_right (Nat.zero_le i)]
    · have hfindings : BuiltIn.linkedServer.findings ctx.isTest ls = spans.map finding := hfound
      rw [BuiltIn.check, Finding.map_some_violations _ (BuiltIn.linkedServer.ordered_check ctx),
        hfindings, List.map_map]
      refine List.map_congr_left fun s _ => ?_
      simp only [Function.comp_apply, finding, Finding.tokens, Array.toList_extract,
        List.extract_eq_take_drop]
      rfl
  · exact loop_eq_some hdrop []

end SqlStyle.LinkedServer
