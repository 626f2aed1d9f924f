import SqlStyle.Proofs.Rule.Order

/-!
# Stars and the parentheses around them

Whether a star stands in the parentheses of `EXISTS` is a matter of matched parentheses, and these
can be told by counting: one that was opened is open as long as no more are closed behind it than
opened.  The rule keeps a depth and the depths at which `EXISTS` opened one.  Both are read off the
stack of the parentheses that are open: the depth is its height, and the depths are the heights of
some of its members.  Parentheses that close nothing leave the stack empty and the depth at 0, so
the two stay in step whether the parentheses match or not.
-/

namespace SqlStyle.SelectStar

/-! ## Positions -/

/-- There is a lexeme at the position, and it passes the test. -/
def At (ls : List Lexeme) (i : Nat) (p : Lexeme → Bool) : Prop := ls[i]?.any p = true

/-- The lexeme `n` places before the position passes the test. -/
def Before (ls : List Lexeme) (n i : Nat) (p : Lexeme → Bool) : Prop := n ≤ i ∧ At ls (i - n) p

/-- How many of the lexemes from behind position `j` to position `k` are the given symbol. -/
def count (symbol : String) (ls : List Lexeme) (j k : Nat) : Nat :=
  ((ls.take (k + 1)).drop (j + 1)).countP (·.isSymbol symbol)

/-- A parenthesis is opened at `j`, and up to no position before `i` are more of them closed than
opened behind it. -/
def OpenAt (ls : List Lexeme) (j i : Nat) : Prop :=
  j < i ∧ At ls j (·.isSymbol "(") ∧ ∀ k < i, j < k → count ")" ls j k ≤ count "(" ls j k

/-- A parenthesis that `EXISTS` opened is open at the position. -/
def InExists (ls : List Lexeme) (i : Nat) : Prop :=
  ∃ j < i, OpenAt ls j i ∧ Before ls 1 j (·.isWord "EXISTS")

instance (ls : List Lexeme) (i : Nat) (p : Lexeme → Bool) : Decidable (At ls i p) :=
  inferInstanceAs (Decidable (_ = true))

instance (ls : List Lexeme) (n i : Nat) (p : Lexeme → Bool) : Decidable (Before ls n i p) :=
  inferInstanceAs (Decidable (_ ∧ _))

instance (ls : List Lexeme) (j i : Nat) : Decidable (OpenAt ls j i) :=
  inferInstanceAs (Decidable (_ ∧ _ ∧ _))

instance (ls : List Lexeme) (i : Nat) : Decidable (InExists ls i) :=
  inferInstanceAs (Decidable (∃ j, j < i ∧ _))

variable {ls before after : List Lexeme} {l : Lexeme} {i j k n : Nat} {p : Lexeme → Bool}

theorem at_append (h : i < ls.length) : At (ls ++ after) i p ↔ At ls i p := by
  rw [At, At, List.getElem?_append_left h]

theorem at_length (ls : List Lexeme) (l : Lexeme) (after : List Lexeme) (p : Lexeme → Bool) :
    At (ls ++ l :: after) ls.length p ↔ p l = true := by
  rw [At, List.getElem?_append_right (Nat.le_refl _), Nat.sub_self]
  rfl

theorem before_append (hn : 0 < n) (h : i ≤ ls.length) :
    Before (ls ++ after) n i p ↔ Before ls n i p := by
  refine and_congr_right fun hi => at_append ?_
  omega

theorem count_append {symbol : String} (h : k < ls.length) :
    count symbol (ls ++ after) j k = count symbol ls j k := by
  rw [count, count, List.take_append_of_le_length h]

/-- What stands behind a position says nothing about the parentheses open there. -/
theorem openAt_append (after : List Lexeme) (h : i ≤ ls.length) :
    OpenAt (ls ++ after) j i ↔ OpenAt ls j i := by
  refine and_congr_right fun hj => and_congr (at_append (by omega)) ?_
  refine forall_congr' fun k => forall_congr' fun hk => imp_congr_right fun _ => ?_
  rw [count_append (by omega), count_append (by omega)]

theorem inExists_append (h : i ≤ ls.length) : InExists (ls ++ after) i ↔ InExists ls i := by
  refine exists_congr fun j => and_congr_right fun hj => and_congr (openAt_append after h) ?_
  exact before_append Nat.one_pos (by omega)

/-! ## The stack of open parentheses

The lexemes before a position are taken nearest first, as the rule takes them. -/

/-- The positions of the parentheses that are open behind some lexemes, the innermost first. -/
def openParens : List Lexeme → List Nat
  | [] => []
  | l :: before =>
      if l.isSymbol "(" then before.length :: openParens before
      else if l.isSymbol ")" then (openParens before).tail
      else openParens before

/-- How many of the lexemes behind position `j` are the given symbol. -/
def countBehind (symbol : String) (ls : List Lexeme) (j : Nat) : Nat :=
  (ls.drop (j + 1)).countP (·.isSymbol symbol)

theorem countBehind_reverse_concat (symbol : String) (l : Lexeme) (h : j < before.length) :
    countBehind symbol (before.reverse ++ [l]) j =
      countBehind symbol before.reverse j + if l.isSymbol symbol then 1 else 0 := by
  rw [← List.length_reverse] at h
  rw [countBehind, countBehind, List.drop_append_of_le_length h, List.countP_append,
    List.countP_singleton]

theorem count_eq_countBehind (symbol : String) (h : ls.length = k + 1) :
    count symbol ls j k = countBehind symbol ls j := by
  rw [count, countBehind, List.take_of_length_le h.le]

/-- One more lexeme opens a parenthesis, or leaves open one behind which no more are closed. -/
theorem openAt_concat (ls : List Lexeme) (l : Lexeme) (j : Nat) :
    OpenAt (ls ++ [l]) j (ls.length + 1) ↔
      (j = ls.length ∧ l.isSymbol "(" = true) ∨
        OpenAt ls j ls.length ∧
          countBehind ")" (ls ++ [l]) j ≤ countBehind "(" (ls ++ [l]) j := by
  have hlength : (ls ++ [l]).length = ls.length + 1 := List.length_append
  constructor
  · rintro ⟨hj, hopen, hcount⟩
    rcases Nat.lt_succ_iff_lt_or_eq.mp hj with hlt | rfl
    · refine .inr ⟨(openAt_append [l] (Nat.le_refl _)).mp ⟨hlt, hopen, fun k hk => ?_⟩, ?_⟩
      · exact hcount k (Nat.lt_succ_of_lt hk)
      · have hlast := hcount ls.length (Nat.lt_succ_self _) hlt
        rwa [count_eq_countBehind _ hlength, count_eq_countBehind _ hlength] at hlast
    · exact .inl ⟨rfl, (at_length _ _ _ _).mp hopen⟩
  · rintro (⟨rfl, hl⟩ | ⟨hopen, hlast⟩)
    · exact ⟨Nat.lt_succ_self _, (at_length _ _ _ _).mpr hl, fun k hk hj => by omega⟩
    · obtain ⟨hj, hat, hcount⟩ := (openAt_append [l] (Nat.le_refl _)).mpr hopen
      refine ⟨Nat.lt_succ_of_lt hj, hat, fun k hk hjk => ?_⟩
      rcases Nat.lt_succ_iff_lt_or_eq.mp hk with hlt | rfl
      · exact hcount k hlt hjk
      · rwa [count_eq_countBehind _ hlength, count_eq_countBehind _ hlength]

/-- The `m`-th parenthesis of the stack, counted from its top, has `m` more opened than closed
behind it. -/
theorem countBehind_of_openParens {m : Nat} (h : (openParens before)[m]? = some j) :
    j < before.length ∧
      countBehind "(" before.reverse j = countBehind ")" before.reverse j + m := by
  induction before generalizing m with
  | nil => cases h
  | cons l before ih =>
      rw [openParens] at h
      rw [List.reverse_cons, List.length_cons]
      split at h
      · next hopen =>
          have hclose := Lexeme.isSymbol_of_ne hopen (t := ")") (by decide)
          cases m with
          | zero =>
              cases h
              refine ⟨Nat.lt_succ_self _, ?_⟩
              rw [countBehind, countBehind, List.drop_of_length_le (by simp)]
              rfl
          | succ m =>
              obtain ⟨hj, hcount⟩ := ih h
              refine ⟨Nat.lt_succ_of_lt hj, ?_⟩
              rw [countBehind_reverse_concat _ l hj, countBehind_reverse_concat _ l hj,
                if_pos hopen, hclose, hcount]
              rfl
      · next hopen =>
          split at h
          · next hclose =>
              rw [List.getElem?_tail] at h
              obtain ⟨hj, hcount⟩ := ih h
              refine ⟨Nat.lt_succ_of_lt hj, ?_⟩
              rw [countBehind_reverse_concat _ l hj, countBehind_reverse_concat _ l hj,
                if_neg hopen, if_pos hclose, hcount]
              omega
          · next hclose =>
              obtain ⟨hj, hcount⟩ := ih h
              refine ⟨Nat.lt_succ_of_lt hj, ?_⟩
              rw [countBehind_reverse_concat _ l hj, countBehind_reverse_concat _ l hj,
                if_neg hopen, if_neg hclose, hcount]
              omega

/-- Behind a parenthesis of the stack, no more are closed than opened. -/
theorem bounds_of_mem_openParens (h : j ∈ openParens before) :
    j < before.length ∧ countBehind ")" before.reverse j ≤ countBehind "(" before.reverse j := by
  obtain ⟨m, hm⟩ := List.mem_iff_getElem?.mp h
  obtain ⟨hj, hcount⟩ := countBehind_of_openParens hm
  exact ⟨hj, hcount ▸ Nat.le_add_right _ m⟩

/-- Only behind the top of the stack are as many closed as opened. -/
theorem mem_tail_openParens_iff :
    j ∈ (openParens before).tail ↔
      j ∈ openParens before ∧
        countBehind ")" before.reverse j < countBehind "(" before.reverse j := by
  constructor
  · intro hj
    obtain ⟨m, hm⟩ := List.mem_iff_getElem?.mp hj
    rw [List.getElem?_tail] at hm
    refine ⟨List.mem_of_getElem? hm, ?_⟩
    rw [(countBehind_of_openParens hm).2]
    omega
  · rintro ⟨hj, hcount⟩
    obtain ⟨m, hm⟩ := List.mem_iff_getElem?.mp hj
    rw [(countBehind_of_openParens hm).2] at hcount
    cases m with
    | zero => omega
    | succ m =>
        rw [← List.getElem?_tail] at hm
        exact List.mem_of_getElem? hm

/-- The stack holds the parentheses that are open by the count. -/
theorem mem_openParens_iff :
    j ∈ openParens before ↔ OpenAt before.reverse j before.length := by
  induction before with
  | nil => simp [openParens, OpenAt]
  | cons l before ih =>
      have hconcat := openAt_concat before.reverse l j
      rw [List.length_reverse] at hconcat
      rw [List.reverse_cons, List.length_cons, hconcat, ← ih, openParens]
      have hstep (symbol : String) (hj : j ∈ openParens before) :=
        countBehind_reverse_concat symbol l (bounds_of_mem_openParens hj).1
      split
      · next hopen =>
          have hclose := Lexeme.isSymbol_of_ne hopen (t := ")") (by decide)
          rw [List.mem_cons]
          refine or_congr (and_iff_left hopen).symm (and_iff_left_of_imp ?_).symm
          intro hj
          rw [hstep _ hj, hstep _ hj, if_pos hopen, hclose]
          exact (bounds_of_mem_openParens hj).2.trans (Nat.le_succ _)
      · next hopen =>
          rw [or_iff_right (fun h => hopen h.2)]
          split
          · next hclose =>
              rw [mem_tail_openParens_iff]
              refine and_congr_right fun hj => ?_
              rw [hstep _ hj, hstep _ hj, if_neg hopen, if_pos hclose]
              exact Iff.rfl
          · next hclose =>
              refine (and_iff_left_of_imp fun hj => ?_).symm
              rw [hstep _ hj, hstep _ hj, if_neg hopen, if_neg hclose]
              exact (bounds_of_mem_openParens hj).2

/-! ## Depths -/

/-- The heights at which the members of a stack stand that pass the test. -/
def heights (p : Nat → Bool) : List Nat → List Nat
  | [] => []
  | j :: js => if p j then (js.length + 1) :: heights p js else heights p js

theorem heights_congr {p q : Nat → Bool} {js : List Nat} (h : ∀ j ∈ js, p j = q j) :
    heights p js = heights q js := by
  induction js with
  | nil => rfl
  | cons j js ih =>
      obtain ⟨hj, hjs⟩ := List.forall_mem_cons.mp h
      rw [heights, heights, hj, ih hjs]

theorem le_length_of_mem_heights {p : Nat → Bool} {js : List Nat} {d : Nat}
    (h : d ∈ heights p js) : d ≤ js.length := by
  induction js with
  | nil => cases h
  | cons j js ih =>
      rw [heights] at h
      rw [List.length_cons]
      split at h
      · rcases List.mem_cons.mp h with rfl | h
        · exact Nat.le_refl _
        · exact (ih h).trans (Nat.le_succ _)
      · exact (ih h).trans (Nat.le_succ _)

/-- Taking the top off a stack takes its height off the heights, if it was among them. -/
theorem heights_tail (p : Nat → Bool) (js : List Nat) :
    (if (heights p js).head? = some js.length then (heights p js).tail else heights p js) =
      heights p js.tail := by
  cases js with
  | nil => rfl
  | cons j js =>
      rw [heights]
      split
      · exact if_pos rfl
      · refine if_neg fun htop => ?_
        have hle := le_length_of_mem_heights (List.mem_of_head? htop)
        rw [List.length_cons] at hle
        omega

theorem heights_eq_nil_iff {p : Nat → Bool} {js : List Nat} :
    heights p js = [] ↔ ∀ j ∈ js, p j = false := by
  induction js with
  | nil => simp [heights]
  | cons j js ih =>
      rw [heights, List.forall_mem_cons, ← ih]
      split
      · next hj => simp [hj]
      · next hj => simp [hj]

namespace Parens

/-- What the rule keeps of the lexemes before a position. -/
def behind : List Lexeme → Parens
  | [] => start
  | l :: before => (behind before).step before l

/-- The depth and the depths of `EXISTS` are read off the stack of open parentheses. -/
theorem behind_eq (before : List Lexeme) :
    behind before = ⟨(openParens before).length,
      heights (fun j => Before before.reverse 1 j (·.isWord "EXISTS")) (openParens before)⟩ := by
  induction before with
  | nil => rfl
  | cons l before ih =>
      -- what stands before an open parenthesis has not changed
      have hsame {js : List Nat} (hjs : js ⊆ openParens before) :
          heights (fun j => Before (l :: before).reverse 1 j (·.isWord "EXISTS")) js =
            heights (fun j => Before before.reverse 1 j (·.isWord "EXISTS")) js := by
        refine heights_congr fun j hj => decide_eq_decide.mpr ?_
        rw [List.reverse_cons]
        refine before_append Nat.one_pos ?_
        rw [List.length_reverse]
        exact (bounds_of_mem_openParens (hjs hj)).1.le
      rw [behind, step, ih, openParens]
      split
      · next hopen =>
          have hhead : Before (l :: before).reverse 1 before.length (·.isWord "EXISTS") ↔
              before.head?.any (·.isWord "EXISTS") = true := by
            cases before with
            | nil => simp [Before]
            | cons prev before =>
                rw [List.reverse_cons, before_append Nat.one_pos (by simp), Before,
                  List.length_cons, Nat.add_sub_cancel, List.reverse_cons,
                  ← List.length_reverse, at_length]
                simp
          rw [heights, hsame (List.Subset.refl _)]
          simp only [List.length_cons, decide_eq_true_eq, hhead]
      · next hopen =>
          split
          · next hclose =>
              rw [List.length_tail, heights_tail, hsame (List.tail_subset _)]
          · rw [hsame (List.Subset.refl _)]

/-- The rule knows of a depth of `EXISTS` exactly in the parentheses of one. -/
theorem exist_behind_eq_nil_iff :
    (behind before).exist = [] ↔ ¬ InExists before.reverse before.length := by
  rw [behind_eq, heights_eq_nil_iff, InExists]
  simp only [mem_openParens_iff, decide_eq_false_iff_not]
  constructor
  · rintro h ⟨j, -, hopen, hexists⟩
    exact h j hopen hexists
  · intro h j hopen hexists
    exact h ⟨j, hopen.1, hopen, hexists⟩

end Parens

end SqlStyle.SelectStar
