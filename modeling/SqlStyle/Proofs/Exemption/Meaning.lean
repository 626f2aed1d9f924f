import SqlStyle.Proofs.Exemption.Scan

/-!
# What directives mean at one offset

The state of a scan forgets which comments have led to it.  At one offset nothing is lost: a key is
off there exactly if some comment before the offset has switched it off, and every later comment
that switches it on ends at the offset or behind it.  The comments must be in the order of their
text; it is carried through the scan as a bound on the ranges met so far.
-/

namespace SqlStyle.Exemption

open Token (InOrder lastChar?)

/-- Some token has switched a key off at or before an offset, and no later token that switches
it on has ended before the offset. -/
def SwitchedOff (ts : List Token) (k : Key) (o : Nat) : Prop :=
  ∃ (before : List Token) (d : Token) (after : List Token), ts = before ++ d :: after ∧
    d.Directs .disable k ∧ d.startChar ≤ o ∧ ∀ e ∈ after, e.Directs .enable k → o ≤ e.stopChar

theorem not_switchedOff_nil (k : Key) (o : Nat) : ¬ SwitchedOff [] k o := by
  rintro ⟨before, d, after, heq, -⟩
  cases before <;> cases heq

theorem switchedOff_singleton {t : Token} {k : Key} {o : Nat} :
    SwitchedOff [t] k o ↔ t.Directs .disable k ∧ t.startChar ≤ o := by
  constructor
  · rintro ⟨before, d, after, heq, hd, ho, -⟩
    cases before with
    | nil =>
        cases heq
        exact ⟨hd, ho⟩
    | cons b before => simp at heq
  · rintro ⟨hd, ho⟩
    exact ⟨[], t, [], rfl, hd, ho, fun e he => by cases he⟩

/-- What is switched off in a part of a file stays so until a later part switches it on. -/
theorem switchedOff_append {ts us : List Token} {k : Key} {o : Nat} :
    SwitchedOff (ts ++ us) k o ↔
      SwitchedOff us k o ∨
        (SwitchedOff ts k o ∧ ∀ e ∈ us, e.Directs .enable k → o ≤ e.stopChar) := by
  constructor
  · rintro ⟨before, d, after, heq, hd, ho, hafter⟩
    rcases List.append_eq_append_iff.mp heq with ⟨cs, rfl, rfl⟩ | ⟨cs, rfl, hcs⟩
    · exact .inl ⟨cs, d, after, rfl, hd, ho, hafter⟩
    · cases cs with
      | nil => exact .inl ⟨[], d, after, hcs.symm, hd, ho, hafter⟩
      | cons c cs =>
          rw [List.cons_append, List.cons.injEq] at hcs
          obtain ⟨rfl, rfl⟩ := hcs
          refine .inr ⟨⟨before, d, cs, rfl, hd, ho, ?_⟩, ?_⟩
          · intro e he
            exact hafter e (List.mem_append_left us he)
          · intro e he
            exact hafter e (List.mem_append_right cs he)
  · rintro (⟨before, d, after, rfl, hd, ho, hafter⟩ |
      ⟨⟨before, d, after, rfl, hd, ho, hafter⟩, hus⟩)
    · exact ⟨ts ++ before, d, after, by simp, hd, ho, hafter⟩
    · refine ⟨before, d, after ++ us, by simp, hd, ho, ?_⟩
      intro e he
      rcases List.mem_append.mp he with he | he
      · exact hafter e he
      · exact hus e he

namespace Scan

/-- A key is off at an offset: in a closed range, or behind the start of the open one. -/
def Off (s : Scan) (k : Key) (o : Nat) : Prop :=
  (∃ x ∈ s.closedOf k, o ∈ x.interval) ∨ ∃ n, s.since k = some n ∧ n ≤ o

/-! ## Ranges met so far lie before the next token -/

theorem since_lt_last {ts : List Token} {t : Token} (h : InOrder (ts ++ [t])) {k : Key} {n : Nat}
    (hn : (after ts).since k = some n) : n < t.startChar := by
  obtain ⟨d, hd, -, rfl⟩ := exists_directs_of_since hn
  have hle := h.left.start_le_stop d hd
  have hlt := h.stop_lt_last hd
  omega

theorem stop_lt_last {ts : List Token} {t : Token} (h : InOrder (ts ++ [t])) {k : Key}
    {x : Exemption} (hx : x ∈ (after ts).closedOf k) : x.stopChar < t.startChar := by
  obtain ⟨-, e, he, -, hstop⟩ := exists_directs_of_mem_closedOf hx
  rw [← hstop]
  exact h.stop_lt_last he

/-! ## One token -/

theorem off_concat_of_disable {ts : List Token} {t : Token} (h : InOrder (ts ++ [t])) {k : Key}
    (hd : t.Directs .disable k) (o : Nat) :
    (after (ts ++ [t])).Off k o ↔ (after ts).Off k o ∨ t.startChar ≤ o := by
  rw [Off, Off, after_concat_of_directs hd, since_apply_disable, closedOf_apply_disable, or_assoc]
  cases hs : (after ts).since k with
  | none => simp
  | some n =>
      have hlt := since_lt_last h hs
      refine or_congr Iff.rfl ?_
      simp only [Option.getD_some, Option.some.injEq, exists_eq_left']
      omega

theorem off_concat_of_enable {ts : List Token} {t : Token} (h : InOrder (ts ++ [t])) {k : Key}
    (he : t.Directs .enable k) (o : Nat) :
    (after (ts ++ [t])).Off k o ↔ (after ts).Off k o ∧ o ≤ t.stopChar := by
  have hle : t.startChar ≤ t.stopChar :=
    h.start_le_stop t (List.mem_append_right _ List.mem_cons_self)
  have hclosed : (∃ x ∈ (after ts).closedOf k, o ∈ x.interval) → o ≤ t.stopChar := by
    rintro ⟨x, hx, ho⟩
    have hlt := stop_lt_last h hx
    have hstop : o ≤ x.stopChar := ho.2
    omega
  rw [Off, Off, after_concat_of_directs he, since_apply_enable, closedOf_apply_enable]
  cases hs : (after ts).since k with
  | none => simpa using hclosed
  | some n =>
      -- the range that is closed here holds what was off since `n`, up to the end of `t`
      simp only [Option.map_some, Option.toList_some, List.mem_append, List.mem_singleton,
        or_and_right, exists_or, exists_eq_left, interval, Interval.mem_iff, reduceCtorEq,
        false_and, exists_false, or_false, Option.some.injEq, exists_eq_left']
      exact or_congr (iff_self_and.mpr hclosed) Iff.rfl

theorem off_concat_of_not_directs {ts : List Token} {t : Token} {k : Key}
    (h : ∀ a, ¬ t.Directs a k) (o : Nat) : (after (ts ++ [t])).Off k o ↔ (after ts).Off k o := by
  obtain ⟨hsince, hclosed⟩ := after_concat_of_not_directs ts h
  rw [Off, Off, hsince, hclosed]

/-! ## All tokens -/

/-- A scan over tokens in order has a key off where the directives have switched it off. -/
theorem off_after_iff {ts : List Token} (h : InOrder ts) (k : Key) (o : Nat) :
    (after ts).Off k o ↔ SwitchedOff ts k o := by
  induction ts using List.reverseRecOn with
  | nil =>
      refine iff_of_false ?_ (not_switchedOff_nil k o)
      rintro (⟨x, hx, -⟩ | ⟨n, hn, -⟩)
      · cases hx
      · cases hn
  | append_singleton ts t ih =>
      specialize ih h.left
      rw [switchedOff_append, switchedOff_singleton, ← ih]
      simp only [List.mem_singleton, forall_eq]
      rcases directs_cases t k with hd | he | hn
      · rw [off_concat_of_disable h hd]
        simp [hd, not_directs_enable hd, or_comm]
      · have hnd : ¬ t.Directs .disable k := fun hd => not_directs_enable hd he
        rw [off_concat_of_enable h he]
        simp [he, hnd]
      · rw [off_concat_of_not_directs hn]
        simp [hn]

end Scan

/-! ## Ranges -/

/-- A range of a key holds an offset if the key is switched off there, up to the end of the
file. -/
theorem exists_range_iff {ts : List Token} (h : InOrder ts) (k : Key) (o : Nat) :
    (∃ x ∈ scan ts, x.key = k ∧ o ∈ x.interval) ↔
      (∃ n, lastChar? ts = some n ∧ o ≤ n) ∧ SwitchedOff ts k o := by
  have hmem (x : Exemption) : x ∈ scan ts ∧ x.key = k ↔ x ∈ (Scan.after ts).closedOf k ∨
      ∃ n, (Scan.after ts).since k = some n ∧ ⟨k, n, max ((lastChar? ts).getD 0) n⟩ = x := by
    rw [← Option.map_eq_some_iff, ← Option.mem_toList, ← List.mem_append,
      ← Scan.filter_key_finish (Scan.nodup_keys_after ts), ← scan_eq_finish, List.mem_filter,
      beq_iff_eq]
  rw [← Scan.off_after_iff h]
  constructor
  · rintro ⟨x, hx, hk, ho⟩
    rcases (hmem x).mp ⟨hx, hk⟩ with hx | ⟨n, hn, rfl⟩
    · obtain ⟨-, e, he, -, hstop⟩ := Scan.exists_directs_of_mem_closedOf hx
      obtain ⟨last, hlast⟩ := Token.exists_lastChar?_of_mem he
      refine ⟨⟨last, hlast, ?_⟩, .inl ⟨x, hx, ho⟩⟩
      have hle := Token.stop_le_of_lastChar? hlast he
      have hox : o ≤ x.stopChar := ho.2
      omega
    · obtain ⟨d, hd, -, rfl⟩ := Scan.exists_directs_of_since hn
      obtain ⟨last, hlast⟩ := Token.exists_lastChar?_of_mem hd
      refine ⟨⟨last, hlast, ?_⟩, .inr ⟨d.startChar, hn, ho.1⟩⟩
      have hle := Token.stop_le_of_lastChar? hlast hd
      have hstart := h.start_le_stop d hd
      have hox : o ≤ max ((lastChar? ts).getD 0) d.startChar := ho.2
      rw [hlast, Option.getD_some] at hox
      omega
  · rintro ⟨⟨last, hlast, hle⟩, ⟨x, hx, ho⟩ | ⟨n, hn, hno⟩⟩
    · obtain ⟨hx, hk⟩ := (hmem x).mpr (.inl hx)
      exact ⟨x, hx, hk, ho⟩
    · obtain ⟨hx, hk⟩ := (hmem _).mpr (.inr ⟨n, hn, rfl⟩)
      refine ⟨_, hx, hk, hno, ?_⟩
      rw [hlast]
      exact le_max_of_le_left hle

/-- A rule is exempt at an offset of the file if all rules are switched off there, or the rule
of its name is. -/
theorem exempt_scan_iff {ts : List Token} (h : InOrder ts) (rule : String) (o : Nat) :
    Exempt (scan ts) rule o ↔ (∃ n, lastChar? ts = some n ∧ o ≤ n) ∧
      ∃ k, (k = none ∨ k = some (Text.upper rule)) ∧ SwitchedOff ts k o := by
  have hcovers : Exempt (scan ts) rule o ↔ ∃ k, (k = none ∨ k = some (Text.upper rule)) ∧
      ∃ x ∈ scan ts, x.key = k ∧ o ∈ x.interval := by
    constructor
    · rintro ⟨x, hx, hcovers⟩
      obtain ⟨ho, hname⟩ := covers_iff.mp hcovers
      rw [rule?_of_mem_scan hx] at hname
      exact ⟨x.key, hname, x, hx, rfl, ho⟩
    · rintro ⟨k, hk, x, hx, rfl, ho⟩
      rw [← rule?_of_mem_scan hx] at hk
      exact ⟨x, hx, covers_iff.mpr ⟨ho, hk⟩⟩
  simp only [hcovers, exists_range_iff h]
  constructor
  · rintro ⟨k, hk, hlast, hoff⟩
    exact ⟨hlast, k, hk, hoff⟩
  · rintro ⟨hlast, k, hk, hoff⟩
    exact ⟨k, hk, hlast, hoff⟩

/-- The meaning of directives, offset by offset.  For tokens in order, a range covers a rule at an
offset exactly if the offset lies in the file, and for all rules or for the rule's name in upper
case there is a comment at or before the offset that switches it off, such that no later comment
that switches it on ends before the offset. -/
theorem scan_covers_iff_switched_off (ts : List Token) (h : InOrder ts) (rule : String)
    (o : Nat) :
    (∃ x ∈ scan ts, x.covers rule o = true) ↔
      (∃ n, lastChar? ts = some n ∧ o ≤ n) ∧
        ∃ k, (k = none ∨ k = some (Text.upper rule)) ∧
          ∃ (before : List Token) (d : Token) (after : List Token), ts = before ++ d :: after ∧
            d.Directs .disable k ∧ d.startChar ≤ o ∧
            ∀ e ∈ after, e.Directs .enable k → o ≤ e.stopChar :=
  exempt_scan_iff h rule o

/-- A rule stays off behind a comment that switches all rules on. -/
theorem covers_behind_enable_of_all :
    let word : Token := .place ⟨.word, "SELECT"⟩ 0 1 0
    let off : Token := .place ⟨.blockComment, "/* tsqllint-disable select-star */"⟩ 6 1 6
    let back : Token := .place ⟨.blockComment, "/* tsqllint-enable */"⟩ 40 1 40
    let star : Token := .place ⟨.symbol, "*"⟩ 61 1 61
    InOrder [word, off, back, star] ∧
      ∃ x ∈ scan [word, off, back, star], x.covers "Select-Star" 61 = true := by
  intro word off back star
  have horder : InOrder [word, off, back, star] := ⟨by decide, by decide⟩
  have hoff : off.Directs .disable (some "SELECT-STAR") := by decide
  have hafter : ∀ e ∈ [back, star], e.Directs .enable (some "SELECT-STAR") → 61 ≤ e.stopChar := by
    decide
  refine ⟨horder, (scan_covers_iff_switched_off _ horder "Select-Star" 61).mpr ?_⟩
  exact ⟨⟨61, rfl, Nat.le_refl 61⟩, some "SELECT-STAR", .inr (by decide), [word], off,
    [back, star], rfl, hoff, by decide, hafter⟩

end SqlStyle.Exemption
