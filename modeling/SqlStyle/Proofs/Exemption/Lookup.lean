import SqlStyle.Exemption.Index
import SqlStyle.Proofs.Exemption.Interval
import SqlStyle.Proofs.Text

/-!
# The index answers like the list of ranges

An index sorts ranges into buckets by name in upper case, and merges each bucket.  A lookup then
asks two buckets: the one of all rules, and the one of the rule.  Both together say the same as
going through the ranges one by one, for ranges in any order, overlapping, doubled or empty, and
for names in any case.
-/

namespace SqlStyle.Exemption

/-- Some range of a list covers a rule at an offset. -/
def Exempt (xs : List Exemption) (rule : String) (o : Nat) : Prop :=
  ∃ x ∈ xs, x.covers rule o = true

instance (xs : List Exemption) (rule : String) (o : Nat) : Decidable (Exempt xs rule o) :=
  inferInstanceAs (Decidable (∃ x ∈ xs, x.covers rule o = true))

/-- A range covers the offsets between its ends, for all rules or for the rule of its name. -/
theorem covers_iff {x : Exemption} {rule : String} {o : Nat} :
    x.covers rule o = true ↔
      o ∈ x.interval ∧ (x.rule? = none ∨ x.rule? = some (Text.upper rule)) := by
  obtain ⟨key, start, stop⟩ := x
  cases key with
  | none => simp [covers, rule?, interval, Interval.mem_iff]
  | some name => simp [covers, rule?, interval, Interval.mem_iff, Text.eqIgnoreCase_iff]

/-- A range tells names apart only by what is left of them in lower case. -/
theorem covers_iff_lower {x : Exemption} {rule : String} {o : Nat} :
    x.covers rule o = true ↔
      x.startChar ≤ o ∧ o ≤ x.stopChar ∧ ∀ name ∈ x.key, Text.lower name = Text.lower rule := by
  rw [covers_iff, rule?, interval, Interval.mem_iff, and_assoc]
  cases x.key with
  | none => simp
  | some name => simp [Text.upper_eq_upper_iff]

namespace Index

/-! ## Buckets -/

theorem contains_bucket (xs : List Exemption) (name : Option String) (o : Nat) :
    Interval.contains (bucket xs name) o = true ↔ ∃ x ∈ xs, x.rule? = name ∧ o ∈ x.interval := by
  rw [bucket, Interval.contains_merge, Interval.Covered]
  constructor
  · rintro ⟨i, hi, ho⟩
    obtain ⟨x, hx, rfl⟩ := List.mem_map.mp hi
    obtain ⟨hx, hname⟩ := List.mem_filter.mp hx
    exact ⟨x, hx, eq_of_beq hname, ho⟩
  · rintro ⟨x, hx, hname, ho⟩
    exact ⟨x.interval, List.mem_map_of_mem (List.mem_filter.mpr ⟨hx, by simp [hname]⟩), ho⟩

theorem bucket_eq_nil_iff {xs : List Exemption} {name : Option String} :
    bucket xs name = [] ↔ ∀ x ∈ xs, x.rule? ≠ name := by
  simp [bucket]

/-- A table with one row for each name has a row exactly for these names. -/
theorem lookup_map_names (names : List String) (f : String → List Interval) (name : String) :
    (names.map fun n => (n, f n)).lookup name = if name ∈ names then some (f name) else none := by
  induction names with
  | nil => rfl
  | cons n names ih =>
      by_cases h : name = n
      · subst h
        simp
      · have hb : (name == n) = false := beq_false_of_ne h
        simp only [List.map_cons, List.lookup_cons, hb, ih, List.mem_cons, h, false_or]

/-- A name without a row has an empty bucket, so that asking the row is asking the bucket. -/
theorem any_lookup_byRule (xs : List Exemption) (name : String) (o : Nat) :
    ((ofRanges xs).byRule.lookup name).any (Interval.contains · o) =
      Interval.contains (bucket xs (some name)) o := by
  rw [ofRanges, lookup_map_names]
  split
  · rfl
  · next h =>
      have hnil : bucket xs (some name) = [] := by
        rw [bucket_eq_nil_iff]
        intro x hx hname
        exact h (List.mem_eraseDups.mpr (List.mem_filterMap.mpr ⟨x, hx, hname⟩))
      rw [hnil]
      rfl

/-! ## Lookups -/

/-- An index exempts what some range of its list covers, and nothing else. -/
theorem isExempt_ofRanges (xs : List Exemption) (rule : String) (o : Nat) :
    (ofRanges xs).isExempt rule o = true ↔ Exempt xs rule o := by
  have heverywhere : (ofRanges xs).everywhere = bucket xs none := rfl
  rw [isExempt, any_lookup_byRule, heverywhere, Bool.or_eq_true, contains_bucket, contains_bucket]
  constructor
  · rintro (⟨x, hx, hname, ho⟩ | ⟨x, hx, hname, ho⟩)
    · exact ⟨x, hx, covers_iff.mpr ⟨ho, .inl hname⟩⟩
    · exact ⟨x, hx, covers_iff.mpr ⟨ho, .inr hname⟩⟩
  · rintro ⟨x, hx, hcovers⟩
    obtain ⟨ho, hname | hname⟩ := covers_iff.mp hcovers
    · exact .inl ⟨x, hx, hname, ho⟩
    · exact .inr ⟨x, hx, hname, ho⟩

/-- The shortcut for an empty index is taken only where there are no ranges. -/
theorem isEmpty_ofRanges (xs : List Exemption) : (ofRanges xs).isEmpty = true ↔ xs = [] := by
  constructor
  · intro h
    simp only [isEmpty, ofRanges, Bool.and_eq_true, List.isEmpty_iff, bucket_eq_nil_iff,
      List.map_eq_nil_iff] at h
    obtain ⟨hnone, hsome⟩ := h
    rw [List.eq_nil_iff_forall_not_mem]
    intro x hx
    cases hname : x.rule? with
    | none => exact hnone x hx hname
    | some name =>
        have hmem : name ∈ (xs.filterMap rule?).eraseDups :=
          List.mem_eraseDups.mpr (List.mem_filterMap.mpr ⟨x, hx, hname⟩)
        rw [hsome] at hmem
        cases hmem
  · rintro rfl
    simp [isEmpty, ofRanges, bucket_eq_nil_iff]

/-! ## Filtering -/

/-- Violations that no range covers stay, in their order; the others are counted. -/
theorem filter_ofRanges (xs : List Exemption) (vs : List Violation) :
    (ofRanges xs).filter vs =
      (vs.filter fun v => ¬ Exempt xs v.rule v.startChar,
        vs.countP fun v => Exempt xs v.rule v.startChar) := by
  have hexempt (v : Violation) : (ofRanges xs).isExempt v.rule v.startChar =
      decide (Exempt xs v.rule v.startChar) := by
    rw [Bool.eq_iff_iff, isExempt_ofRanges, decide_eq_true_eq]
  have hkept : (vs.filter fun v => !(ofRanges xs).isExempt v.rule v.startChar) =
      vs.filter fun v => ¬ Exempt xs v.rule v.startChar := by
    simp only [hexempt, decide_not]
  rw [filter]
  split
  · next h =>
      have hnone (v : Violation) : ¬ Exempt xs v.rule v.startChar := by
        rw [(isEmpty_ofRanges xs).mp h]
        rintro ⟨x, hx, -⟩
        cases hx
      rw [List.filter_eq_self.mpr fun v _ => decide_eq_true (hnone v),
        List.countP_eq_zero.mpr fun v _ => by simp [hnone v]]
  · have hlen := List.length_eq_countP_add_countP
      (fun v : Violation => decide (Exempt xs v.rule v.startChar)) (l := vs)
    simp only [hkept, ← List.countP_eq_length_filter, Prod.mk.injEq, true_and]
    simp only [decide_not, Bool.not_eq_true, Bool.decide_eq_false] at hlen ⊢
    omega

/-- Going through an index is going through its ranges, which may stand in any order, overlap,
touch, be doubled or end before they start.  Names are compared in any case.  A list of violations
loses exactly those that some range covers, also where the index is empty and nothing is looked
up. -/
theorem ofRanges_agrees_with_ranges (xs : List Exemption) :
    (∀ rule o, (ofRanges xs).isExempt rule o = true ↔ ∃ x ∈ xs, x.covers rule o = true) ∧
    (∀ x ∈ xs, ∀ rule o, x.covers rule o = true ↔
      x.startChar ≤ o ∧ o ≤ x.stopChar ∧ ∀ name ∈ x.key, Text.lower name = Text.lower rule) ∧
    (∀ vs, (ofRanges xs).filter vs =
      (vs.filter fun v => ¬ ∃ x ∈ xs, x.covers v.rule v.startChar = true,
        vs.countP fun v => ∃ x ∈ xs, x.covers v.rule v.startChar = true)) ∧
    ((ofRanges xs).isEmpty = true ↔ xs = []) :=
  ⟨isExempt_ofRanges xs, fun _ _ _ _ => covers_iff_lower, filter_ofRanges xs,
    isEmpty_ofRanges xs⟩

end Index

end SqlStyle.Exemption
