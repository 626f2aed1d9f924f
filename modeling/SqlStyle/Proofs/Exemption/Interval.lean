import SqlStyle.Exemption.Interval
import Mathlib.Data.List.TakeWhile

/-!
# Merged intervals

Merging keeps the set of offsets, and leaves a gap between neighbours.  The gap is what lets a
lookup stop at the one interval it finds: every interval before that one ends too early, and every
interval behind it starts too late.  Intervals that end before they start are allowed throughout;
they hold no offset, and the order of the starts is all that is asked of them.
-/

namespace SqlStyle.Interval

/-- The offsets of an interval are those between its ends. -/
instance : Membership Nat Interval := ⟨fun i o => i.start ≤ o ∧ o ≤ i.stop⟩

theorem mem_iff {i : Interval} {o : Nat} : o ∈ i ↔ i.start ≤ o ∧ o ≤ i.stop := Iff.rfl

/-- An offset lies in some interval of a list. -/
def Covered (is : List Interval) (o : Nat) : Prop := ∃ i ∈ is, o ∈ i

@[simp] theorem not_covered_nil (o : Nat) : ¬ Covered [] o := by
  rintro ⟨i, hi, -⟩
  cases hi

@[simp] theorem covered_cons {i : Interval} {is : List Interval} {o : Nat} :
    Covered (i :: is) o ↔ o ∈ i ∨ Covered is o := by
  simp [Covered]

/-- Coverage does not look at the order of the intervals. -/
theorem covered_perm {is js : List Interval} (h : is.Perm js) (o : Nat) :
    Covered is o ↔ Covered js o := by
  simp only [Covered, h.mem_iff]

/-! ## Sorting -/

theorem le_iff {a b : Interval} :
    le a b = true ↔ a.start < b.start ∨ a.start = b.start ∧ a.stop ≤ b.stop := by
  simp [le]

/-- The order by start, then by stop, is total and transitive, so the sorted list is in order. -/
theorem pairwise_le_mergeSort (is : List Interval) :
    (is.mergeSort le).Pairwise fun a b => le a b = true := by
  refine List.pairwise_mergeSort ?_ ?_ is
  · intro a b c hab hbc
    rw [le_iff] at hab hbc ⊢
    omega
  · intro a b
    rw [Bool.or_eq_true, le_iff, le_iff]
    omega

theorem start_le_of_le {a b : Interval} (h : le a b = true) : a.start ≤ b.start := by
  rw [le_iff] at h
  omega

theorem pairwise_start_mergeSort (is : List Interval) :
    (is.mergeSort le).Pairwise fun a b => a.start ≤ b.start :=
  (pairwise_le_mergeSort is).imp start_le_of_le

/-! ## Joining neighbours -/

/-- The interval `a` starts no later than `b` and leaves an offset free before it. -/
def Before (a b : Interval) : Prop := a.start ≤ b.start ∧ a.stop + 1 < b.start

/-- Joining two intervals that overlap or touch adds no offset and loses none.  An interval that
holds no offset can only be joined where it changes nothing. -/
theorem mem_join_iff {a b : Interval} (hs : a.start ≤ b.start) (ht : b.start ≤ a.stop + 1)
    (o : Nat) : o ∈ (⟨a.start, max a.stop b.stop⟩ : Interval) ↔ o ∈ a ∨ o ∈ b := by
  simp only [mem_iff]
  omega

/-- Sorted starts are kept when the first two intervals are joined. -/
theorem pairwise_start_join {a b : Interval} {is : List Interval}
    (h : (a :: b :: is).Pairwise fun a b => a.start ≤ b.start) :
    ((⟨a.start, max a.stop b.stop⟩ : Interval) :: is).Pairwise fun a b => a.start ≤ b.start := by
  rw [List.pairwise_cons] at h ⊢
  refine ⟨fun i hi => h.1 i (List.mem_cons_of_mem b hi), ?_⟩
  exact (List.pairwise_cons.mp h.2).2

theorem covered_absorb {cur : Interval} {is : List Interval}
    (h : (cur :: is).Pairwise fun a b => a.start ≤ b.start) (o : Nat) :
    Covered (absorb cur is) o ↔ Covered (cur :: is) o := by
  induction is generalizing cur with
  | nil => rfl
  | cons i rest ih =>
      have hci : cur.start ≤ i.start := (List.pairwise_cons.mp h).1 i List.mem_cons_self
      rw [absorb]
      split
      · next ht =>
          rw [ih (pairwise_start_join h), covered_cons, mem_join_iff hci ht, covered_cons,
            covered_cons, or_assoc]
      · rw [covered_cons, ih (List.pairwise_cons.mp h).2, covered_cons (i := cur)]

/-- No interval of the joined list starts before the first one of the sorted list. -/
theorem start_le_of_mem_absorb {cur : Interval} {is : List Interval}
    (h : (cur :: is).Pairwise fun a b => a.start ≤ b.start) {j : Interval}
    (hj : j ∈ absorb cur is) : cur.start ≤ j.start := by
  induction is generalizing cur with
  | nil =>
      rw [absorb, List.mem_singleton] at hj
      exact hj ▸ Nat.le_refl _
  | cons i rest ih =>
      rw [absorb] at hj
      split at hj
      · simpa using ih (pairwise_start_join h) hj
      · rcases List.mem_cons.mp hj with rfl | hj
        · exact Nat.le_refl _
        · have hci : cur.start ≤ i.start := (List.pairwise_cons.mp h).1 i List.mem_cons_self
          exact Nat.le_trans hci (ih (List.pairwise_cons.mp h).2 hj)

theorem pairwise_before_absorb {cur : Interval} {is : List Interval}
    (h : (cur :: is).Pairwise fun a b => a.start ≤ b.start) :
    (absorb cur is).Pairwise Before := by
  induction is generalizing cur with
  | nil => exact List.pairwise_singleton _ _
  | cons i rest ih =>
      rw [absorb]
      split
      · exact ih (pairwise_start_join h)
      · next ht =>
          have hci : cur.start ≤ i.start := (List.pairwise_cons.mp h).1 i List.mem_cons_self
          have htail := (List.pairwise_cons.mp h).2
          refine List.pairwise_cons.mpr ⟨?_, ih htail⟩
          intro j hj
          have hij : i.start ≤ j.start := start_le_of_mem_absorb htail hj
          exact ⟨by omega, by omega⟩

/-! ## Merging -/

/-- Merging keeps exactly the offsets of a list of intervals. -/
theorem covered_merge (is : List Interval) (o : Nat) : Covered (merge is) o ↔ Covered is o := by
  have hs := pairwise_start_mergeSort is
  rw [← covered_perm (List.mergeSort_perm is le), merge]
  cases h : is.mergeSort le with
  | nil => rfl
  | cons i rest => exact covered_absorb (h ▸ hs) o

/-- Merged intervals stand in order with gaps between them. -/
theorem pairwise_before_merge (is : List Interval) : (merge is).Pairwise Before := by
  have hs := pairwise_start_mergeSort is
  rw [merge]
  cases h : is.mergeSort le with
  | nil => exact List.Pairwise.nil
  | cons i rest => exact pairwise_before_absorb (h ▸ hs)

theorem absorb_ne_nil (cur : Interval) (is : List Interval) : absorb cur is ≠ [] := by
  induction is generalizing cur with
  | nil => simp [absorb]
  | cons i rest ih =>
      rw [absorb]
      split
      · exact ih _
      · exact List.cons_ne_nil _ _

@[simp] theorem merge_eq_nil_iff {is : List Interval} : merge is = [] ↔ is = [] := by
  have hlen : (is.mergeSort le).length = is.length := List.length_mergeSort is
  rw [merge, ← List.length_eq_zero_iff (l := is), ← hlen, List.length_eq_zero_iff]
  cases is.mergeSort le with
  | nil => simp [coalesce]
  | cons i rest => simp [coalesce, absorb_ne_nil]

/-! ## Looking up an offset -/

/-- What starts behind an offset is not looked at. -/
theorem contains_cons_of_lt {i : Interval} {is : List Interval} {o : Nat} (h : o < i.start) :
    contains (i :: is) o = false := by
  have hn : ¬ i.start ≤ o := by omega
  simp [contains, hn]

/-- The last interval that starts at or before an offset decides. -/
theorem contains_cons_of_le {i : Interval} {is : List Interval} {o : Nat} (h : i.start ≤ o) :
    contains (i :: is) o =
      if is.takeWhile (·.start ≤ o) = [] then decide (o ≤ i.stop) else contains is o := by
  rw [contains, List.takeWhile_cons_of_pos (by simpa using h)]
  cases ht : is.takeWhile (·.start ≤ o) with
  | nil => simp
  | cons j js => simp [contains, ht, List.getLast?_cons_cons]

/-- On merged intervals, the one interval that is looked at decides for all of them. -/
theorem contains_iff_covered {is : List Interval} (h : is.Pairwise Before) (o : Nat) :
    contains is o = true ↔ Covered is o := by
  induction is with
  | nil => simp [contains]
  | cons i rest ih =>
      have hbefore := (List.pairwise_cons.mp h).1
      specialize ih (List.pairwise_cons.mp h).2
      by_cases hio : i.start ≤ o
      · rw [contains_cons_of_le hio, covered_cons]
        cases ht : rest.takeWhile (·.start ≤ o) with
        | nil =>
            -- nothing else starts early enough, so `i` is the only candidate
            have hrest : ¬ Covered rest o := by
              rw [← ih, contains, ht]
              simp
            simp [hrest, mem_iff, hio]
        | cons j js =>
            -- `j` starts early enough, and `i` ends before `j` starts
            have hj : j ∈ rest.takeWhile (·.start ≤ o) := ht ▸ List.mem_cons_self
            have hjo : j.start ≤ o := by simpa using List.mem_takeWhile_imp hj
            have hij : i.stop + 1 < j.start := (hbefore j (List.takeWhile_subset _ hj)).2
            have hi : ¬ o ∈ i := fun hi => by
              have := hi.2
              omega
            simp [hi, ih]
      · rw [contains_cons_of_lt (Nat.lt_of_not_le hio), covered_cons]
        simp only [Bool.false_eq_true, false_iff, not_or]
        refine ⟨fun hi => hio hi.1, ?_⟩
        rintro ⟨j, hj, hjo⟩
        exact hio (Nat.le_trans (hbefore j hj).1 hjo.1)

/-- Looking an offset up in the merged intervals of a list tells whether the list covers it. -/
theorem contains_merge (is : List Interval) (o : Nat) :
    contains (merge is) o = true ↔ Covered is o :=
  (contains_iff_covered (pairwise_before_merge is) o).trans (covered_merge is o)

end SqlStyle.Interval
