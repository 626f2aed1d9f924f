import SqlStyle.Report
import Mathlib

/-!
# The order of a report

A report lists its diagnostics by line and column, and those at one place in the order in which
they came.  This determines the list, so two reports can be compared without looking at how either
was sorted; in particular, sorting and leaving out diagnostics can be exchanged.
-/

namespace SqlStyle.Report

/-- The diagnostic stands at the given place. -/
def At (line column : Nat) (d : Diagnostic) : Prop := d.line = line ∧ d.column = column

instance (line column : Nat) : DecidablePred (At line column) :=
  fun d => inferInstanceAs (Decidable (d.line = line ∧ d.column = column))

theorem placeLe_iff {a b : Diagnostic} :
    placeLe a b = true ↔ a.line < b.line ∨ a.line = b.line ∧ a.column ≤ b.column := by
  simp [placeLe]

theorem placeLe_refl (d : Diagnostic) : placeLe d d = true :=
  placeLe_iff.mpr (.inr ⟨rfl, Nat.le_refl _⟩)

theorem placeLe_trans (a b c : Diagnostic) (hab : placeLe a b = true) (hbc : placeLe b c = true) :
    placeLe a c = true := by
  rw [placeLe_iff] at hab hbc ⊢
  omega

theorem placeLe_total (a b : Diagnostic) : (placeLe a b || placeLe b a) = true := by
  rw [Bool.or_eq_true, placeLe_iff, placeLe_iff]
  omega

/-- Two diagnostics that stand neither behind the other stand at one place. -/
theorem at_of_placeLe {a b : Diagnostic} (hab : placeLe a b = true) (hba : placeLe b a = true) :
    At a.line a.column b := by
  rw [placeLe_iff] at hab hba
  exact ⟨by omega, by omega⟩

theorem at_self (d : Diagnostic) : At d.line d.column d := ⟨rfl, rfl⟩

/-- The list `sorted` holds the diagnostics `ds` by line and column, and those at one place in
the order of `ds`. -/
structure StableOrder (ds sorted : List Diagnostic) : Prop where
  perm : sorted.Perm ds
  ordered : sorted.Pairwise fun a b => a.line < b.line ∨ a.line = b.line ∧ a.column ≤ b.column
  stable : ∀ line column, sorted.filter (At line column ·) = ds.filter (At line column ·)

/-! ## There is one such order

Place by place, part of a list in this order can be told from the two lists alone. -/

/-- What is at each place part of another list is in that list. -/
theorem mem_of_filter_at_sublist {s t : List Diagnostic}
    (h : ∀ line column, (s.filter (At line column ·)).Sublist (t.filter (At line column ·)))
    {d : Diagnostic} (hd : d ∈ s) : d ∈ t := by
  have hmem : d ∈ s.filter (At d.line d.column ·) :=
    List.mem_filter.mpr ⟨hd, decide_eq_true (at_self d)⟩
  exact (List.mem_filter.mp ((h d.line d.column).subset hmem)).1

/-- The first of two lists in place order is part of the other if it is so at each place. -/
theorem sublist_of_filter_at_sublist {s t : List Diagnostic} (hs : s.Pairwise (placeLe · · = true))
    (ht : t.Pairwise (placeLe · · = true))
    (h : ∀ line column, (s.filter (At line column ·)).Sublist (t.filter (At line column ·))) :
    s.Sublist t := by
  induction t generalizing s with
  | nil =>
      have hnil : s = [] := by
        rw [List.eq_nil_iff_forall_not_mem]
        intro d hd
        cases mem_of_filter_at_sublist h hd
      rw [hnil]
  | cons b t ih =>
      have hhere := h b.line b.column
      rw [List.filter_cons_of_pos (l := t) (decide_eq_true (at_self b)),
        List.sublist_cons_iff] at hhere
      rcases hhere with hskip | ⟨r, hr, hrest⟩
      · -- `b` is passed over
        refine (ih hs (List.pairwise_cons.mp ht).2 ?_).cons b
        intro line column
        by_cases hb : At line column b
        · obtain ⟨rfl, rfl⟩ := hb
          exact hskip
        · have hplace := h line column
          rwa [List.filter_cons_of_neg (l := t) (by simpa using hb)] at hplace
      · -- `b` is the first at its place in both lists, so it is the first in `s`
        have hbs : b ∈ s := (List.mem_filter.mp (hr ▸ List.mem_cons_self)).1
        cases s with
        | nil => cases hbs
        | cons a s =>
            have hab : placeLe a b = true := by
              rcases List.mem_cons.mp hbs with rfl | hb
              · exact placeLe_refl _
              · exact (List.pairwise_cons.mp hs).1 b hb
            have hba : placeLe b a = true := by
              rcases List.mem_cons.mp (mem_of_filter_at_sublist h List.mem_cons_self) with rfl | ha
              · exact placeLe_refl _
              · exact (List.pairwise_cons.mp ht).1 a ha
            rw [List.filter_cons, if_pos (decide_eq_true (at_of_placeLe hba hab)),
              List.cons.injEq] at hr
            obtain ⟨rfl, rfl⟩ := hr
            refine (ih (List.pairwise_cons.mp hs).2 (List.pairwise_cons.mp ht).2 ?_).cons_cons a
            intro line column
            by_cases ha : At line column a
            · obtain ⟨rfl, rfl⟩ := ha
              exact hrest
            · have hplace := h line column
              rwa [List.filter_cons_of_neg (by simpa using ha),
                List.filter_cons_of_neg (by simpa using ha)] at hplace

namespace StableOrder

theorem pairwise_placeLe {ds sorted : List Diagnostic} (h : StableOrder ds sorted) :
    sorted.Pairwise (placeLe · · = true) :=
  h.ordered.imp placeLe_iff.mpr

/-- Part of the diagnostics is, in place order, part of what all of them are. -/
theorem sublist {ds es s t : List Diagnostic} (hs : StableOrder ds s) (ht : StableOrder es t)
    (h : ds.Sublist es) : s.Sublist t := by
  refine sublist_of_filter_at_sublist hs.pairwise_placeLe ht.pairwise_placeLe ?_
  intro line column
  rw [hs.stable, ht.stable]
  exact h.filter _

theorem unique {ds s t : List Diagnostic} (hs : StableOrder ds s) (ht : StableOrder ds t) :
    s = t :=
  (hs.sublist ht (.refl ds)).antisymm (ht.sublist hs (.refl ds))

/-- Leaving out diagnostics keeps the order of the others. -/
theorem filter {ds sorted : List Diagnostic} (h : StableOrder ds sorted) (p : Diagnostic → Bool) :
    StableOrder (ds.filter p) (sorted.filter p) where
  perm := h.perm.filter p
  ordered := h.ordered.filter p
  stable line column := by
    rw [List.filter_comm, h.stable, List.filter_comm]

end StableOrder

/-! ## Reports are in that order -/

/-- What stands at one place is a sorted part of the list already, and sorting keeps such parts. -/
theorem filter_at_mergeSort (ds : List Diagnostic) (line column : Nat) :
    (ds.mergeSort placeLe).filter (At line column ·) = ds.filter (At line column ·) := by
  have hsorted : (ds.filter (At line column ·)).Pairwise (placeLe · · = true) := by
    refine List.Pairwise.imp_of_mem ?_ (List.pairwise_of_forall fun _ _ => trivial)
    intro a b ha hb _
    have ha := of_decide_eq_true (List.mem_filter.mp ha).2
    have hb := of_decide_eq_true (List.mem_filter.mp hb).2
    rw [placeLe_iff, ha.1, ha.2, hb.1, hb.2]
    exact .inr ⟨rfl, Nat.le_refl _⟩
  have hsub : (ds.filter (At line column ·)).Sublist (ds.mergeSort placeLe) :=
    List.sublist_mergeSort placeLe_trans placeLe_total hsorted List.filter_sublist
  have hsub' := hsub.filter (At line column ·)
  rw [List.filter_filter] at hsub'
  simp only [Bool.and_self] at hsub'
  have hlen := ((List.mergeSort_perm ds placeLe).filter (At line column ·)).length_eq
  exact (hsub'.eq_of_length hlen.symm).symm

theorem stableOrder_mergeSort (ds : List Diagnostic) :
    StableOrder ds (ds.mergeSort placeLe) where
  perm := List.mergeSort_perm ds placeLe
  ordered := (List.pairwise_mergeSort placeLe_trans placeLe_total ds).imp placeLe_iff.mp
  stable := filter_at_mergeSort ds

theorem stableOrder_ofDiagnostics (ds : List Diagnostic) (suppressed : Nat) :
    StableOrder ds (ofDiagnostics ds suppressed).diagnostics :=
  stableOrder_mergeSort ds

/-- A report of some of the diagnostics lists what the report of all of them lists, less the
others. -/
theorem filter_diagnostics (ds : List Diagnostic) (p : Diagnostic → Bool) (n m : Nat) :
    (ofDiagnostics (ds.filter p) n).diagnostics = (ofDiagnostics ds m).diagnostics.filter p :=
  (stableOrder_ofDiagnostics (ds.filter p) n).unique ((stableOrder_ofDiagnostics ds m).filter p)

end SqlStyle.Report
