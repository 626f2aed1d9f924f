import SqlStyle.Path
import Mathlib

/-!
# The order of paths

Paths are compared component by component, and components by their rank, names also by their text.
So the order of paths is the order of lists over a linear order, and there is one way only to sort
paths, provided that no two of them have the same components.
-/

namespace SqlStyle.Path

namespace Component

/-- What components are compared by. -/
def key (c : Component) : ℕ ×ₗ String :=
  toLex (c.rank, match c with
    | normal name => name
    | _ => "")

theorem lt_iff_key_lt {a b : Component} : a.lt b = true ↔ a.key < b.key := by
  cases a <;> cases b <;> simp [lt, key, Prod.Lex.lt_iff, rank]

theorem key_injective : Function.Injective key := by
  intro a b h
  cases a <;> cases b <;> simp_all [key, rank]

end Component

theorem componentsLe_iff_key_le :
    (as bs : List Component) →
      (componentsLe as bs = true ↔ as.map Component.key ≤ bs.map Component.key)
  | [], bs => by simp [componentsLe, ← not_lt]
  | a :: as, [] => by simp [componentsLe, ← not_lt]
  | a :: as, b :: bs => by
      rw [componentsLe, Bool.or_eq_true, Bool.and_eq_true, beq_iff_eq,
        componentsLe_iff_key_le as bs, Component.lt_iff_key_lt, ← Component.key_injective.eq_iff,
        List.map_cons, List.map_cons, ← not_lt, ← not_lt, List.cons_lt_cons_iff]
      rcases lt_trichotomy a.key b.key with h | h | h
      · simp [h, h.not_gt, h.ne']
      · simp [h]
      · simp [h, h.not_gt, h.ne']

/-- What paths are compared by. -/
def key (path : String) : List (ℕ ×ₗ String) := (components path).map Component.key

theorem le_iff_key_le {a b : String} : le a b = true ↔ key a ≤ key b :=
  componentsLe_iff_key_le _ _

theorem key_eq_iff {a b : String} : key a = key b ↔ components a = components b :=
  Component.key_injective.list_map.eq_iff

theorem le_refl (path : String) : le path path = true := le_iff_key_le.mpr le_rfl

theorem le_trans {a b c : String} (hab : le a b = true) (hbc : le b c = true) : le a c = true :=
  le_iff_key_le.mpr ((le_iff_key_le.mp hab).trans (le_iff_key_le.mp hbc))

theorem le_total (a b : String) : le a b = true ∨ le b a = true := by
  rw [le_iff_key_le, le_iff_key_le]
  exact Std.Total.total (key a) (key b)

/-- Paths with different components stand in one order only. -/
theorem eq_of_le_of_le {files : List String} (hdistinct : (files.map components).Nodup)
    {a b : String} (ha : a ∈ files) (hb : b ∈ files) (hab : le a b = true) (hba : le b a = true) :
    a = b := by
  have hkey : key a = key b := le_antisymm (le_iff_key_le.mp hab) (le_iff_key_le.mp hba)
  exact List.inj_on_of_nodup_map hdistinct ha hb (key_eq_iff.mp hkey)

theorem pairwise_mergeSort (files : List String) :
    (files.mergeSort le).Pairwise fun a b => le a b = true := by
  refine List.pairwise_mergeSort ?_ ?_ files
  · intro a b c
    exact le_trans
  · intro a b
    rw [Bool.or_eq_true]
    exact le_total a b

/-- Sorting forgets the order in which paths come, if they have different components. -/
theorem eq_mergeSort_of_perm {files paths : List String}
    (hdistinct : (files.map components).Nodup) (hperm : paths.Perm files)
    (hordered : paths.Pairwise fun a b => le a b = true) : paths = files.mergeSort le := by
  refine List.Perm.eq_of_pairwise ?_ hordered (pairwise_mergeSort files)
    (hperm.trans (List.mergeSort_perm files le).symm)
  intro a b ha hb hab hba
  exact eq_of_le_of_le hdistinct (hperm.mem_iff.mp ha) (List.mem_mergeSort.mp hb) hab hba

/-- The first answer about sorted paths is one about a path before all others with an answer. -/
theorem exists_le_of_findSome?_mergeSort {β : Type} {f : String → Option β} {files : List String}
    {b : β} (h : (files.mergeSort le).findSome? f = some b) :
    ∃ path ∈ files, f path = some b ∧
      ∀ other ∈ files, (f other).isSome = true → le path other = true := by
  obtain ⟨front, path, rest, hsplit, hb, hfront⟩ := List.findSome?_eq_some_iff.mp h
  have hmem (other : String) : other ∈ files ↔ other ∈ front ++ path :: rest := by
    rw [← hsplit, List.mem_mergeSort]
  have hsorted := pairwise_mergeSort files
  rw [hsplit] at hsorted
  refine ⟨path, (hmem path).mpr (by simp), hb, ?_⟩
  intro other hother hsome
  rcases List.mem_append.mp ((hmem other).mp hother) with hother | hother
  · rw [hfront other hother] at hsome
    cases hsome
  · rcases List.mem_cons.mp hother with rfl | hother
    · exact le_refl other
    · exact List.rel_of_pairwise_cons (List.pairwise_append.mp hsorted).2.1 hother

theorem findSome?_mergeSort_eq_some_iff {β : Type} {f : String → Option β} {files : List String}
    {b : β} (hdistinct : (files.map components).Nodup) :
    (files.mergeSort le).findSome? f = some b ↔
      ∃ path ∈ files, f path = some b ∧
        ∀ other ∈ files, (f other).isSome = true → le path other = true := by
  refine ⟨exists_le_of_findSome?_mergeSort, ?_⟩
  rintro ⟨path, hpath, hb, hfirst⟩
  have hsome : (f path).isSome = true := Option.isSome_of_eq_some hb
  cases hfind : (files.mergeSort le).findSome? f with
  | none =>
      have hnone := List.findSome?_eq_none_iff.mp hfind path (List.mem_mergeSort.mpr hpath)
      rw [hnone] at hb
      cases hb
  | some c =>
      obtain ⟨other, hother, hc, hleast⟩ := exists_le_of_findSome?_mergeSort hfind
      have heq : path = other :=
        eq_of_le_of_le hdistinct hpath hother (hfirst other hother (Option.isSome_of_eq_some hc))
          (hleast path hpath hsome)
      rw [← hb, ← hc, heq]

end SqlStyle.Path
