import SqlStyle.Proofs.Exemption.Lookup
import Mathlib

/-!
# Merged intervals are a normal form

The intervals of a merged list are the longest stretches of offsets that the list holds: none of
them goes on before its start or behind its stop.  Which stretches are longest is a matter of the
set of offsets alone, and so is the order in which they stand.  Hence two lists of intervals merge
to the same list exactly if they hold the same offsets.  An index is made of merged lists, and so
it depends on nothing but the offsets that its ranges hold for each name.
-/

namespace SqlStyle.Interval

variable {is js : List Interval} {i j : Interval}

/-! ## Longest stretches -/

/-- A stretch of offsets in a set that goes on neither before its start nor behind its stop. -/
structure Longest (S : Nat → Prop) (i : Interval) : Prop where
  start_le_stop : i.start ≤ i.stop
  mem : ∀ o ∈ i, S o
  not_before : ∀ o, o + 1 = i.start → ¬ S o
  not_behind : ¬ S (i.stop + 1)

/-- Intervals in order, none of them empty, with an offset left free between any two. -/
structure Canonical (is : List Interval) : Prop where
  start_le_stop : ∀ i ∈ is, i.start ≤ i.stop
  before : is.Pairwise Before

namespace Canonical

/-- Of two intervals in a list that is in order, one stands before the other. -/
theorem eq_or_before (h : Canonical is) (hi : i ∈ is) (hj : j ∈ is) :
    i = j ∨ Before i j ∨ Before j i := by
  let R (a b : Interval) : Prop := a = b ∨ Before a b ∨ Before b a
  have : Std.Symm R := ⟨by
    rintro a b (rfl | hab | hba)
    · exact .inl rfl
    · exact .inr (.inr hab)
    · exact .inr (.inl hba)⟩
  have hR : is.Pairwise R := h.before.imp fun hab => .inr (.inl hab)
  exact hR.forall_of_forall (fun _ _ => .inl rfl) hi hj

theorem pairwise_start_lt (h : Canonical is) : is.Pairwise fun a b => a.start < b.start := by
  refine h.before.imp_of_mem ?_
  intro a b ha _ hab
  have hle := h.start_le_stop a ha
  have hgap := hab.2
  omega

theorem nodup (h : Canonical is) : is.Nodup :=
  h.pairwise_start_lt.imp fun hlt heq => absurd (heq ▸ hlt) (Nat.lt_irrefl _)

/-- The offsets on both sides of an interval are free. -/
theorem not_covered_beside (h : Canonical is) (hi : i ∈ is) {o : Nat}
    (ho : o + 1 = i.start ∨ o = i.stop + 1) : ¬ Covered is o := by
  rintro ⟨j, hj, hstart, hstop⟩
  have hle := h.start_le_stop i hi
  rcases h.eq_or_before hi hj with rfl | hij | hji
  · omega
  · have hgap := hij.2
    omega
  · have hgap := hji.2
    omega

theorem longest_of_mem (h : Canonical is) (hi : i ∈ is) : Longest (Covered is) i where
  start_le_stop := h.start_le_stop i hi
  mem _ ho := ⟨i, hi, ho⟩
  not_before _ ho := h.not_covered_beside hi (.inl ho)
  not_behind := h.not_covered_beside hi (.inr rfl)

/-- A longest stretch is one of the intervals: the one that holds its start cannot end
elsewhere. -/
theorem mem_of_longest (h : Canonical is) (hi : Longest (Covered is) i) : i ∈ is := by
  obtain ⟨j, hj, hstart⟩ := hi.mem i.start ⟨Nat.le_refl _, hi.start_le_stop⟩
  obtain ⟨hji, hij⟩ := hstart
  have hlongest := h.longest_of_mem hj
  have hstarts : i.start = j.start := by
    by_contra hne
    refine hi.not_before (i.start - 1) (by omega) ⟨j, hj, ?_⟩
    exact ⟨by omega, by omega⟩
  have hstops : i.stop = j.stop := by
    rcases Nat.lt_trichotomy i.stop j.stop with hlt | heq | hgt
    · have hle := hi.start_le_stop
      exact absurd ⟨j, hj, by omega, hlt⟩ hi.not_behind
    · exact heq
    · exact absurd (hi.mem (j.stop + 1) ⟨by omega, hgt⟩) hlongest.not_behind
  have heq : i = j := by
    cases i
    cases j
    simp_all
  exact heq ▸ hj

theorem mem_iff_longest (h : Canonical is) : i ∈ is ↔ Longest (Covered is) i :=
  ⟨h.longest_of_mem, h.mem_of_longest⟩

/-- A canonical list is determined by the offsets that it holds. -/
theorem eq_of_covered_iff (his : Canonical is) (hjs : Canonical js)
    (h : ∀ o, Covered is o ↔ Covered js o) : is = js := by
  have hset : Covered is = Covered js := funext fun o => propext (h o)
  have hmem (i : Interval) : i ∈ is ↔ i ∈ js := by
    rw [his.mem_iff_longest, hjs.mem_iff_longest, hset]
  have hperm : is.Perm js := (List.perm_ext_iff_of_nodup his.nodup hjs.nodup).mpr hmem
  refine hperm.eq_of_pairwise ?_ his.pairwise_start_lt hjs.pairwise_start_lt
  intro a b _ _ hab hba
  exact absurd hab (Nat.lt_asymm hba)

/-- Between neighbours, the offset behind the first one is free. -/
theorem isChain_gap (h : Canonical is) :
    is.IsChain fun a b => ∃ o, a.stop < o ∧ o < b.start ∧ ¬ Covered is o := by
  refine (h.before.imp_of_mem ?_).isChain
  intro a b ha _ hab
  exact ⟨a.stop + 1, Nat.lt_succ_self _, hab.2, (h.longest_of_mem ha).not_behind⟩

end Canonical

/-! ## Merging -/

theorem start_le_stop_of_mem_absorb {cur : Interval} (hcur : cur.start ≤ cur.stop)
    (h : ∀ i ∈ is, i.start ≤ i.stop) : ∀ j ∈ absorb cur is, j.start ≤ j.stop := by
  induction is generalizing cur with
  | nil => simpa [absorb] using hcur
  | cons i rest ih =>
      obtain ⟨hi, hrest⟩ := List.forall_mem_cons.mp h
      rw [absorb]
      split
      · exact ih (Nat.le_trans hcur (Nat.le_max_left _ _)) hrest
      · exact List.forall_mem_cons.mpr ⟨hcur, ih hi hrest⟩

/-- Merging intervals that are not empty gives a canonical list. -/
theorem canonical_merge (h : ∀ i ∈ is, i.start ≤ i.stop) : Canonical (merge is) := by
  refine ⟨?_, pairwise_before_merge is⟩
  have hsorted : ∀ i ∈ is.mergeSort le, i.start ≤ i.stop :=
    fun i hi => h i (List.mem_mergeSort.mp hi)
  rw [merge]
  cases hsort : is.mergeSort le with
  | nil => exact fun i hi => absurd hi List.not_mem_nil
  | cons i rest =>
      rw [hsort] at hsorted
      obtain ⟨hi, hrest⟩ := List.forall_mem_cons.mp hsorted
      exact start_le_stop_of_mem_absorb hi hrest

/-- Merging forgets everything but the offsets. -/
theorem merge_eq_merge_iff (his : ∀ i ∈ is, i.start ≤ i.stop) (hjs : ∀ j ∈ js, j.start ≤ j.stop) :
    merge is = merge js ↔ ∀ o, Covered is o ↔ Covered js o := by
  constructor
  · intro h o
    rw [← covered_merge is, h, covered_merge js]
  · intro h
    refine (canonical_merge his).eq_of_covered_iff (canonical_merge hjs) ?_
    intro o
    rw [covered_merge, covered_merge]
    exact h o

theorem merge_merge (h : ∀ i ∈ is, i.start ≤ i.stop) : merge (merge is) = merge is :=
  (merge_eq_merge_iff (canonical_merge h).start_le_stop h).mpr (covered_merge is)

/-! ## Offsets with an upper bound -/

/-- `absorb` for offsets up to `top`, on which counting on stops. -/
def absorbUpTo (top : Nat) (cur : Interval) : List Interval → List Interval
  | [] => [cur]
  | i :: rest =>
      if i.start ≤ min (cur.stop + 1) top then
        absorbUpTo top ⟨cur.start, max cur.stop i.stop⟩ rest
      else cur :: absorbUpTo top i rest

/-- `merge` for offsets up to `top`. -/
def mergeUpTo (top : Nat) (is : List Interval) : List Interval :=
  match is.mergeSort le with
  | [] => []
  | i :: rest => absorbUpTo top i rest

theorem absorbUpTo_eq_absorb {top : Nat} (cur : Interval) (h : ∀ i ∈ is, i.start ≤ top) :
    absorbUpTo top cur is = absorb cur is := by
  induction is generalizing cur with
  | nil => rfl
  | cons i rest ih =>
      obtain ⟨hi, hrest⟩ := List.forall_mem_cons.mp h
      have htouch : i.start ≤ min (cur.stop + 1) top ↔ i.start ≤ cur.stop + 1 := by
        rw [Nat.le_min]
        exact and_iff_left hi
      simp only [absorbUpTo, absorb, htouch, ih _ hrest]

/-- No interval starts behind the last offset, so it does not matter that counting stops there. -/
theorem mergeUpTo_eq_merge {top : Nat} (h : ∀ i ∈ is, i.start ≤ top) :
    mergeUpTo top is = merge is := by
  have hsorted : ∀ i ∈ is.mergeSort le, i.start ≤ top :=
    fun i hi => h i (List.mem_mergeSort.mp hi)
  rw [mergeUpTo, merge]
  cases hsort : is.mergeSort le with
  | nil => rfl
  | cons i rest =>
      rw [hsort] at hsorted
      exact absorbUpTo_eq_absorb i (List.forall_mem_cons.mp hsorted).2

end SqlStyle.Interval

namespace SqlStyle.Exemption.Index

open SqlStyle.Interval (Covered merge mergeUpTo)

variable {xs ys : List Exemption}

/-! ## Buckets -/

theorem covered_ranges (xs : List Exemption) (name : Option String) (o : Nat) :
    Covered ((xs.filter (·.rule? == name)).map interval) o ↔
      ∃ x ∈ xs, x.rule? = name ∧ o ∈ x.interval := by
  rw [← Interval.contains_merge]
  exact contains_bucket xs name o

theorem bucket_eq_bucket_iff (hxs : ∀ x ∈ xs, x.startChar ≤ x.stopChar)
    (hys : ∀ y ∈ ys, y.startChar ≤ y.stopChar) (name : Option String) :
    bucket xs name = bucket ys name ↔
      ∀ o, (∃ x ∈ xs, x.rule? = name ∧ o ∈ x.interval) ↔
        ∃ y ∈ ys, y.rule? = name ∧ o ∈ y.interval := by
  have hproper {zs : List Exemption} (hzs : ∀ z ∈ zs, z.startChar ≤ z.stopChar) :
      ∀ i ∈ (zs.filter (·.rule? == name)).map interval, i.start ≤ i.stop := by
    intro i hi
    obtain ⟨z, hz, rfl⟩ := List.mem_map.mp hi
    exact hzs z (List.mem_of_mem_filter hz)
  simp only [bucket, Interval.merge_eq_merge_iff (hproper hxs) (hproper hys), covered_ranges]

/-- A name has a row exactly if its bucket is not empty. -/
theorem lookup_byRule (xs : List Exemption) (name : String) :
    (ofRanges xs).byRule.lookup name =
      if bucket xs (some name) = [] then none else some (bucket xs (some name)) := by
  have hrow : name ∈ (xs.filterMap rule?).eraseDups ↔ ¬ bucket xs (some name) = [] := by
    simp [bucket_eq_nil_iff]
  simp only [ofRanges, lookup_map_names, hrow, ite_not]

theorem lookup_byRule_eq_iff {name : String} :
    (ofRanges xs).byRule.lookup name = (ofRanges ys).byRule.lookup name ↔
      bucket xs (some name) = bucket ys (some name) := by
  have hgetD (zs : List Exemption) :
      ((ofRanges zs).byRule.lookup name).getD [] = bucket zs (some name) := by
    rw [lookup_byRule]
    split
    · next h => exact h.symm
    · rfl
  constructor
  · intro h
    rw [← hgetD xs, ← hgetD ys, h]
  · intro h
    rw [lookup_byRule, lookup_byRule, h]

/-- Merging brings intervals that are not empty into a normal form: sorted, none of them empty, an
offset free between neighbours, with the offsets of the input and no others, and merged already.
An upper bound on which offsets stop changes nothing.  Two lists have the same normal form exactly
if they hold the same offsets.  So the buckets of an index, for all rules and for each name, are
the same for two lists of ranges exactly if these hold the same offsets for each name; their order
does not matter, and ranges may be doubled or split. -/
theorem merge_is_normal_form :
    (∀ is : List Interval, (∀ i ∈ is, i.start ≤ i.stop) →
      (merge is).Pairwise (fun a b => a.start < b.start) ∧
      (∀ i ∈ merge is, i.start ≤ i.stop) ∧
      ((merge is).IsChain fun a b => ∃ o, a.stop < o ∧ o < b.start ∧ ¬ Covered (merge is) o) ∧
      (∀ o, Covered (merge is) o ↔ Covered is o) ∧
      merge (merge is) = merge is ∧
      ∀ top, (∀ i ∈ is, i.stop ≤ top) → mergeUpTo top is = merge is) ∧
    (∀ is js : List Interval, (∀ i ∈ is, i.start ≤ i.stop) → (∀ j ∈ js, j.start ≤ j.stop) →
      (merge is = merge js ↔ ∀ o, Covered is o ↔ Covered js o)) ∧
    (∀ xs ys : List Exemption, (∀ x ∈ xs, x.startChar ≤ x.stopChar) →
      (∀ y ∈ ys, y.startChar ≤ y.stopChar) →
      ((ofRanges xs).everywhere = (ofRanges ys).everywhere ∧
          (∀ name, (ofRanges xs).byRule.lookup name = (ofRanges ys).byRule.lookup name) ↔
        ∀ name o, (∃ x ∈ xs, x.rule? = name ∧ o ∈ x.interval) ↔
          ∃ y ∈ ys, y.rule? = name ∧ o ∈ y.interval)) := by
  refine ⟨?_, fun is js his hjs => Interval.merge_eq_merge_iff his hjs, ?_⟩
  · intro is h
    have hcanonical := Interval.canonical_merge h
    refine ⟨hcanonical.pairwise_start_lt, hcanonical.start_le_stop, hcanonical.isChain_gap,
      Interval.covered_merge is, Interval.merge_merge h, ?_⟩
    intro top htop
    exact Interval.mergeUpTo_eq_merge fun i hi => (h i hi).trans (htop i hi)
  · intro xs ys hxs hys
    simp only [lookup_byRule_eq_iff, ← bucket_eq_bucket_iff hxs hys]
    exact (Option.forall (p := fun name => bucket xs name = bucket ys name)).symm

/-- Five intervals and their two stretches, and a range that comes again split and doubled. -/
theorem normal_form_of_split_range :
    let is : List Interval := [⟨10, 20⟩, ⟨0, 5⟩, ⟨15, 30⟩, ⟨6, 8⟩, ⟨12, 12⟩]
    let js : List Interval := [⟨10, 30⟩, ⟨0, 8⟩]
    let xs : List Exemption := [⟨none, 3, 3⟩, ⟨some "Select-Star", 0, 9⟩]
    let ys : List Exemption :=
      [⟨some "SELECT-STAR", 5, 9⟩, ⟨some "select-star", 0, 4⟩, ⟨some "SELECT-STAR", 5, 9⟩,
        ⟨none, 3, 3⟩]
    (∀ i ∈ is, i.start ≤ i.stop) ∧ (∀ i ∈ js, i.start ≤ i.stop) ∧ merge is = [⟨0, 8⟩, ⟨10, 30⟩] ∧
      merge (merge is) = merge is ∧ mergeUpTo 30 is = merge is ∧
      (∀ o, Covered is o ↔ Covered js o) ∧
      (∀ name o, (∃ x ∈ xs, x.rule? = name ∧ o ∈ x.interval) ↔
        ∃ y ∈ ys, y.rule? = name ∧ o ∈ y.interval) := by
  intro is js xs ys
  obtain ⟨hshape, hsame, hindex⟩ := merge_is_normal_form
  have his : ∀ i ∈ is, i.start ≤ i.stop := by decide
  have hjs : ∀ j ∈ js, j.start ≤ j.stop := by decide
  obtain ⟨-, -, -, -, htwice, hbounded⟩ := hshape is his
  have hmerge : merge is = merge js := by cbv
  have hrows (name : String) :
      (ofRanges xs).byRule.lookup name = (ofRanges ys).byRule.lookup name := by
    have hbyRule : (ofRanges xs).byRule = (ofRanges ys).byRule := by cbv
    rw [hbyRule]
  refine ⟨his, hjs, by cbv, htwice, hbounded 30 (by decide), ?_, ?_⟩
  · exact (hsame is js his hjs).mp hmerge
  · exact (hindex xs ys (by decide) (by decide)).mp ⟨by cbv, hrows⟩

end SqlStyle.Exemption.Index
