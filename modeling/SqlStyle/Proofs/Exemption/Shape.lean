import SqlStyle.Proofs.Exemption.Meaning
import SqlStyle.Proofs.Text.Bytes

/-!
# The ranges of a file

A scan over tokens in order closes its ranges from left to right, and a range that is open starts
behind all closed ones of its key.  This is kept by every token, whatever it directs.  At the end
of the file what is still open runs to the last character, in the order of keys.
-/

namespace SqlStyle.Exemption

open Token (InOrder lastChar?)

/-! ## The order of keys -/

/-- All rules come before each single one, and single ones in the order of their names' bytes. -/
def KeyBefore : Key → Key → Prop
  | none, some _ => True
  | some a, some b => Text.bytes a < Text.bytes b
  | _, none => False

theorem keyBefore_of_keyLe {a b : Key} (hle : keyLe a b = true) (hne : a ≠ b) : KeyBefore a b := by
  cases a with
  | none =>
      cases b with
      | none => exact absurd rfl hne
      | some b => trivial
  | some a =>
      cases b with
      | none => cases hle
      | some b =>
          have hle : a ≤ b := of_decide_eq_true hle
          exact Text.bytes_lt_bytes (lt_of_le_of_ne hle fun he => hne (congrArg some he))

theorem keyLe_trans (a b c : Key) (hab : keyLe a b = true) (hbc : keyLe b c = true) :
    keyLe a c = true := by
  cases a with
  | none => rfl
  | some a =>
      cases b with
      | none => cases hab
      | some b =>
          cases c with
          | none => cases hbc
          | some c => exact decide_eq_true ((of_decide_eq_true hab).trans (of_decide_eq_true hbc))

theorem keyLe_total (a b : Key) : (keyLe a b || keyLe b a) = true := by
  cases a with
  | none => rfl
  | some a =>
      cases b with
      | none => rfl
      | some b =>
          rw [Bool.or_eq_true]
          exact (le_total a b).imp decide_eq_true decide_eq_true

namespace Scan

/-! ## One token -/

/-- A token leaves the closed ranges alone, or it switches on a key that is off and closes the
range of this key. -/
theorem closed_after_concat (ts : List Token) (t : Token) :
    (after (ts ++ [t])).closed = (after ts).closed ∨
      ∃ k n, t.Directs .enable k ∧ (after ts).since k = some n ∧
        (after (ts ++ [t])).closed = (after ts).closed ++ [⟨k, n, t.stopChar⟩] := by
  by_cases hd : ∃ a k, t.Directs a k
  · obtain ⟨a, k, hd⟩ := hd
    rw [after_concat_of_directs hd, apply]
    cases a with
    | disable =>
        cases (after ts).isOpen.lookup k with
        | none => exact .inl rfl
        | some n => exact .inl rfl
    | enable =>
        cases hn : (after ts).isOpen.lookup k with
        | none => exact .inl rfl
        | some n => exact .inr ⟨k, n, hd, hn, rfl⟩
  · rw [after_concat_of_no_directive fun a k h => hd ⟨a, k, h⟩]
    exact .inl rfl

theorem mem_closedOf_key {s : Scan} {x : Exemption} (hx : x ∈ s.closed) : x ∈ s.closedOf x.key :=
  List.mem_filter.mpr ⟨hx, beq_self_eq_true _⟩

/-! ## All tokens -/

/-- While a key is off, every comment that has switched it on lies before the offset since when
it is. -/
theorem enable_lt_since {ts : List Token} (h : InOrder ts) {k : Key} {n : Nat}
    (hn : (after ts).since k = some n) {e : Token} (he : e ∈ ts) (hdir : e.Directs .enable k) :
    e.stopChar < n := by
  induction ts using List.reverseRecOn with
  | nil => cases he
  | append_singleton ts t ih =>
      specialize ih h.left
      rcases directs_cases t k with hd | hon | hnone
      · have hmem : e ∈ ts := by
          rcases List.mem_append.mp he with he | he
          · exact he
          · exact absurd (List.mem_singleton.mp he ▸ hdir) (not_directs_enable hd)
        rw [after_concat_of_directs hd, since_apply_disable] at hn
        cases hs : (after ts).since k with
        | none =>
            rw [hs] at hn
            exact Option.some.inj hn ▸ h.stop_lt_last hmem
        | some m =>
            rw [hs] at hn
            exact ih (hs.trans hn) hmem
      · rw [after_concat_of_directs hon, since_apply_enable] at hn
        cases hn
      · rw [(after_concat_of_not_directs ts hnone).1] at hn
        rcases List.mem_append.mp he with he | he
        · exact ih hn he
        · exact absurd (List.mem_singleton.mp he ▸ hdir) (hnone .enable)

/-- While a key is off, its closed ranges lie before the offset since when it is. -/
theorem stop_lt_since {ts : List Token} (h : InOrder ts) {k : Key} {n : Nat}
    (hn : (after ts).since k = some n) {x : Exemption} (hx : x ∈ (after ts).closedOf k) :
    x.stopChar < n := by
  obtain ⟨-, e, he, hdir, hstop⟩ := exists_directs_of_mem_closedOf hx
  rw [← hstop]
  exact enable_lt_since h hn he hdir

/-- What is closed behind some tokens in order: ranges that hold an offset, each ending behind the
ones before, and starting behind those of its key. -/
structure Tidy (xs : List Exemption) : Prop where
  start_le_stop : ∀ x ∈ xs, x.startChar ≤ x.stopChar
  stops : xs.Pairwise fun x y => x.stopChar < y.stopChar
  apart : xs.Pairwise fun x y => x.key = y.key → x.stopChar < y.startChar

theorem Tidy.nil : Tidy [] where
  start_le_stop _ hx := by cases hx
  stops := .nil
  apart := .nil

/-- A range may follow if it ends behind all others and starts behind those of its key. -/
theorem Tidy.concat {xs : List Exemption} (h : Tidy xs) {y : Exemption}
    (hy : y.startChar ≤ y.stopChar) (hstop : ∀ x ∈ xs, x.stopChar < y.stopChar)
    (hapart : ∀ x ∈ xs, x.key = y.key → x.stopChar < y.startChar) : Tidy (xs ++ [y]) where
  start_le_stop x hx := by
    rcases List.mem_append.mp hx with hx | hx
    · exact h.start_le_stop x hx
    · exact List.mem_singleton.mp hx ▸ hy
  stops := List.pairwise_append.mpr ⟨h.stops, List.pairwise_singleton _ _, fun x hx z hz =>
    List.mem_singleton.mp hz ▸ hstop x hx⟩
  apart := List.pairwise_append.mpr ⟨h.apart, List.pairwise_singleton _ _, fun x hx z hz =>
    List.mem_singleton.mp hz ▸ hapart x hx⟩

theorem tidy_closed {ts : List Token} (h : InOrder ts) : Tidy (after ts).closed := by
  induction ts using List.reverseRecOn with
  | nil => exact .nil
  | append_singleton ts t ih =>
      specialize ih h.left
      rcases closed_after_concat ts t with hsame | ⟨k, n, -, hn, hnew⟩
      · rw [hsame]
        exact ih
      · have ht : t.startChar ≤ t.stopChar :=
          h.start_le_stop t (List.mem_append_right _ List.mem_cons_self)
        rw [hnew]
        refine ih.concat ?_ ?_ ?_
        · exact (since_lt_last h hn).le.trans ht
        · intro x hx
          exact (stop_lt_last h (mem_closedOf_key hx)).trans_le ht
        · rintro x hx rfl
          exact stop_lt_since h.left hn (mem_closedOf_key hx)

/-! ## What is open at the end -/

/-- The ranges that are open at the end of a file with the given last character. -/
def unterminated (s : Scan) (last : Nat) : List Exemption :=
  (s.isOpen.mergeSort fun a b => keyLe a.1 b.1).map fun (k, since) => ⟨k, since, max last since⟩

theorem since_of_mem_unterminated {s : Scan} (h : (s.isOpen.map Prod.fst).Nodup) {last : Nat}
    {x : Exemption} (hx : x ∈ s.unterminated last) :
    s.since x.key = some x.startChar ∧ x.stopChar = max last x.startChar := by
  obtain ⟨⟨k, n⟩, hp, rfl⟩ := List.mem_map.mp hx
  refine ⟨?_, rfl⟩
  have hmem : (k, n) ∈ s.isOpen.filter (·.1 == k) :=
    List.mem_filter.mpr ⟨(List.mergeSort_perm _ _).mem_iff.mp hp, beq_self_eq_true _⟩
  rw [filter_key_eq_lookup h, Option.mem_toList, Option.map_eq_some_iff] at hmem
  obtain ⟨m, hm, heq⟩ := hmem
  rw [since, hm, (Prod.mk.inj heq).2]

theorem nodup_unterminated {s : Scan} (h : (s.isOpen.map Prod.fst).Nodup) (last : Nat) :
    ((s.unterminated last).map (·.key)).Nodup := by
  rw [unterminated, List.map_map]
  exact ((List.mergeSort_perm s.isOpen _).map Prod.fst).nodup_iff.mpr h

/-- What is open is listed by keys. -/
theorem pairwise_keyBefore_unterminated {s : Scan} (h : (s.isOpen.map Prod.fst).Nodup)
    (last : Nat) : (s.unterminated last).Pairwise fun x y => KeyBefore x.key y.key := by
  have hsorted : (s.isOpen.mergeSort fun a b => keyLe a.1 b.1).Pairwise fun a b =>
      keyLe a.1 b.1 = true :=
    List.pairwise_mergeSort (fun a b c => keyLe_trans a.1 b.1 c.1)
      (fun a b => keyLe_total a.1 b.1) s.isOpen
  have hle : (s.unterminated last).Pairwise fun x y => keyLe x.key y.key = true :=
    List.pairwise_map.mpr hsorted
  have hne : (s.unterminated last).Pairwise fun x y => x.key ≠ y.key :=
    List.pairwise_map.mp (nodup_unterminated h last)
  exact (hle.and hne).imp fun hxy => keyBefore_of_keyLe hxy.1 hxy.2

end Scan

/-! ## The ranges of a scan -/

/-- The ranges of a file, those that are closed before those that are not. -/
theorem scan_eq_append (ts : List Token) :
    scan ts = (Scan.after ts).closed ++
      (Scan.after ts).unterminated ((lastChar? ts).getD 0) := rfl

/-- A closed range ends with the comment that switches its key on. -/
theorem exists_enable_of_mem_closed {ts : List Token} {x : Exemption}
    (hx : x ∈ (Scan.after ts).closed) :
    ∃ e ∈ ts, e.Directs .enable x.key ∧ e.stopChar = x.stopChar :=
  (Scan.exists_directs_of_mem_closedOf (Scan.mem_closedOf_key hx)).2

/-- A range that is not closed starts in the file, so it ends with the file. -/
theorem lastChar?_of_mem_unterminated {ts : List Token} (h : InOrder ts) {x : Exemption}
    (hx : x ∈ (Scan.after ts).unterminated ((lastChar? ts).getD 0)) :
    lastChar? ts = some x.stopChar ∧ x.startChar ≤ x.stopChar := by
  obtain ⟨hsince, hstop⟩ := Scan.since_of_mem_unterminated (Scan.nodup_keys_after ts) hx
  obtain ⟨d, hd, -, hstart⟩ := Scan.exists_directs_of_since hsince
  obtain ⟨last, hlast⟩ := Token.exists_lastChar?_of_mem hd
  have hle : x.startChar ≤ last := by
    rw [← hstart]
    exact (h.start_le_stop d hd).trans (Token.stop_le_of_lastChar? hlast hd)
  rw [hlast, Option.getD_some, Nat.max_eq_left hle] at hstop
  rw [hstop]
  exact ⟨hlast, hle⟩

/-- Closed or not, a range holds an offset and ends within the file. -/
theorem bounds_of_mem_scan {ts : List Token} (h : InOrder ts) {x : Exemption} (hx : x ∈ scan ts) :
    x.startChar ≤ x.stopChar ∧ ∃ n, lastChar? ts = some n ∧ x.stopChar ≤ n := by
  rw [scan_eq_append, List.mem_append] at hx
  rcases hx with hx | hx
  · obtain ⟨e, he, -, hstop⟩ := exists_enable_of_mem_closed hx
    obtain ⟨last, hlast⟩ := Token.exists_lastChar?_of_mem he
    refine ⟨(Scan.tidy_closed h).start_le_stop x hx, last, hlast, ?_⟩
    rw [← hstop]
    exact Token.stop_le_of_lastChar? hlast he
  · obtain ⟨hlast, hle⟩ := lastChar?_of_mem_unterminated h hx
    exact ⟨hle, x.stopChar, hlast, Nat.le_refl _⟩

/-- Ranges of one key do not overlap, and stand in the order of the text. -/
theorem pairwise_apart_scan {ts : List Token} (h : InOrder ts) :
    (scan ts).Pairwise fun x y => x.key = y.key → x.stopChar < y.startChar := by
  have hnodup := Scan.nodup_keys_after ts
  rw [scan_eq_append, List.pairwise_append]
  refine ⟨(Scan.tidy_closed h).apart, ?_, ?_⟩
  · -- two ranges that are not closed have different keys
    exact (List.pairwise_map.mp (Scan.nodup_unterminated hnodup _)).imp fun hne he => absurd he hne
  · intro x hx y hy hkey
    have hsince := (Scan.since_of_mem_unterminated hnodup hy).1
    exact Scan.stop_lt_since h (hkey ▸ hsince) (Scan.mem_closedOf_key hx)

/-- The shape of the ranges of a file whose tokens are in order.  Each runs from a comment that
switches its key off to one that switches it on or to the end of the file, and ranges of one key
follow each other without overlap.  The closed ones come first, in the order of their ends.
Behind them come those that no comment closes, at most one for a key, by keys. -/
theorem scan_ranges_shape (ts : List Token) (h : InOrder ts) :
    (∀ x ∈ scan ts, x.startChar ≤ x.stopChar ∧
      (∃ n, lastChar? ts = some n ∧ x.stopChar ≤ n) ∧
      (∃ d ∈ ts, d.Directs .disable x.key ∧ d.startChar = x.startChar) ∧
      ((∃ e ∈ ts, e.Directs .enable x.key ∧ e.stopChar = x.stopChar) ∨
        lastChar? ts = some x.stopChar)) ∧
    ((scan ts).Pairwise fun x y => x.key = y.key → x.stopChar < y.startChar) ∧
    ∃ closed unterminated, scan ts = closed ++ unterminated ∧
      (∀ x ∈ closed, ∃ e ∈ ts, e.Directs .enable x.key ∧ e.stopChar = x.stopChar) ∧
      (closed.Pairwise fun x y => x.stopChar < y.stopChar) ∧
      (∀ x ∈ unterminated, lastChar? ts = some x.stopChar ∧
        ∀ e ∈ ts, e.Directs .enable x.key → e.stopChar < x.startChar) ∧
      (unterminated.map (·.key)).Nodup ∧
      unterminated.Pairwise fun x y => KeyBefore x.key y.key := by
  have hnodup := Scan.nodup_keys_after ts
  refine ⟨?_, pairwise_apart_scan h, _, _, scan_eq_append ts,
    fun x hx => exists_enable_of_mem_closed hx, (Scan.tidy_closed h).stops, ?_,
    Scan.nodup_unterminated hnodup _, Scan.pairwise_keyBefore_unterminated hnodup _⟩
  · intro x hx
    obtain ⟨hle, hlast⟩ := bounds_of_mem_scan h hx
    refine ⟨hle, hlast, exists_directs_of_mem_scan hx, ?_⟩
    rw [scan_eq_append, List.mem_append] at hx
    rcases hx with hx | hx
    · exact .inl (exists_enable_of_mem_closed hx)
    · exact .inr (lastChar?_of_mem_unterminated h hx).1
  · intro x hx
    have hsince := (Scan.since_of_mem_unterminated hnodup hx).1
    exact ⟨(lastChar?_of_mem_unterminated h hx).1, fun e he => Scan.enable_lt_since h hsince he⟩

/-- Two keys, one of them closed and opened again. -/
theorem ranges_of_reopened_key :
    let off : Token := .place ⟨.blockComment, "/* tsqllint-disable b */"⟩ 0 1 0
    let all : Token := .place ⟨.lineComment, "-- tsqllint-disable"⟩ 24 1 24
    let on : Token := .place ⟨.blockComment, "/* tsqllint-enable B */"⟩ 43 2 0
    let again : Token := .place ⟨.blockComment, "/* tsqllint-disable b */"⟩ 66 2 23
    let ts := [off, all, on, again]
    InOrder ts ∧ scan ts = [⟨some "B", 0, 65⟩, ⟨none, 24, 89⟩, ⟨some "B", 66, 89⟩] ∧
      ((scan ts).Pairwise fun x y => x.key = y.key → x.stopChar < y.startChar) ∧
      ∀ x ∈ scan ts, ∃ n, lastChar? ts = some n ∧ x.stopChar ≤ n := by
  intro off all on again ts
  have horder : InOrder ts := ⟨by decide, by decide⟩
  obtain ⟨heach, hapart, -⟩ := scan_ranges_shape ts horder
  exact ⟨horder, by cbv, hapart, fun x hx => (heach x hx).2.1⟩

end SqlStyle.Exemption
