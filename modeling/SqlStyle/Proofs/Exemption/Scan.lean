import SqlStyle.Proofs.Exemption.Lookup
import SqlStyle.Proofs.Token

/-!
# Following directives

A scan keeps, for each key, since when it is off, and the ranges that are closed.  What a comment
does to one key depends on what the scan knows of that key and on nothing else, so a scan is
understood key by key.  For tokens in order this gives the meaning of directives at one offset:
a key is off where some directive before has switched it off, and no directive that ends before
the offset has switched it on since.
-/

namespace SqlStyle

namespace Directive

/-- A directive that is found stands at the front of some part of the text. -/
theorem exists_here?_of_find? {before : Option Char} {cs : List Char} {d : Directive}
    (h : find? before cs = some d) : ∃ part, here? part = some d := by
  induction cs generalizing before with
  | nil => cases h
  | cons c cs ih =>
      rw [find?] at h
      cases hb : behind? before (c :: cs) with
      | none =>
          rw [hb] at h
          exact ih h
      | some d' =>
          rw [hb] at h
          rw [behind?] at hb
          split at hb
          · cases hb
          · exact ⟨c :: cs, hb.trans h⟩

theorem exists_keyOf_of_here? {cs : List Char} {d : Directive} (h : here? cs = some d) :
    ∃ tail, d.key = keyOf tail := by
  rw [here?] at h
  split at h
  · cases h
  · split at h
    · next tail _ =>
        cases h
        exact ⟨tail, rfl⟩
    · split at h
      · next tail _ =>
          cases h
          exact ⟨tail, rfl⟩
      · cases h

theorem map_upper_keyOf (cs : List Char) : (keyOf cs).map Text.upper = keyOf cs := by
  rw [keyOf]
  split
  · rfl
  · rw [Option.map_some, Text.upper_upper]

/-- The names of directives are in upper case. -/
theorem map_upper_key_of_parse {comment : String} {d : Directive} (h : parse comment = some d) :
    d.key.map Text.upper = d.key := by
  obtain ⟨part, hpart⟩ := exists_here?_of_find? h
  obtain ⟨tail, htail⟩ := exists_keyOf_of_here? hpart
  rw [htail, map_upper_keyOf]

end Directive

/-- A comment that holds a directive for a key. -/
def Token.Directs (t : Token) (a : Action) (k : Key) : Prop :=
  t.isComment = true ∧ Directive.parse t.text = some ⟨a, k⟩

instance (t : Token) (a : Action) (k : Key) : Decidable (t.Directs a k) :=
  inferInstanceAs (Decidable (t.isComment = true ∧ Directive.parse t.text = some ⟨a, k⟩))

theorem Token.not_directs_of_parse {t : Token} {a : Action} {k : Key}
    (h : Directive.parse t.text = none) : ¬ t.Directs a k := by
  rintro ⟨-, hd⟩
  rw [h] at hd
  cases hd

/-- A comment directs one key. -/
theorem Token.Directs.key_eq {t : Token} {a a' : Action} {k k' : Key} (h : t.Directs a k)
    (h' : t.Directs a' k') : k = k' := by
  cases h.2.symm.trans h'.2
  rfl

namespace Exemption

namespace Scan

/-! ## One key of a scan -/

/-- The offset since when a key is off. -/
def since (s : Scan) (k : Key) : Option Nat := s.isOpen.lookup k

/-- The closed ranges of a key. -/
def closedOf (s : Scan) (k : Key) : List Exemption := s.closed.filter (·.key == k)

theorem lookup_filter_self (xs : Open) (k : Key) : (xs.filter (·.1 != k)).lookup k = none := by
  rw [List.lookup_eq_none_iff]
  intro p hp
  have hne := (List.mem_filter.mp hp).2
  rw [bne_iff_ne] at hne ⊢
  exact hne.symm

theorem lookup_filter_of_ne (xs : Open) {k k' : Key} (h : k' ≠ k) :
    (xs.filter (·.1 != k)).lookup k' = xs.lookup k' := by
  induction xs with
  | nil => rfl
  | cons x xs ih =>
      by_cases hx : x.1 = k
      · have hk' : (k' == x.1) = false := beq_false_of_ne (hx ▸ h)
        rw [List.filter_cons_of_neg (by simp [hx]), ih, List.lookup_cons, hk']
      · rw [List.filter_cons_of_pos (by simp [hx]), List.lookup_cons, List.lookup_cons, ih]

/-- Switching a key off keeps the older start, if there is one. -/
theorem since_apply_disable (s : Scan) (t : Token) (k : Key) :
    (s.apply t ⟨.disable, k⟩).since k = some ((s.since k).getD t.startChar) := by
  simp only [apply, since]
  cases h : s.isOpen.lookup k with
  | none => simp [List.lookup_append, h]
  | some n => exact h

theorem since_apply_enable (s : Scan) (t : Token) (k : Key) :
    (s.apply t ⟨.enable, k⟩).since k = none := by
  simp only [apply, since]
  cases h : s.isOpen.lookup k with
  | none => exact h
  | some n => exact lookup_filter_self s.isOpen k

/-- A directive leaves every other key as it is. -/
theorem since_apply_of_ne (s : Scan) (t : Token) {d : Directive} {k : Key} (h : k ≠ d.key) :
    (s.apply t d).since k = s.since k := by
  have hb : (k == d.key) = false := beq_false_of_ne h
  simp only [apply, since]
  split
  · simp [List.lookup_append, List.lookup_cons, hb]
  · rfl
  · rfl
  · exact lookup_filter_of_ne s.isOpen h

theorem closedOf_apply_disable (s : Scan) (t : Token) (k k' : Key) :
    (s.apply t ⟨.disable, k⟩).closedOf k' = s.closedOf k' := by
  simp only [apply, closedOf]
  cases s.isOpen.lookup k <;> rfl

/-- Switching a key on closes the range that is open, if there is one. -/
theorem closedOf_apply_enable (s : Scan) (t : Token) (k : Key) :
    (s.apply t ⟨.enable, k⟩).closedOf k =
      s.closedOf k ++ ((s.since k).map (⟨k, ·, t.stopChar⟩)).toList := by
  simp only [apply, closedOf, since]
  cases h : s.isOpen.lookup k with
  | none => simp
  | some n => simp

theorem closedOf_apply_of_ne (s : Scan) (t : Token) {d : Directive} {k : Key} (h : k ≠ d.key) :
    (s.apply t d).closedOf k = s.closedOf k := by
  have hb : (d.key == k) = false := beq_false_of_ne h.symm
  simp only [apply, closedOf]
  split <;> simp [hb]

/-! ## A scan over tokens -/

/-- How far a scan has come behind some tokens. -/
def after (ts : List Token) : Scan := (Token.comments ts).foldl step start

theorem after_append (ts us : List Token) :
    after (ts ++ us) = (Token.comments us).foldl step (after ts) := by
  rw [after, Token.comments, List.filter_append, List.foldl_append]
  rfl

theorem after_concat_of_directs {ts : List Token} {t : Token} {a : Action} {k : Key}
    (h : t.Directs a k) : after (ts ++ [t]) = (after ts).apply t ⟨a, k⟩ := by
  rw [after_append, Token.comments, List.filter_cons_of_pos h.1]
  simp only [List.filter_nil, List.foldl_cons, List.foldl_nil, step, h.2]

theorem after_concat_of_no_directive {ts : List Token} {t : Token}
    (h : ∀ a k, ¬ t.Directs a k) : after (ts ++ [t]) = after ts := by
  rw [after_append, Token.comments]
  by_cases hc : t.isComment = true
  · rw [List.filter_cons_of_pos hc]
    simp only [List.filter_nil, List.foldl_cons, List.foldl_nil, step]
    split
    · next d hd => exact absurd ⟨hc, hd⟩ (h d.action d.key)
    · rfl
  · rw [List.filter_cons_of_neg hc]
    rfl

/-- A token switches a key off, or on, or leaves it alone. -/
theorem directs_cases (t : Token) (k : Key) :
    t.Directs .disable k ∨ t.Directs .enable k ∨ ∀ a, ¬ t.Directs a k := by
  by_cases hd : t.Directs .disable k
  · exact .inl hd
  · by_cases he : t.Directs .enable k
    · exact .inr (.inl he)
    · refine .inr (.inr ?_)
      intro a
      cases a with
      | disable => exact hd
      | enable => exact he

/-- One token holds one directive. -/
theorem not_directs_enable {t : Token} {k k' : Key} (h : t.Directs .disable k) :
    ¬ t.Directs .enable k' := by
  intro h'
  have := h.2.symm.trans h'.2
  cases this

/-- A token that leaves a key alone changes nothing about it. -/
theorem after_concat_of_not_directs (ts : List Token) {t : Token} {k : Key}
    (h : ∀ a, ¬ t.Directs a k) :
    (after (ts ++ [t])).since k = (after ts).since k ∧
      (after (ts ++ [t])).closedOf k = (after ts).closedOf k := by
  by_cases hd : ∃ a k', t.Directs a k'
  · obtain ⟨a, k', hd⟩ := hd
    have hne : k ≠ k' := fun he => h a (he ▸ hd)
    rw [after_concat_of_directs hd]
    exact ⟨since_apply_of_ne (after ts) t hne, closedOf_apply_of_ne (after ts) t hne⟩
  · rw [after_concat_of_no_directive fun a k' h' => hd ⟨a, k', h'⟩]
    exact ⟨rfl, rfl⟩

/-- A key is off since a directive that switches it off. -/
theorem exists_directs_of_since {ts : List Token} {k : Key} {n : Nat}
    (h : (after ts).since k = some n) : ∃ d ∈ ts, d.Directs .disable k ∧ d.startChar = n := by
  induction ts using List.reverseRecOn with
  | nil => cases h
  | append_singleton ts t ih =>
      have hold : (after ts).since k = some n →
          ∃ d ∈ ts ++ [t], d.Directs .disable k ∧ d.startChar = n := fun h => by
        obtain ⟨d, hd, hdir⟩ := ih h
        exact ⟨d, List.mem_append_left _ hd, hdir⟩
      rcases directs_cases t k with hd | he | hn
      · rw [after_concat_of_directs hd, since_apply_disable] at h
        cases hs : (after ts).since k with
        | none =>
            rw [hs] at h
            exact ⟨t, List.mem_append_right _ List.mem_cons_self, hd, Option.some.inj h⟩
        | some m =>
            rw [hs] at h
            exact hold (hs.trans h)
      · rw [after_concat_of_directs he, since_apply_enable] at h
        cases h
      · rw [(after_concat_of_not_directs ts hn).1] at h
        exact hold h

/-- A closed range runs from a directive that switches its key off to one that switches it on. -/
theorem exists_directs_of_mem_closedOf {ts : List Token} {k : Key} {x : Exemption}
    (h : x ∈ (after ts).closedOf k) :
    (∃ d ∈ ts, d.Directs .disable k ∧ d.startChar = x.startChar) ∧
      ∃ e ∈ ts, e.Directs .enable k ∧ e.stopChar = x.stopChar := by
  induction ts using List.reverseRecOn with
  | nil => cases h
  | append_singleton ts t ih =>
      have hold : x ∈ (after ts).closedOf k →
          (∃ d ∈ ts ++ [t], d.Directs .disable k ∧ d.startChar = x.startChar) ∧
            ∃ e ∈ ts ++ [t], e.Directs .enable k ∧ e.stopChar = x.stopChar := fun h => by
        obtain ⟨⟨d, hd, hdir⟩, e, he, hedir⟩ := ih h
        exact ⟨⟨d, List.mem_append_left _ hd, hdir⟩, e, List.mem_append_left _ he, hedir⟩
      rcases directs_cases t k with hd | he | hn
      · rw [after_concat_of_directs hd, closedOf_apply_disable] at h
        exact hold h
      · rw [after_concat_of_directs he, closedOf_apply_enable, List.mem_append] at h
        rcases h with h | h
        · exact hold h
        · rw [Option.mem_toList, Option.map_eq_some_iff] at h
          obtain ⟨n, hn, rfl⟩ := h
          obtain ⟨d, hd, hdir⟩ := exists_directs_of_since hn
          exact ⟨⟨d, List.mem_append_left _ hd, hdir⟩, t,
            List.mem_append_right _ List.mem_cons_self, he, rfl⟩
      · rw [(after_concat_of_not_directs ts hn).2] at h
        exact hold h

/-! ## The ranges of one key -/

theorem nodup_keys_apply (s : Scan) (t : Token) (d : Directive)
    (h : (s.isOpen.map Prod.fst).Nodup) : ((s.apply t d).isOpen.map Prod.fst).Nodup := by
  simp only [apply]
  split
  · next hnone =>
      rw [List.map_append, List.nodup_append]
      refine ⟨h, List.nodup_singleton _, ?_⟩
      intro k hk k' hk' he
      obtain ⟨p, hp, rfl⟩ := List.mem_map.mp hk
      rw [List.map_singleton, List.mem_singleton] at hk'
      have hne := List.lookup_eq_none_iff.mp hnone p hp
      rw [bne_iff_ne] at hne
      exact hne (hk'.symm.trans he.symm)
  · exact h
  · exact h
  · exact h.sublist (List.filter_sublist.map Prod.fst)

/-- A scan holds no key twice. -/
theorem nodup_keys_after (ts : List Token) : ((after ts).isOpen.map Prod.fst).Nodup := by
  induction ts using List.reverseRecOn with
  | nil => exact List.nodup_nil
  | append_singleton ts t ih =>
      by_cases hd : ∃ a k, t.Directs a k
      · obtain ⟨a, k, hd⟩ := hd
        rw [after_concat_of_directs hd]
        exact nodup_keys_apply (after ts) t ⟨a, k⟩ ih
      · rw [after_concat_of_no_directive fun a k h => hd ⟨a, k, h⟩]
        exact ih

/-- Without doubled keys, the pairs of a key are what a lookup finds. -/
theorem filter_key_eq_lookup {xs : Open} (h : (xs.map Prod.fst).Nodup) (k : Key) :
    xs.filter (·.1 == k) = ((xs.lookup k).map (k, ·)).toList := by
  induction xs with
  | nil => rfl
  | cons x xs ih =>
      obtain ⟨k', n⟩ := x
      rw [List.map_cons, List.nodup_cons] at h
      by_cases hk : k' = k
      · subst hk
        have hnone : xs.filter (·.1 == k') = [] := by
          rw [List.filter_eq_nil_iff]
          intro p hp hpk
          have hmem : p.1 ∈ xs.map Prod.fst := List.mem_map_of_mem hp
          rw [eq_of_beq hpk] at hmem
          exact h.1 hmem
        simp [hnone]
      · have hb : (k == k') = false := beq_false_of_ne fun he => hk he.symm
        rw [List.filter_cons_of_neg (by simpa using hk), List.lookup_cons, hb, ih h.2]

/-- The ranges of a key are its closed ones, and one to the end of the file if it is off there.
There is at most one such range, so the order of keys does not show. -/
theorem filter_key_finish {s : Scan} (h : (s.isOpen.map Prod.fst).Nodup) (last : Nat) (k : Key) :
    (s.finish last).filter (·.key == k) =
      s.closedOf k ++ ((s.since k).map fun n => (⟨k, n, max last n⟩ : Exemption)).toList := by
  have hperm := (List.mergeSort_perm s.isOpen fun a b => keyLe a.1 b.1).filter (·.1 == k)
  rw [filter_key_eq_lookup h] at hperm
  rw [finish, List.filter_append, List.filter_map, closedOf, since]
  refine congrArg (s.closed.filter (·.key == k) ++ ·) ?_
  change List.map _ (List.filter (fun p : Key × Nat => p.1 == k) _) = _
  cases hs : s.isOpen.lookup k with
  | none =>
      rw [hs] at hperm
      rw [List.perm_nil.mp hperm]
      rfl
  | some n =>
      rw [hs] at hperm
      rw [List.perm_singleton.mp hperm]
      rfl

end Scan

theorem scan_eq_finish (ts : List Token) :
    scan ts = (Scan.after ts).finish ((Token.lastChar? ts).getD 0) := rfl

/-- Every range starts with a directive that switches its key off. -/
theorem exists_directs_of_mem_scan {ts : List Token} {x : Exemption} (hx : x ∈ scan ts) :
    ∃ d ∈ ts, d.Directs .disable x.key ∧ d.startChar = x.startChar := by
  have hmem : x ∈ (scan ts).filter (·.key == x.key) := List.mem_filter.mpr ⟨hx, beq_self_eq_true _⟩
  rw [scan_eq_finish, Scan.filter_key_finish (Scan.nodup_keys_after ts), List.mem_append,
    Option.mem_toList, Option.map_eq_some_iff] at hmem
  rcases hmem with hmem | ⟨n, hn, hxn⟩
  · exact (Scan.exists_directs_of_mem_closedOf hmem).1
  · obtain ⟨d, hd, hdir, hstart⟩ := Scan.exists_directs_of_since hn
    exact ⟨d, hd, hdir, hstart.trans (congrArg startChar hxn)⟩

/-- The names of ranges are in upper case already. -/
theorem rule?_of_mem_scan {ts : List Token} {x : Exemption} (hx : x ∈ scan ts) :
    x.rule? = x.key := by
  obtain ⟨d, -, hdir, -⟩ := exists_directs_of_mem_scan hx
  exact Directive.map_upper_key_of_parse hdir.2

end Exemption

end SqlStyle
