/-! # Sets of characters given by ascending ranges -/

namespace SqlStyle.Text

/-- Membership in an ascending list of inclusive ranges; the search stops at the first range
that starts above `n`. -/
def inRanges : List (Nat × Nat) → Nat → Bool
  | [], _ => false
  | (lo, hi) :: rest, n => if n < lo then false else n ≤ hi || inRanges rest n

variable {rs rs' : List (Nat × Nat)} {n : Nat}

/-- What is found in ranges lies in one of them, also if they do not ascend. -/
theorem exists_range_of_inRanges (h : inRanges rs n = true) : ∃ r ∈ rs, r.1 ≤ n ∧ n ≤ r.2 := by
  induction rs with
  | nil => cases h
  | cons r rs ih =>
      rw [inRanges] at h
      split at h
      · cases h
      · next hn =>
          rcases Bool.or_eq_true_iff.mp h with hhi | hrest
          · exact ⟨r, List.mem_cons_self, Nat.le_of_not_lt hn, of_decide_eq_true hhi⟩
          · obtain ⟨r', hr', hin⟩ := ih hrest
            exact ⟨r', List.mem_cons_of_mem r hr', hin⟩

/-- Ranges that keep apart, one by one, have nothing in common. -/
theorem not_inRanges_of_apart (hapart : ∀ r ∈ rs, ∀ r' ∈ rs', r.2 < r'.1 ∨ r'.2 < r.1)
    (h : inRanges rs n = true) : inRanges rs' n = false := by
  rw [← Bool.not_eq_true]
  intro h'
  obtain ⟨r, hr, hlo, hhi⟩ := exists_range_of_inRanges h
  obtain ⟨r', hr', hlo', hhi'⟩ := exists_range_of_inRanges h'
  rcases hapart r hr r' hr' with hlt | hlt <;> omega

end SqlStyle.Text
