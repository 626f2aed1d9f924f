import SqlStyle.Token.Location
import Mathlib

/-!
# Offsets, lines and columns

A place in a text is an offset, or a line and a column.  Counting line feeds gives the second from
the first, and the table of line starts gives the first back.  The two orders agree: of two
offsets, the smaller one lies on an earlier line, or on the same line further left.
-/

namespace SqlStyle

namespace Text

/-- The line of an offset, counted from 1: one more than the line feeds before it. -/
def lineAt (cs : List Char) (o : Nat) : Nat := (cs.take o).count '\n' + 1

/-- The column of an offset, counted from 0: the characters between it and the last line feed
before it, or the start of the text. -/
def columnAt (cs : List Char) (o : Nat) : Nat := ((cs.take o).rtakeWhile (· ≠ '\n')).length

/-- A character moves on by one column, or to the next line. -/
theorem advance_count_rtakeWhile (cs : List Char) (c : Char) :
    Location.advance ⟨cs.count '\n' + 1, (cs.rtakeWhile (· ≠ '\n')).length + 1⟩ c =
      ⟨(cs ++ [c]).count '\n' + 1, ((cs ++ [c]).rtakeWhile (· ≠ '\n')).length + 1⟩ := by
  by_cases hc : c = '\n'
  · subst hc
    simp [Location.advance, List.rtakeWhile_concat_neg]
  · simp [Location.advance, hc, List.rtakeWhile_concat_pos]

end Text

open Text (lineAt columnAt)

namespace Location

/-- Going over a text counts its line feeds, and the characters behind the last of them. -/
theorem advanceAll_start (cs : List Char) :
    start.advanceAll cs = ⟨cs.count '\n' + 1, (cs.rtakeWhile (· ≠ '\n')).length + 1⟩ := by
  induction cs using List.reverseRecOn with
  | nil => rfl
  | append_singleton cs c ih =>
      rw [advanceAll_append, ih, advanceAll_cons, advanceAll_nil, Text.advance_count_rtakeWhile]

theorem advanceAll_start_take (cs : List Char) (o : Nat) :
    start.advanceAll (cs.take o) = ⟨lineAt cs o, columnAt cs o + 1⟩ :=
  advanceAll_start (cs.take o)

end Location

namespace LineIndex

/-! ## The table of line starts -/

theorem startsFrom_append (i : Nat) (ds es : List Char) :
    startsFrom i (ds ++ es) = startsFrom i ds ++ startsFrom (i + ds.length) es := by
  induction ds generalizing i with
  | nil => rfl
  | cons d ds ih =>
      simp only [List.cons_append, startsFrom, ih, List.length_cons]
      rw [Nat.add_assoc, Nat.add_comm 1]
      split <;> rfl

/-- There is one entry for each line feed. -/
theorem length_startsFrom (i : Nat) (cs : List Char) :
    (startsFrom i cs).length = cs.count '\n' := by
  induction cs generalizing i with
  | nil => rfl
  | cons c cs ih =>
      rw [startsFrom, List.count_cons]
      split
      · next h => simp [ih, h]
      · next h => simp [ih, h]

/-- The last line of a text starts as far from its end as it has characters. -/
theorem getLast?_startsFrom (cs : List Char) :
    ∃ s, (0 :: startsFrom 0 cs).getLast? = some s ∧
      s + (cs.rtakeWhile (· ≠ '\n')).length = cs.length := by
  induction cs using List.reverseRecOn with
  | nil => exact ⟨0, rfl, rfl⟩
  | append_singleton cs c ih =>
      obtain ⟨s, hs, hlen⟩ := ih
      rw [startsFrom_append, Nat.zero_add, startsFrom, startsFrom, List.length_append,
        List.length_singleton]
      by_cases hc : c = '\n'
      · refine ⟨cs.length + 1, ?_, ?_⟩
        · rw [if_pos hc, ← List.cons_append, List.getLast?_concat]
        · rw [List.rtakeWhile_concat_neg _ _ _ (by simp [hc]), List.length_nil]
      · refine ⟨s, ?_, ?_⟩
        · rw [if_neg hc, List.append_nil, hs]
        · rw [List.rtakeWhile_concat_pos _ _ _ (by simp [hc]), List.length_append,
            List.length_singleton]
          omega

/-- The line of an offset has an entry, and the column is the distance from there. -/
theorem exists_start_of_le {cs : List Char} {o : Nat} (h : o ≤ cs.length) :
    ∃ s, (ofChars cs).starts[lineAt cs o - 1]? = some s ∧ s + columnAt cs o = o := by
  obtain ⟨s, hs, hlen⟩ := getLast?_startsFrom (cs.take o)
  refine ⟨s, ?_, ?_⟩
  · -- the lines that start in the first `o` characters come first in the table
    have hsplit : 0 :: startsFrom 0 cs =
        (0 :: startsFrom 0 (cs.take o)) ++ startsFrom (cs.take o).length (cs.drop o) := by
      rw [List.cons_append]
      nth_rewrite 1 [← List.take_append_drop o cs]
      rw [startsFrom_append, Nat.zero_add]
    have hindex : lineAt cs o - 1 = (0 :: startsFrom 0 (cs.take o)).length - 1 := by
      rw [lineAt, List.length_cons, length_startsFrom]
    rw [ofChars, List.getElem?_toArray, hsplit, hindex,
      List.getElem?_append_left (by simp), ← List.getLast?_eq_getElem?, hs]
  · rw [columnAt, hlen, List.length_take, Nat.min_eq_left h]

/-- Counting lines and columns up to an offset, and looking them up, leads back to the offset. -/
theorem offset_ofChars {cs : List Char} {o : Nat} (h : o ≤ cs.length) :
    (ofChars cs).offset ⟨lineAt cs o, columnAt cs o + 1⟩ = o := by
  obtain ⟨s, hs, hcolumn⟩ := exists_start_of_le h
  have hline : ¬ lineAt cs o = 0 := Nat.succ_ne_zero _
  simp only [offset, hline, if_false, hs, Nat.add_sub_cancel, hcolumn]
  exact Nat.min_eq_left h

theorem offset_ofChars_advanceAll (ds es : List Char) :
    (ofChars (ds ++ es)).offset (Location.start.advanceAll ds) = ds.length := by
  have htake : ds = (ds ++ es).take ds.length := by rw [List.take_left]
  nth_rewrite 2 [htake]
  rw [Location.advanceAll_start_take]
  exact offset_ofChars (by simp)

end LineIndex

namespace Text

/-! ## The order of places -/

theorem lineAt_mono (cs : List Char) {o p : Nat} (h : o ≤ p) : lineAt cs o ≤ lineAt cs p :=
  Nat.succ_le_succ ((List.take_sublist_take_left h).count_le '\n')

/-- On one line, columns are as far apart as offsets. -/
theorem columnAt_lt_of_lineAt_eq {cs : List Char} {o p : Nat} (h : o < p) (hp : p ≤ cs.length)
    (hline : lineAt cs o = lineAt cs p) : columnAt cs o < columnAt cs p := by
  obtain ⟨s, hs, hso⟩ := LineIndex.exists_start_of_le (h.le.trans hp)
  obtain ⟨s', hs', hsp⟩ := LineIndex.exists_start_of_le hp
  rw [hline, hs', Option.some.injEq] at hs
  omega

/-- A smaller offset lies on an earlier line, or on the same line in an earlier column. -/
theorem place_lt_of_lt {cs : List Char} {o p : Nat} (h : o < p) (hp : p ≤ cs.length) :
    lineAt cs o < lineAt cs p ∨ lineAt cs o = lineAt cs p ∧ columnAt cs o < columnAt cs p := by
  rcases (lineAt_mono cs h.le).lt_or_eq with hlt | heq
  · exact .inl hlt
  · exact .inr ⟨heq, columnAt_lt_of_lineAt_eq h hp heq⟩

end Text

end SqlStyle
