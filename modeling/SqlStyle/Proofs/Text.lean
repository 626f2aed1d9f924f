import SqlStyle.Text.Ascii
import Mathlib

/-!
# Names in any case

Names are folded in two ways: to upper case where they are kept, and letter by letter where two of
them are compared.  Folding is idempotent, and it does not matter which of the two cases texts are
folded to before they are compared.
-/

namespace SqlStyle.Text

@[simp] theorem upper_upper (s : String) : upper (upper s) = upper s := by
  rw [← String.toList_inj]
  simp

@[simp] theorem upper_lower (s : String) : upper (lower s) = upper s := by
  rw [← String.toList_inj]
  simp

@[simp] theorem lower_upper (s : String) : lower (upper s) = lower s := by
  rw [← String.toList_inj]
  simp

/-- Texts that agree in upper case are those that agree in lower case. -/
theorem upper_eq_upper_iff {s t : String} : upper s = upper t ↔ lower s = lower t := by
  constructor
  · intro h
    rw [← lower_upper s, h, lower_upper]
  · intro h
    rw [← upper_lower s, h, upper_lower]

theorem eqIgnoreCase_iff {s t : String} : eqIgnoreCase s t = true ↔ upper s = upper t := by
  rw [eqIgnoreCase, beq_iff_eq]

end SqlStyle.Text
