/-! # Looking into an array

The positions that are asked for may lie out of range, and then there is no answer. -/

namespace SqlStyle

variable {α : Type}

/-- The items from `start` up to `stop`, if these are in order and not past the end. -/
def slice? (xs : Array α) (start stop : Nat) : Option (List α) :=
  if start ≤ stop ∧ stop ≤ xs.size then some (xs.extract start stop).toList else none

theorem slice?_of_le {xs : Array α} {start stop : Nat} (h : start ≤ stop) (hstop : stop ≤ xs.size) :
    slice? xs start stop = some (xs.extract start stop).toList :=
  if_pos ⟨h, hstop⟩

/-- The item right before a position; there is none before the first. -/
def before? (xs : Array α) : Nat → Option α
  | 0 => none
  | i + 1 => xs[i]?

end SqlStyle
