/-! # Sets of offsets as intervals -/

namespace SqlStyle

/-- The offsets from `start` to `stop`, both included; none if `stop` lies before `start`. -/
structure Interval where
  start : Nat
  stop : Nat
deriving DecidableEq, Repr

namespace Interval

/-- By start, then by stop. -/
def le (a b : Interval) : Bool := a.start < b.start || (a.start == b.start && a.stop ≤ b.stop)

/-- Extend `cur` by every interval that overlaps or touches what came before it. -/
def absorb (cur : Interval) : List Interval → List Interval
  | [] => [cur]
  | i :: rest =>
      if i.start ≤ cur.stop + 1 then absorb ⟨cur.start, max cur.stop i.stop⟩ rest
      else cur :: absorb i rest

/-- Join the overlapping and touching neighbours of a sorted list. -/
def coalesce : List Interval → List Interval
  | [] => []
  | i :: rest => absorb i rest

/-- Sorted intervals with gaps between them. -/
def merge (is : List Interval) : List Interval := coalesce (is.mergeSort le)

/-- Whether the last interval that starts at or before the offset reaches it. -/
def contains (is : List Interval) (offset : Nat) : Bool :=
  (is.takeWhile (·.start ≤ offset)).getLast?.any (offset ≤ ·.stop)

end Interval

end SqlStyle
