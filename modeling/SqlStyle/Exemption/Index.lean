import SqlStyle.Exemption
import SqlStyle.Exemption.Interval
import SqlStyle.Violation

/-! # Looking up exemptions -/

namespace SqlStyle.Exemption

/-- Merged intervals, for all rules and by rule name in upper case. -/
structure Index where
  everywhere : List Interval
  byRule : List (String × List Interval)
deriving DecidableEq, Repr

def interval (x : Exemption) : Interval := ⟨x.startChar, x.stopChar⟩

/-- The name that a range is about, in upper case. -/
def rule? (x : Exemption) : Option String := x.key.map Text.upper

namespace Index

/-- The merged intervals of the ranges about a name, or about no name. -/
def bucket (xs : List Exemption) (rule : Option String) : List Interval :=
  Interval.merge ((xs.filter (·.rule? == rule)).map interval)

def ofRanges (xs : List Exemption) : Index where
  everywhere := bucket xs none
  byRule := (xs.filterMap rule?).eraseDups.map fun name => (name, bucket xs (some name))

def isEmpty (ix : Index) : Bool := ix.everywhere.isEmpty && ix.byRule.isEmpty

def isExempt (ix : Index) (rule : String) (offset : Nat) : Bool :=
  Interval.contains ix.everywhere offset
    || (ix.byRule.lookup (Text.upper rule)).any (Interval.contains · offset)

/-- The violations that stay, and how many go. -/
def filter (ix : Index) (vs : List Violation) : List Violation × Nat :=
  if ix.isEmpty then (vs, 0)
  else
    let kept := vs.filter fun v => !ix.isExempt v.rule v.startChar
    (kept, vs.length - kept.length)

end Index

end SqlStyle.Exemption
