/-! # Dates and times -/

namespace SqlStyle.Toml

structure Date where
  year : Nat
  month : Nat
  day : Nat
deriving DecidableEq, Repr

structure Time where
  hour : Nat
  minute : Nat
  second : Nat
  nanosecond : Nat
deriving DecidableEq, Repr

/-- The distance from universal time. -/
inductive Offset
  | zulu
  | minutes (n : Int)
deriving DecidableEq, Repr

/-- A date, a time, or both, then perhaps with an offset. -/
inductive DateTime
  | date (d : Date)
  | time (t : Time)
  | both (d : Date) (t : Time) (offset : Option Offset)
deriving DecidableEq, Repr

/-- A number in at least `width` digits. -/
def padded (width n : Nat) : String :=
  let ds := Nat.toDigits 10 n
  .ofList (List.replicate (width - ds.length) '0' ++ ds)

namespace Date

def isLeap (year : Nat) : Bool := (year % 4 == 0 && year % 100 != 0) || year % 400 == 0

def daysIn (year month : Nat) : Nat :=
  if month == 2 then (if isLeap year then 29 else 28)
  else if month == 4 || month == 6 || month == 9 || month == 11 then 30
  else 31

def isValid (d : Date) : Bool :=
  1 ≤ d.month && d.month ≤ 12 && 1 ≤ d.day && d.day ≤ daysIn d.year d.month

def text (d : Date) : String :=
  padded 4 d.year ++ "-" ++ padded 2 d.month ++ "-" ++ padded 2 d.day

end Date

namespace Time

/-- Hours up to `lastHour`; second 60 is a leap second. -/
def isValid (lastHour : Nat) (t : Time) : Bool :=
  t.hour ≤ lastHour && t.minute ≤ 59 && t.second ≤ 60

/-- The fraction of a second without zeros at its end. -/
def fraction (t : Time) : String :=
  if t.nanosecond == 0 then ""
  else "." ++ .ofList ((padded 9 t.nanosecond).toList.reverse.dropWhile (· == '0')).reverse

def text (t : Time) : String :=
  padded 2 t.hour ++ ":" ++ padded 2 t.minute ++ ":" ++ padded 2 t.second ++ t.fraction

end Time

def Offset.text : Offset → String
  | zulu => "Z"
  | minutes n =>
      let m := n.natAbs
      (if n < 0 then "-" else "+") ++ padded 2 (m / 60) ++ ":" ++ padded 2 (m % 60)

def DateTime.text : DateTime → String
  | date d => d.text
  | time t => t.text
  | both d t offset => d.text ++ "T" ++ t.text ++ (offset.map Offset.text).getD ""

end SqlStyle.Toml
