/-! # Binary floating-point numbers

A number is kept as an integer times a power of two, so that reading a decimal and writing the
shortest one are exact integer arithmetic. -/

namespace SqlStyle.Toml

/-- A double: `mantissa · 2 ^ exponent` with at most 53 bits, an infinity, or not a number. -/
inductive Real
  | finite (negative : Bool) (mantissa : Nat) (exponent : Int)
  | infinite (negative : Bool)
  | nan
deriving DecidableEq, Repr

namespace Real

def pow2 (n : Nat) : Nat := Nat.pow 2 n

def pow10 (n : Nat) : Nat := Nat.pow 10 n

/-- The quotient rounded to the nearest integer, a half to the even one. -/
def roundDiv (num den : Nat) : Nat :=
  let q := num / den
  let r := 2 * (num % den)
  if r < den || (r == den && q % 2 == 0) then q else q + 1

/-- The least exponent of a double. -/
def minExponent : Int := -1074

/-- The greatest exponent of a double. -/
def maxExponent : Int := 971

/-- `a · 2 ^ e` as a fraction. -/
def scale2 (num den : Nat) (e : Int) : Nat × Nat :=
  (num * pow2 e.toNat, den * pow2 (-e).toNat)

/-- The double nearest to `num / den`. -/
def ofFraction (negative : Bool) (num den : Nat) : Real :=
  let guess : Int := (num.log2 : Int) - den.log2 - 53
  let pick := [guess, guess + 1, guess + 2].find? fun e =>
    let (n, d) := scale2 num den (-e)
    n < d * pow2 53
  let e := max minExponent (pick.getD (guess + 2))
  let (n, d) := scale2 num den (-e)
  let m := roundDiv n d
  let (m, e) := if m == pow2 53 then (pow2 52, e + 1) else (m, e)
  if e > maxExponent then infinite negative else finite negative m e

/-- The double nearest to `digits · 10 ^ exponent`. -/
def ofDecimal (negative : Bool) (digits : Nat) (exponent : Int) : Real :=
  let magnitude := exponent + (Nat.toDigits 10 digits).length
  if digits == 0 || magnitude < -340 then finite negative 0 minExponent
  else if magnitude > 320 then infinite negative
  else ofFraction negative (digits * pow10 exponent.toNat) (pow10 (-exponent).toNat)

/-- A decimal `digits · 10 ^ exponent`. -/
structure Decimal where
  digits : Nat
  exponent : Int
deriving DecidableEq, Repr

/-- `d ≤ a · 2 ^ e`. -/
def Decimal.le (d : Decimal) (a : Nat) (e : Int) : Bool :=
  d.digits * pow10 d.exponent.toNat * pow2 (-e).toNat
    ≤ a * pow2 e.toNat * pow10 (-d.exponent).toNat

/-- `a · 2 ^ e ≤ d`. -/
def Decimal.ge (d : Decimal) (a : Nat) (e : Int) : Bool :=
  a * pow2 e.toNat * pow10 (-d.exponent).toNat
    ≤ d.digits * pow10 d.exponent.toNat * pow2 (-e).toNat

/-- Whether a decimal reads back as `m · 2 ^ e`: it lies between the midpoints to the two
neighbours, which themselves go to an even mantissa. -/
def Decimal.readsBack (d : Decimal) (m : Nat) (e : Int) : Bool :=
  let low := 4 * m - if m == pow2 52 && e > minExponent then 1 else 2
  let high := 4 * m + 2
  if m % 2 == 0 then d.ge low (e - 2) && d.le high (e - 2)
  else !d.le low (e - 2) && !d.ge high (e - 2)

/-- The decimals next to `m · 2 ^ e` among the multiples of `10 ^ p`, the nearer one first, and of
two equally near ones the greater. -/
def neighbours (m : Nat) (e p : Int) : List Decimal :=
  let num := m * pow2 e.toNat * pow10 (-p).toNat
  let den := pow2 (-e).toNat * pow10 p.toNat
  let q := num / den
  if 2 * (num % den) < den then [⟨q, p⟩, ⟨q + 1, p⟩] else [⟨q + 1, p⟩, ⟨q, p⟩]

/-- How many digits stand before the point, at most one too many. -/
def wholeDigits (m : Nat) (e : Int) : Int :=
  if e ≥ 0 then (Nat.toDigits 10 (m * pow2 e.toNat)).length
  else
    let scaled := m * pow10 400 / pow2 (-e).toNat
    ((Nat.toDigits 10 scaled).length : Int) - 400

/-- The same number without a zero at the end of its digits: next to a power of ten the nearest
decimal of one digit is written as ten. -/
def Decimal.reduce (d : Decimal) : Decimal :=
  if d.digits % 10 == 0 then ⟨d.digits / 10, d.exponent + 1⟩ else d

/-- The decimal of fewest digits that reads back, and of those the nearest. -/
def shortest (m : Nat) (e : Int) : Decimal :=
  let k := wholeDigits m e
  let tries := (List.range 17).flatMap fun n =>
    (neighbours m e (k - (n + 1 : Nat))).filter (·.readsBack m e)
  (tries.headD ⟨m, e⟩).reduce

/-- A decimal without exponent, and without a point if it is whole. -/
def Decimal.positional (d : Decimal) : String :=
  let ds := Nat.toDigits 10 d.digits
  if d.exponent ≥ 0 then .ofList (ds ++ List.replicate d.exponent.toNat '0')
  else
    let places := (-d.exponent).toNat
    let padded := List.replicate (places + 1 - ds.length) '0' ++ ds
    let cut := padded.length - places
    .ofList (padded.take cut ++ '.' :: padded.drop cut)

/-- The shortest text that reads back as the number. -/
def text : Real → String
  | nan => "NaN"
  | infinite negative => if negative then "-inf" else "inf"
  | finite negative m e =>
      (if negative then "-" else "") ++ if m == 0 then "0" else (shortest m e).positional

end Real

end SqlStyle.Toml
