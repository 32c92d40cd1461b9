/-!
# Shortest decimals

The shortest decimal that reads back as a given binary number, found by exact arithmetic. A binary
number stands for all reals that round to it, an interval around it; on the grids of decimals with
one, two, three … digits, the first that has a point in the interval gives the answer, the point
nearest to the number, and of two equally near ones the even one. Only the two neighbours of the
number on a grid need to be looked at.
-/

namespace WasmUdon

/-- A positive binary number `mantissa · 2 ^ exponent`. -/
structure Binary where
  mantissa : Nat
  exponent : Int
  /-- The next smaller number is half as far away as the next greater one. -/
  narrowBelow : Bool
  deriving DecidableEq, Repr

/-- A decimal: its digits without trailing zeros, and the power of ten of the first one. -/
structure Decimal where
  digits : List Char
  exponent : Int
  deriving DecidableEq, Repr

/-- The number of decimal digits, none for zero. -/
def digitCount (n : Nat) : Nat := if n = 0 then 0 else (Nat.toDigits 10 n).length

namespace Binary

/-- Four times the number, scaled to a fraction: numerator of one quarter unit, and denominator. -/
def quarter (b : Binary) : Nat × Nat :=
  let e := b.exponent - 2
  (1 <<< e.toNat, 1 <<< (-e).toNat)

/-- The number as a fraction. -/
def fraction (b : Binary) : Nat × Nat := (4 * b.mantissa * b.quarter.1, b.quarter.2)

/-- The power of ten of the number's first decimal digit. -/
def decimalExponent (b : Binary) : Int :=
  let (num, den) := b.fraction
  if den ≤ num then (digitCount (num / den) : Int) - 1 else -(digitCount ((den - 1) / num) : Int)

/-- Whether `k · 10 ^ unit` rounds to the number. Both ends of the interval belong to it exactly
if the mantissa is even. -/
def roundsFrom (b : Binary) (unit : Int) (k : Nat) : Bool :=
  let (step, den) := b.quarter
  let up := Nat.pow 10 (-unit).toNat
  let point := k * den * Nat.pow 10 unit.toNat
  let lower := (4 * b.mantissa - if b.narrowBelow then 1 else 2) * step * up
  let upper := (4 * b.mantissa + 2) * step * up
  if b.mantissa % 2 = 0 then lower ≤ point && point ≤ upper else lower < point && point < upper

/-- The grid point nearest to the number among those that round to it, if there is one. -/
def nearest? (b : Binary) (unit : Int) : Option Nat :=
  let (num, den) := b.fraction
  let n := num * Nat.pow 10 (-unit).toNat
  let d := den * Nat.pow 10 unit.toNat
  let k := n / d
  match b.roundsFrom unit k, b.roundsFrom unit (k + 1) with
  | false, false => none
  | true, false => some k
  | false, true => some (k + 1)
  | true, true =>
    if 2 * n < (2 * k + 1) * d then some k
    else if (2 * k + 1) * d < 2 * n then some (k + 1)
    else if k % 2 = 0 then some k else some (k + 1)

/-- The shortest decimal that rounds to the number; seventeen digits always suffice. -/
def shortest (b : Binary) : Decimal :=
  let grid (count : Nat) : Int := b.decimalExponent - count
  let found := (List.range 17).findSome? fun count =>
    (b.nearest? (grid count)).map fun k => (k, grid count)
  let (k, unit) := found.getD (0, 0)
  let digits := Nat.toDigits 10 k
  { digits := (digits.reverse.dropWhile (· == '0')).reverse
    exponent := unit + digits.length - 1 }

end Binary

end WasmUdon
