import StaticSite.Number.Power

/-!
# Double precision numbers

A finite number of the format binary64 is held as sign, significand and exponent, so that reading
a decimal and finding its digits again are exact arithmetic on natural numbers.

`Binary64.ofDecimal?` rounds a decimal to the nearest number of the format, a tie to the even
significand, and answers `none` where that number is too large. `Binary64.decimal` finds the
shortest decimal that reads back to the same number; of several it takes the nearest.
-/

namespace StaticSite

/-- A finite number `± significand · 2 ^ exponent`. The significand has 53 bits, or fewer at the
least exponent. -/
structure Binary64 where
  /-- whether the sign is a minus, which zero may have too -/
  negative : Bool
  /-- the significand, at most `2 ^ 53 - 1` -/
  significand : Nat
  /-- the exponent of two, from -1074 to 971 -/
  exponent : Int
  deriving DecidableEq, Repr, Inhabited

namespace Binary64

open Number (power)

/-- The least exponent of the format. -/
def leastExponent : Int := -1074

/-- The greatest exponent of the format. -/
def greatestExponent : Int := 971

/-- The number with the other sign. -/
def neg (x : Binary64) : Binary64 := { x with negative := !x.negative }

/-- The quotient rounded to the nearest natural number, a tie to the even one. -/
def roundDiv (num den : Nat) : Nat :=
  let q := num / den
  let twice := 2 * (num % den)
  if twice < den then q
  else if den < twice then q + 1
  else if q % 2 = 0 then q else q + 1

/-- `num / den` divided by `2 ^ e`, as a quotient of natural numbers. -/
def scaleTwo (num den : Nat) (e : Int) : Nat × Nat :=
  if 0 ≤ e then (num, den * power 2 e.toNat) else (num * power 2 (-e).toNat, den)

/-- The exponent at which the significand of `num / den` has 53 bits, but never below the least
one. -/
def exponentOf (num den : Nat) : Int :=
  let guess : Int := (num.log2 : Int) - (den.log2 : Int) - 52
  let (n, d) := scaleTwo num den guess
  let exact := if n < d * power 2 52 then guess - 1 else guess
  max leastExponent exact

/-- The number of the format nearest to the positive quotient `num / den`. -/
def ofRatio? (negative : Bool) (num den : Nat) : Option Binary64 :=
  let e := exponentOf num den
  let (n, d) := scaleTwo num den e
  let m := roundDiv n d
  let (m, e) := if m = power 2 53 then (power 2 52, e + 1) else (m, e)
  if greatestExponent < e then none else some ⟨negative, m, e⟩

/-- How many decimal digits a natural number has. -/
def digitCount (n : Nat) : Nat := (Nat.toDigits 10 n).length

/-- The number of the format nearest to `± digits · 10 ^ exponent`, if it is not too large.
Exponents far outside the range are decided without computing the power. -/
def ofDecimal? (negative : Bool) (digits : Nat) (exponent : Int) : Option Binary64 :=
  let size := (digitCount digits : Int) + exponent
  if digits = 0 ∨ size < -400 then some ⟨negative, 0, leastExponent⟩
  else if 400 < size then none
  else if 0 ≤ exponent then ofRatio? negative (digits * power 10 exponent.toNat) 1
  else ofRatio? negative digits (power 10 (-exponent).toNat)

/-! ## Shortest digits -/

/-- The numbers that round to `x` lie between `low / den` and `high / den`; `mid / den` is `x`. -/
structure Interval where
  /-- the numerator of the lower end -/
  low : Nat
  /-- the numerator of the number -/
  mid : Nat
  /-- the numerator of the upper end -/
  high : Nat
  /-- the common denominator -/
  den : Nat
  /-- whether the two ends round to `x` too -/
  closed : Bool

/-- The interval around a number that is not zero. Below a power of two the neighbour is only half
as far away. -/
def interval (x : Binary64) : Interval :=
  let m := x.significand
  let half := if m = power 2 52 ∧ leastExponent < x.exponent then 1 else 2
  let (low, mid, high) := (4 * m - half, 4 * m, 4 * m + 2)
  let e := x.exponent - 2
  let closed := m % 2 = 0
  if 0 ≤ e then
    let p := power 2 e.toNat
    ⟨low * p, mid * p, high * p, 1, closed⟩
  else ⟨low, mid, high, power 2 (-e).toNat, closed⟩

/-- Whether `digits · 10 ^ exponent` lies in the interval. -/
def Interval.contains (i : Interval) (digits : Nat) (exponent : Int) : Bool :=
  let (d, den) :=
    if 0 ≤ exponent then (digits * power 10 exponent.toNat * i.den, 1)
    else (digits * i.den, power 10 (-exponent).toNat)
  if i.closed then i.low * den ≤ d && d ≤ i.high * den
  else i.low * den < d && d < i.high * den

/-- The candidates for the value on the grid of multiples of `10 ^ exponent`: the multiple below,
the one above, and which of them is nearer, a tie going to the even one. -/
def Interval.neighbours (i : Interval) (exponent : Int) : Nat × Nat × Bool :=
  let (num, den) :=
    if 0 ≤ exponent then (i.mid, i.den * power 10 exponent.toNat)
    else (i.mid * power 10 (-exponent).toNat, i.den)
  let below := num / den
  let twice := 2 * (num % den)
  (below, below + 1, twice < den || (twice == den && below % 2 == 0))

/-- The digits of the value on one grid, if one of the two neighbours reads back. -/
def Interval.onGrid? (i : Interval) (exponent : Int) : Option Nat :=
  let (below, above, lowNearer) := i.neighbours exponent
  match i.contains below exponent, i.contains above exponent with
  | true, true => some (if lowNearer then below else above)
  | true, false => some below
  | false, true => some above
  | false, false => none

/-- The greatest `e` with `10 ^ e ≤ mid / den`, found from an estimate by the sizes. -/
def Interval.magnitude (i : Interval) : Int :=
  let guess : Int := (digitCount i.mid : Int) - (digitCount i.den : Int)
  let reaches : Bool :=
    if 0 ≤ guess then i.den * power 10 guess.toNat ≤ i.mid
    else i.den ≤ i.mid * power 10 (-guess).toNat
  if reaches then guess else guess - 1

/-- A decimal `digits · 10 ^ exponent`. -/
structure Decimal where
  /-- the digits, as a number -/
  digits : Nat
  /-- the exponent of ten -/
  exponent : Int
  deriving DecidableEq, Repr

/-- The same decimal without zeros at the end of its digits. -/
def Decimal.strip (d : Decimal) : Decimal :=
  if d.digits ≠ 0 ∧ d.digits % 10 = 0 then Decimal.strip ⟨d.digits / 10, d.exponent + 1⟩ else d
termination_by d.digits
decreasing_by omega

/-- The shortest decimal that reads back, tried on ever finer grids; 17 digits always suffice. -/
def Interval.shortest (i : Interval) : Decimal :=
  let top := i.magnitude
  go top 17
where
  /-- The grids still to try, counted down. -/
  go (top : Int) : Nat → Decimal
    | 0 => ⟨(i.neighbours (top - 16)).1, top - 16⟩
    | n + 1 =>
      let exponent := top - (16 - n : Int)
      match i.onGrid? exponent with
      | some digits => ⟨digits, exponent⟩
      | none => go top n

/-- The shortest decimal that reads back to the absolute value of `x`. -/
def decimal (x : Binary64) : Decimal :=
  if x.significand = 0 then ⟨0, 0⟩ else x.interval.shortest.strip

end Binary64

end StaticSite
