import StaticSite.Number.Binary64
import StaticSite.Text.Quoted

/-!
# Numbers and their text

A number is an integer or a double; the two stay apart, also when their values agree. `Number.text`
is the one way in which numbers are written: integers in decimal, doubles with the fewest digits
that read back. The fields of `DoubleFormat` say where the point goes and when an exponent is
written.
-/

namespace StaticSite

open Text

/-- An integer or a double. -/
inductive Number where
  /-- an integer -/
  | int (value : Int)
  /-- a double precision number -/
  | double (value : Binary64)
  deriving DecidableEq, Repr, Inhabited

namespace Number

/-- An integer in decimal. -/
def intText (i : Int) : List Char :=
  if i < 0 then '-' :: digitsIn 10 i.natAbs else digitsIn 10 i.natAbs

/-- How the digits of a double are laid out. -/
structure DoubleFormat where
  /-- the least decimal exponent that is written without an exponent -/
  leastPlain : Int
  /-- the greatest decimal exponent that is written without an exponent -/
  greatestPlain : Int
  /-- what is written behind a whole number -/
  whole : List Char
  /-- what stands between the digits and an exponent that is not negative -/
  positiveMark : List Char
  /-- what stands between the digits and a negative exponent -/
  negativeMark : List Char

/-- Plain notation from `0.00001` to `9999999999999999.0`, always with a point, and outside of this
range one digit before the point and a signed exponent. -/
def doubleFormat : DoubleFormat :=
  ⟨-5, 15, ['.', '0'], ['e', '+'], ['e', '-']⟩

/-- The digits of a decimal in a layout. -/
def DoubleFormat.lay (f : DoubleFormat) (d : Binary64.Decimal) : List Char :=
  let digits := digitsIn 10 d.digits
  let size : Int := digits.length
  let e := if d.digits = 0 then 0 else size - 1 + d.exponent
  if f.leastPlain ≤ e ∧ e ≤ f.greatestPlain then
    if 0 ≤ d.exponent then digits ++ List.replicate d.exponent.toNat '0' ++ f.whole
    else if 0 ≤ e then
      let point := (e + 1).toNat
      digits.take point ++ '.' :: digits.drop point
    else '0' :: '.' :: List.replicate (-e - 1).toNat '0' ++ digits
  else
    let mantissa := match digits with
      | [] => []
      | [c] => [c]
      | c :: cs => c :: '.' :: cs
    mantissa ++ (if 0 ≤ e then f.positiveMark else f.negativeMark) ++ digitsIn 10 e.natAbs

/-- A double in a layout. The sign of zero is written. -/
def doubleText (x : Binary64) : List Char :=
  let body := doubleFormat.lay x.decimal
  if x.negative then '-' :: body else body

/-- The text of a number. -/
def text : Number → List Char
  | .int i => intText i
  | .double x => doubleText x

/-- The integers that fit into 64 bits with sign. -/
def greatestInt : Nat := power 2 63 - 1

end Number

end StaticSite
