import Gridcall.Number.Binary

/-!
# Decimals

A `Decimal` is a natural number of units of a power of ten.

* `Decimal.toWord` : the word of a format that is nearest to a decimal;
* `Binary.expansion` : the exact decimal value of a finite number;
* `Binary.shortest` : the fewest digits that read back to a number, and of those the nearest.

Reading back means rounding to the word of the number, so what `shortest` selects rounds to the
number it was selected for.
-/

namespace Gridcall

def decimalLength (n : Nat) : Nat := n.repr.length

/-- The value `digits * 10 ^ exponent`. -/
structure Decimal where
  digits : Nat
  /-- The power of ten of the last digit. -/
  exponent : Int
deriving DecidableEq

namespace Decimal

/-- The power of ten just above the value: the value is less than ten to this. -/
def position (d : Decimal) : Int := d.exponent + decimalLength d.digits

/-- The word of format `f` nearest to the decimal, ties to the even word.

Decimals far outside the range of the format are settled by the place of their leading digit, so
that no power of ten beyond the format's own range is ever computed. -/
def toWord (f : FloatFormat) (d : Decimal) : Nat :=
  if d.digits = 0 then 0
  else if d.position < -(f.unitExponent : Int) then 0
  else if d.position > Nat.pow 2 f.exponentBits then f.infinityWord
  else f.roundWord (d.digits * Nat.pow 10 d.exponent.toNat) (Nat.pow 10 (-d.exponent).toNat)

theorem toWord_lt (f : FloatFormat) (d : Decimal) : d.toWord f < f.wordBound := by
  have hpos : 0 < f.wordBound := Nat.two_pow_pos _
  unfold toWord
  split
  · exact hpos
  split
  · exact hpos
  split
  · exact f.infinityWord_lt
  · exact f.roundWord_lt _ _

/-- The number of format `f` nearest to the decimal, with the given sign. -/
def toBinary {f : FloatFormat} (d : Decimal) (negative : Bool) : Binary f where
  negative := negative
  word := d.toWord f
  word_lt := d.toWord_lt f

/-- The same value with no trailing zero among its digits. -/
def strip (d : Decimal) : Decimal :=
  if _h : d.digits ≠ 0 ∧ d.digits % 10 = 0 then
    strip { digits := d.digits / 10, exponent := d.exponent + 1 }
  else d
termination_by d.digits
decreasing_by omega

end Decimal

/-- Where an exact tie between two neighbouring decimals goes. -/
inductive Tie where
  /-- To the larger magnitude. -/
  | up
  /-- To the one whose last digit is even. -/
  | even
deriving DecidableEq

namespace Binary

variable {f : FloatFormat}

/-- The exact decimal value of a finite number, as many places after the point as it has binary
places: each halving is five tenths. -/
def expansion (x : Binary f) : Decimal :=
  let common := Nat.gcd x.units f.scale
  let places := f.unitExponent - common.log2
  { digits := x.units / common * Nat.pow 5 places, exponent := -(places : Int) }

/-- Whether a decimal rounds to the magnitude of `x`. -/
def readsBack (x : Binary f) (d : Decimal) : Bool := d.toWord f == x.word

/-- The decimal of `count` digits that reads back to `x`, the nearer one if both neighbours do. -/
def ofLength? (x : Binary f) (tie : Tie) (count : Nat) : Option Decimal :=
  let exact := x.expansion
  let cut := decimalLength exact.digits - count
  let grid := Nat.pow 10 cut
  let below : Decimal := { digits := exact.digits / grid, exponent := exact.exponent + cut }
  let above : Decimal := { below with digits := below.digits + 1 }
  let twice := 2 * (exact.digits % grid)
  let aboveIsNearer := twice > grid ||
    (twice == grid && match tie with
      | .up => true
      | .even => below.digits % 2 == 1)
  match x.readsBack below, x.readsBack above with
  | true, true => some (if aboveIsNearer then above else below)
  | true, false => some below
  | false, true => some above
  | false, false => none

/-- The fewest digits that read back to a finite non-zero number. Seventeen are enough for either
format; the exact value stands behind the search. -/
def shortest (x : Binary f) (tie : Tie) : Decimal :=
  (((List.range 17).findSome? fun i => x.ofLength? tie (i + 1)).getD x.expansion).strip

end Binary

end Gridcall
