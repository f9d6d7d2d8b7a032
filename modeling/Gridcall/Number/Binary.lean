import Gridcall.Number.Format

/-!
# Binary numbers

`Binary f` is a number of format `f`: a sign and a word. Equality of the structure is equality of
the bits, so it tells the two zeros apart and finds a NaN equal to itself; `Binary.equals` is the
numeric comparison, which does neither.

* `Binary.ofBits`, `Binary.toBits` : the interchange form;
* `Binary.ofRatio`, `Binary.ofInt` : the nearest number to an exact value;
* `Binary.units` : the magnitude of a finite number as a multiple of the least positive one;
* `Binary.add`, `Binary.mul`, `Binary.div` : the exact result, rounded once;
* `Binary.truncate?` : the integer part toward zero.
-/

namespace Gridcall

/-- A floating-point number of format `f`: its sign and its word. -/
structure Binary (f : FloatFormat) where
  negative : Bool
  /-- The exponent and fraction fields, read as one natural number. -/
  word : Nat
  word_lt : word < f.wordBound
deriving DecidableEq

abbrev Double := Binary .double

abbrev Single := Binary .single

namespace Binary

variable {f g : FloatFormat}

def zero (negative : Bool) : Binary f where
  negative := negative
  word := 0
  word_lt := Nat.two_pow_pos _

def infinity (negative : Bool) : Binary f where
  negative := negative
  word := f.infinityWord
  word_lt := f.infinityWord_lt

def nan : Binary f where
  negative := false
  word := f.nanWord
  word_lt := f.nanWord_lt

instance : Inhabited (Binary f) := ⟨zero false⟩

/-! ## Kinds -/

def isNaN (x : Binary f) : Bool := f.infinityWord < x.word

def isInfinite (x : Binary f) : Bool := x.word == f.infinityWord

def isFinite (x : Binary f) : Bool := x.word < f.infinityWord

def isZero (x : Binary f) : Bool := x.word == 0

/-! ## Interchange bits -/

/-- The number whose sign bit and fields are the low bits of `bits`. -/
def ofBits (bits : Nat) : Binary f where
  negative := bits / f.wordBound % 2 == 1
  word := bits % f.wordBound
  word_lt := Nat.mod_lt _ (Nat.two_pow_pos _)

/-- The sign bit, followed by the fields. -/
def toBits (x : Binary f) : Nat := (if x.negative then f.wordBound else 0) + x.word

theorem ofBits_toBits (x : Binary f) : ofBits x.toBits = x := by
  obtain ⟨negative, word, hw⟩ := x
  have hpos : 0 < f.wordBound := Nat.two_pow_pos _
  cases negative with
  | false => simp [ofBits, toBits, Nat.mod_eq_of_lt hw, Nat.div_eq_of_lt hw]
  | true => simp [ofBits, toBits, Nat.mod_eq_of_lt hw, Nat.add_div_left _ hpos, Nat.div_eq_of_lt hw]

/-! ## Exact values -/

/-- The magnitude of a finite number, as a number of least positive numbers. -/
def units (x : Binary f) : Nat := f.unitsOf x.word

/-- A finite number as an integer count of least positive numbers. -/
def signedUnits (x : Binary f) : Int := if x.negative then -(x.units : Int) else x.units

/-- The number nearest to `num / den` with the given sign. -/
def ofRatio (negative : Bool) (num den : Nat) : Binary f where
  negative := negative
  word := f.roundWord num den
  word_lt := f.roundWord_lt num den

def ofInt (i : Int) : Binary f := ofRatio (i < 0) i.natAbs 1

/-- The number of format `g` nearest to `x`; infinities and NaN are kept. -/
def convert (x : Binary f) : Binary g :=
  if x.isNaN then nan
  else if x.isInfinite then infinity x.negative
  else ofRatio x.negative x.units f.scale

/-- The integer part, toward zero; `none` for NaN and the infinities. -/
def truncate? (x : Binary f) : Option Int :=
  if x.isFinite then
    some (if x.negative then -((x.units / f.scale : Nat) : Int) else (x.units / f.scale : Nat))
  else none

/-- Numeric equality: the two zeros are equal, and NaN equals nothing. -/
def equals (x y : Binary f) : Bool :=
  !x.isNaN && !y.isNaN && ((x.isZero && y.isZero) || x == y)

/-! ## Arithmetic -/

def neg (x : Binary f) : Binary f := { x with negative := !x.negative }

/-- The sum, rounded once. A zero sum is negative only if both terms are. -/
def add (x y : Binary f) : Binary f :=
  if x.isNaN || y.isNaN then nan
  else if x.isInfinite then
    if y.isInfinite && x.negative != y.negative then nan else x
  else if y.isInfinite then y
  else
    let sum := x.signedUnits + y.signedUnits
    if sum = 0 then zero (x.negative && y.negative)
    else ofRatio (sum < 0) sum.natAbs f.scale

def mul (x y : Binary f) : Binary f :=
  let negative := x.negative != y.negative
  if x.isNaN || y.isNaN then nan
  else if x.isInfinite || y.isInfinite then
    if x.isZero || y.isZero then nan else infinity negative
  else ofRatio negative (x.units * y.units) (f.scale * f.scale)

def div (x y : Binary f) : Binary f :=
  let negative := x.negative != y.negative
  if x.isNaN || y.isNaN then nan
  else if x.isInfinite then if y.isInfinite then nan else infinity negative
  else if y.isInfinite then zero negative
  else if y.isZero then if x.isZero then nan else infinity negative
  else ofRatio negative x.units y.units

end Binary

end Gridcall
