/-!
# Binary number formats

* `FloatFormat` : a sign, an exponent field and a fraction field; `FloatFormat.double` and
  `FloatFormat.single` are the two in use;
* `roundHalfEven` : a quotient of naturals rounded to nearest, ties to the even neighbour;
* `FloatFormat.unitsOf` : the magnitude a word stands for, counted in least positive numbers;
* `FloatFormat.roundWord` : the word nearest to a quotient, ties to the even word.

Words without their sign bit are ordered as the magnitudes they stand for. The infinity word ends
the finite ones, and larger words are the values that are not numbers.
-/

namespace Gridcall

/-- The quotient `num / den` rounded to the nearest natural number; a tie goes to the even one. -/
def roundHalfEven (num den : Nat) : Nat :=
  let low := num / den
  let twice := 2 * (num % den)
  if twice < den then low
  else if den < twice then low + 1
  else if low % 2 = 0 then low
  else low + 1

/-- A binary floating-point format, given by the widths of its two fields. -/
structure FloatFormat where
  exponentBits : Nat
  fractionBits : Nat
  /-- The fraction field is not empty, so that words above infinity exist. -/
  fractionBits_pos : 0 < fractionBits := by decide

namespace FloatFormat

def double : FloatFormat where
  exponentBits := 11
  fractionBits := 52

def single : FloatFormat where
  exponentBits := 8
  fractionBits := 23

variable (f : FloatFormat)

/-- The least positive number is two to the power of minus this. -/
def unitExponent : Nat := Nat.pow 2 (f.exponentBits - 1) - 2 + f.fractionBits

/-- The number of least positive numbers in one. -/
def scale : Nat := Nat.pow 2 f.unitExponent

/-- The number of words without a sign. -/
def wordBound : Nat := Nat.pow 2 (f.exponentBits + f.fractionBits)

/-- The word of infinity: exponent field full, fraction zero. -/
def infinityWord : Nat := (Nat.pow 2 f.exponentBits - 1) * Nat.pow 2 f.fractionBits

/-- The word of the value that is not a number: infinity with the leading fraction bit set. -/
def nanWord : Nat := f.infinityWord + Nat.pow 2 (f.fractionBits - 1)

theorem infinityWord_add : f.infinityWord + Nat.pow 2 f.fractionBits = f.wordBound := by
  have hle : Nat.pow 2 f.fractionBits ≤ Nat.pow 2 f.exponentBits * Nat.pow 2 f.fractionBits :=
    Nat.le_mul_of_pos_left _ (Nat.two_pow_pos _)
  have hadd : f.wordBound = Nat.pow 2 f.exponentBits * Nat.pow 2 f.fractionBits := Nat.pow_add ..
  rw [hadd, infinityWord, Nat.sub_mul, Nat.one_mul]
  omega

theorem infinityWord_lt : f.infinityWord < f.wordBound := by
  have := f.infinityWord_add
  have : 0 < Nat.pow 2 f.fractionBits := Nat.two_pow_pos _
  omega

theorem nanWord_lt : f.nanWord < f.wordBound := by
  have h := f.infinityWord_add
  have hlt : Nat.pow 2 (f.fractionBits - 1) < Nat.pow 2 f.fractionBits :=
    Nat.pow_lt_pow_right (by decide) (by have := f.fractionBits_pos; omega)
  simp only [nanWord]
  omega

/-- The magnitude of a finite word, as a number of least positive numbers. -/
def unitsOf (word : Nat) : Nat :=
  let field := word / Nat.pow 2 f.fractionBits
  let fraction := word % Nat.pow 2 f.fractionBits
  if field = 0 then fraction
  else (Nat.pow 2 f.fractionBits + fraction) * Nat.pow 2 (field - 1)

/-- The word nearest to `num / den`, ties to the even word; magnitudes that round beyond the
largest finite one become infinity. -/
def roundWord (num den : Nat) : Nat :=
  let units := num * f.scale
  let shift := (units / den).log2 - f.fractionBits
  min f.infinityWord
    (shift * Nat.pow 2 f.fractionBits + roundHalfEven units (den * Nat.pow 2 shift))

theorem roundWord_lt (num den : Nat) : f.roundWord num den < f.wordBound :=
  Nat.lt_of_le_of_lt (Nat.min_le_left _ _) f.infinityWord_lt

end FloatFormat

end Gridcall
