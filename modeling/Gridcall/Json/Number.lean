import Gridcall.Number.Style

/-!
# Numbers in JSON

* `NumberParts` : a number, split as it is written;
* `NumberParts.toInteger?` : its value as an integer, if it is written as one;
* `NumberParts.toDouble?` : its value as a double.

A double is not read exactly: as many digits as a 64-bit word holds make the significand, which is
then scaled by powers of ten in double arithmetic.
-/

namespace Gridcall

/-- A number, split as it is written. -/
structure NumberParts where
  negative : Bool
  whole : List Char
  /-- The digits after the point, if there is one. -/
  fraction : Option (List Char)
  /-- The exponent, if there is one: whether it is negative, and its digits. -/
  exponent : Option (Bool × List Char)

namespace NumberParts

/-! ## Reading the parts -/

/-- Splits digits from what follows them; there must be at least one. -/
def splitDigits? (cs : List Char) : Option (List Char × List Char) :=
  let digits := cs.takeWhile Char.isDigit
  if digits.isEmpty then none else some (digits, cs.dropWhile Char.isDigit)

/-- Splits off the digits before the point; a zero stands alone. -/
def splitWhole? (cs : List Char) : Option (List Char × List Char) := do
  let (digits, rest) ← splitDigits? cs
  guard (digits == ['0'] || digits.head? != some '0')
  return (digits, rest)

/-- Splits off the point and the digits after it, if there is a point. -/
def splitFraction? : List Char → Option (Option (List Char) × List Char)
  | '.' :: cs => do
    let (digits, rest) ← splitDigits? cs
    return (some digits, rest)
  | cs => some (none, cs)

def readExponentPart? : List Char → Option (Option (Bool × List Char))
  | [] => some none
  | c :: cs => do
    guard (c == 'e' || c == 'E')
    let (negative, cs) := match cs with
      | '-' :: cs => (true, cs)
      | '+' :: cs => (false, cs)
      | cs => (false, cs)
    let (digits, rest) ← splitDigits? cs
    guard rest.isEmpty
    return some (negative, digits)

def ofChars? (cs : List Char) : Option NumberParts := do
  let (negative, cs) := match cs with
    | '-' :: cs => (true, cs)
    | cs => (false, cs)
  let (whole, cs) ← splitWhole? cs
  let (fraction, cs) ← splitFraction? cs
  let exponent ← readExponentPart? cs
  return { negative, whole, fraction, exponent }

/-! ## Integers -/

def digit (c : Char) : Nat := c.toNat - '0'.toNat

def natural (cs : List Char) : Nat := cs.foldl (fun n c => 10 * n + digit c) 0

/-- The value of a number that is written as an integer. Negative zero is not an integer. -/
def toInteger? (p : NumberParts) : Option Int :=
  match p.fraction, p.exponent with
  | none, none =>
    let n := natural p.whole
    if p.negative then if n = 0 then none else some (-(n : Int)) else some n
  | _, _ => none

/-! ## Doubles -/

def maxSignificand : Nat := UInt64.size - 1

/-- The greatest exponent that is not taken for an overflow. -/
def maxExponent : Nat := 2147483647

/-- A significand that is being read. -/
structure Significand where
  value : Nat
  /-- The power of ten that scales them. -/
  exponent : Int
  /-- Whether a digit was met that did not fit. -/
  full : Bool

/-- Reads a digit before the point. Digits that no longer fit raise the exponent. -/
def Significand.pushWhole (s : Significand) (c : Char) : Significand :=
  let value := 10 * s.value + digit c
  if s.full || maxSignificand < value then { s with exponent := s.exponent + 1, full := true }
  else { s with value }

/-- Reads a digit after the point. Digits that no longer fit are dropped. -/
def Significand.pushFraction (s : Significand) (c : Char) : Significand :=
  let value := 10 * s.value + digit c
  if s.full || maxSignificand < value then { s with full := true }
  else { s with value, exponent := s.exponent - 1 }

/-- The significand of a number and the power of ten that its point gives. -/
def significand (p : NumberParts) : Significand :=
  let whole := p.whole.foldl Significand.pushWhole ⟨0, 0, false⟩
  (p.fraction.getD []).foldl Significand.pushFraction { whole with full := false }

def tenTo (n : Nat) : Double := .ofInt (Nat.pow 10 n)

/-- Divides by a power of ten, in steps of at most 308 places, until nothing is left. -/
def divideTenTo (x : Double) (places : Nat) : Double :=
  if places ≤ 308 then x.div (tenTo places)
  else if x.isZero then x
  else divideTenTo (x.div (tenTo 308)) (places - 308)
termination_by places

/-- Scales by a power of ten; `none` if the result is too great. -/
def scaleTen? (x : Double) (exponent : Int) : Option Double :=
  if exponent < 0 then some (divideTenTo x exponent.natAbs)
  else if exponent ≤ 308 then
    let y := x.mul (tenTo exponent.natAbs)
    if y.isInfinite then none else some y
  else if x.isZero then some x
  else none

/-- The value of a number as a double; `none` if it is too great. -/
def toDouble? (p : NumberParts) : Option Double :=
  let s := p.significand
  let magnitude := match p.exponent with
    | none => scaleTen? (.ofInt s.value) s.exponent
    | some (negative, digits) =>
      let e := natural digits
      if maxExponent < e then
        if s.value ≠ 0 && !negative then none else some (.zero false)
      else scaleTen? (.ofInt s.value) (if negative then s.exponent - e else s.exponent + e)
  magnitude.map fun x => if p.negative then x.neg else x

end NumberParts

end Gridcall
