import Gridcall.Number.Decimal

/-!
# Reading numbers

* `readInteger?` : an optional sign and digits, of any length;
* `Numeral` : digits, a fraction and a power of ten, with `Numeral.toDecimal`;
* `readBinary?` : decimal text, or the name of an infinity or of NaN, as the nearest number.

Only the ASCII digits are digits here.
-/

namespace Gridcall

def digitsValue (cs : List Char) : Nat := cs.foldl (fun n c => 10 * n + (c.toNat - '0'.toNat)) 0

/-- Splits off a leading sign: whether it was a minus, and the rest. -/
def splitSign : List Char → Bool × List Char
  | '-' :: cs => (true, cs)
  | '+' :: cs => (false, cs)
  | cs => (false, cs)

/-- The non-empty run of digits that `cs` consists of, as a number. -/
def readNatural? (cs : List Char) : Option Nat :=
  if cs.isEmpty then none else if cs.all Char.isDigit then some (digitsValue cs) else none

def readInteger? (cs : List Char) : Option Int :=
  let (negative, rest) := splitSign cs
  (readNatural? rest).map fun n => if negative then -(n : Int) else n

/-- A signed 64-bit integer written in decimal; `none` if it is malformed or out of range. -/
def readInt64? (cs : List Char) : Option Int64 :=
  (readInteger? cs).bind fun i =>
    if Int64.minValue.toInt ≤ i ∧ i ≤ Int64.maxValue.toInt then some (Int64.ofInt i) else none

/-- An unsigned decimal number in text: whole digits, fraction digits and a power of ten. -/
structure Numeral where
  whole : List Char
  fraction : List Char
  /-- The power of ten that follows the exponent mark. -/
  exponent : Int

def Numeral.toDecimal (n : Numeral) : Decimal where
  digits := digitsValue (n.whole ++ n.fraction)
  exponent := n.exponent - n.fraction.length

/-- The exponent part of a numeral: nothing, or a mark and a signed integer. -/
def readExponent? : List Char → Option Int
  | [] => some 0
  | c :: cs => if c == 'e' || c == 'E' then readInteger? cs else none

/-- Digits with an optional point among, before or behind them, and an optional exponent. -/
def readNumeral? (cs : List Char) : Option Numeral :=
  let whole := cs.takeWhile Char.isDigit
  let rest := cs.dropWhile Char.isDigit
  let (fraction, tail) := match rest with
    | '.' :: more => (more.takeWhile Char.isDigit, more.dropWhile Char.isDigit)
    | _ => ([], rest)
  if whole.isEmpty && fraction.isEmpty then none
  else (readExponent? tail).map fun exponent => { whole, fraction, exponent }

/-- Reads a signed decimal numeral, `inf`, `infinity` or `nan` (in letters of either case) as the
number nearest to it. -/
def readBinary? {f : FloatFormat} (cs : List Char) : Option (Binary f) :=
  let (negative, rest) := splitSign cs
  let word := String.ofList (rest.map Char.toLower)
  if word == "inf" || word == "infinity" then some (.infinity negative)
  else if word == "nan" then some .nan
  else (readNumeral? rest).map fun n => n.toDecimal.toBinary negative

end Gridcall
