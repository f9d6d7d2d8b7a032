import Gridcall.Number.Decimal

/-!
# Number text

A `NumberStyle` holds the decisions of one written form of numbers: which magnitudes are written
positionally, whether whole numbers keep a point, and how an exponent looks. `Binary.write` lays out
the shortest digits in a style.

* `NumberStyle.cell` : numbers in cells and in messages;
* `NumberStyle.log` : numbers in log events;
* `NumberStyle.json` : numbers in serialized values.
-/

namespace Gridcall

/-- How the shortest digits of a number are laid out. -/
structure NumberStyle where
  /-- The least and the greatest exponent of a leading digit that are written positionally; `none`
  if all are. -/
  plain : Option (Int × Int)
  /-- Whole numbers written positionally end in `.0`. -/
  keepsPoint : Bool
  plusSign : Bool
  /-- Which of two equally near decimals is taken. -/
  tie : Tie

namespace NumberStyle

/-- Cell text is always positional, without a point on whole numbers. -/
def cell : NumberStyle where
  plain := none
  keepsPoint := false
  plusSign := false
  tie := .up

/-- Log text is positional from `0.0001` up to below ten to the sixteen. -/
def log : NumberStyle where
  plain := some (-4, 15)
  keepsPoint := true
  plusSign := false
  tie := .up

/-- Serialized text is positional from `0.00001` up to below ten to the sixteen. -/
def json : NumberStyle where
  plain := some (-5, 15)
  keepsPoint := true
  plusSign := true
  tie := .even

end NumberStyle

def zeros (n : Nat) : String := String.ofList (List.replicate n '0')

namespace Decimal

def positional (d : Decimal) (keepsPoint : Bool) : String :=
  let digits := d.digits.repr
  if 0 ≤ d.exponent then
    digits ++ zeros d.exponent.toNat ++ (if keepsPoint then ".0" else "")
  else
    let places := (-d.exponent).toNat
    if places < digits.length then
      let whole := digits.length - places
      String.ofList (digits.toList.take whole) ++ "." ++ String.ofList (digits.toList.drop whole)
    else
      "0." ++ zeros (places - digits.length) ++ digits

/-- The decimal with one digit before the point and an exponent. -/
def scientific (d : Decimal) (plusSign : Bool) : String :=
  let leading := d.position - 1
  let mantissa := match d.digits.repr.toList with
    | [] => ""
    | [c] => String.ofList [c]
    | c :: rest => String.ofList (c :: '.' :: rest)
  let sign := if leading < 0 then "-" else if plusSign then "+" else ""
  mantissa ++ "e" ++ sign ++ leading.natAbs.repr

def write (d : Decimal) (style : NumberStyle) : String :=
  match style.plain with
  | none => d.positional style.keepsPoint
  | some (least, greatest) =>
    if least ≤ d.position - 1 && d.position - 1 ≤ greatest then d.positional style.keepsPoint
    else d.scientific style.plusSign

end Decimal

namespace Binary

variable {f : FloatFormat}

/-- The text of a number: its shortest digits in the given style. -/
def write (x : Binary f) (style : NumberStyle) : String :=
  if x.isNaN then "NaN"
  else
    let magnitude :=
      if x.isInfinite then "inf"
      else if x.isZero then (if style.keepsPoint then "0.0" else "0")
      else (x.shortest style.tie).write style
    if x.negative then "-" ++ magnitude else magnitude

instance : ToString (Binary f) where
  toString x := x.write .cell

end Binary

end Gridcall
