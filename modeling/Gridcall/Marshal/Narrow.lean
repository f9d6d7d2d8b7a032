import Gridcall.CallError
import Gridcall.Number.Style
import Gridcall.Text.Blank

/-!
# Narrowing numbers

Host numbers are doubles. `narrow` turns one into a numeric managed type: integer targets take the
integer part, and what lies outside the target's range is an error and never wraps.

* `IntegerKind` : the four integer targets with their bounds;
* `narrow` : a double to any numeric type;
* `readNumber` : text to any numeric type, integers of any length exactly.
-/

namespace Gridcall

/-- An integer type of the managed side. -/
inductive IntegerKind where
  | byte
  | short
  | int
  | long
deriving DecidableEq

namespace IntegerKind

def managedType : IntegerKind → ManagedType
  | byte => .byte
  | short => .short
  | int => .int
  | long => .long

def ofManagedType? : ManagedType → Option IntegerKind
  | .byte => some byte
  | .short => some short
  | .int => some int
  | .long => some long
  | _ => none

def least : IntegerKind → Int
  | byte => -128
  | short => -32768
  | int => -2147483648
  | long => -9223372036854775808

def greatest : IntegerKind → Int
  | byte => 127
  | short => 32767
  | int => 2147483647
  | long => 9223372036854775807

def contains (k : IntegerKind) (i : Int) : Bool := k.least ≤ i && i ≤ k.greatest

/-- The managed value of an integer between the bounds. -/
def wrap (k : IntegerKind) (i : Int) : Managed :=
  match k with
  | byte => .byte (.ofInt i)
  | short => .short (.ofInt i)
  | int => .int (.ofInt i)
  | long => .long (.ofInt i)

end IntegerKind

def outOfRange (target : ManagedType) (number : String) : CallError :=
  .conversion target.text s!"{number} is out of range"

/-- An integer as a value of the given kind, if it lies between the bounds. -/
def narrowInteger (k : IntegerKind) (i : Int) : Except CallError Managed :=
  if k.contains i then .ok (k.wrap i) else .error (outOfRange k.managedType (toString i))

/-- The integer part of a double as a value of the given kind. The double nearest to the greatest
value stands for it, also where it lies one above. -/
def narrowDouble (k : IntegerKind) (x : Double) : Except CallError Managed :=
  match x.truncate? with
  | none => .error (outOfRange k.managedType (toString x))
  | some i =>
    if k.contains i then .ok (k.wrap i)
    else if (Binary.ofInt k.greatest : Double).truncate? = some i then .ok (k.wrap k.greatest)
    else .error (outOfRange k.managedType (toString x))

def narrow (target : ManagedType) (x : Double) : Except CallError Managed :=
  match target, IntegerKind.ofManagedType? target with
  | .double, _ => .ok (.double x)
  | .float, _ => .ok (.float x.convert)
  | _, some k => narrowDouble k x
  | _, none => .error (.typeMismatch "numeric type" target.text)

/-- Text as a value of a numeric type. Blanks around the number are skipped. Text that spells a
64-bit integer is read exactly for integer targets; all else is read as a double and narrowed. -/
def readNumber (target : ManagedType) (text : String) : Except CallError Managed :=
  let trimmed := trimBlank text.toList
  let viaDouble : Except CallError Managed :=
    match (readBinary? trimmed : Option Double) with
    | some x => narrow target x
    | none => .error (.conversion target.text ("\x60" ++ text ++ "\x60 is not a number"))
  match IntegerKind.ofManagedType? target, readInt64? trimmed with
  | some k, some i => narrowInteger k i.toInt
  | _, _ => viaDouble

end Gridcall
