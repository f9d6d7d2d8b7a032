import Gridcall.Json.Tree

/-!
# Shapes of JSON values

How typed values are laid out in JSON.

* A record is an object with its fields in any order, or an array of them in order. Other fields are
  skipped; missing and repeated ones are refused.
* A choice is the name of a case, or an object whose only field is the case with its content. A case
  without content may be written with null.

Brackets may be nested only so deep: readers are given `room`, the number of brackets that may still
be opened. Skipped fields do not count.
-/

namespace Gridcall

namespace Json

def maxDepth : Nat := 127

/-! ## Single values -/

def text? : Json → Option String
  | string text => text
  | _ => none

def boolean? : Json → Option Bool
  | boolean b => some b
  | _ => none

def parts? : Json → Option NumberParts
  | number text => NumberParts.ofChars? text.toList
  | _ => none

def integer? (j : Json) : Option Int := j.parts?.bind NumberParts.toInteger?

def naturalBelow? (bound : Nat) (j : Json) : Option Nat := do
  let i ← j.integer?
  guard (0 ≤ i && i < bound)
  return i.toNat

def uint8? (j : Json) : Option UInt8 := (j.naturalBelow? UInt8.size).map Nat.toUInt8

def uint32? (j : Json) : Option UInt32 := (j.naturalBelow? UInt32.size).map Nat.toUInt32

def uint64? (j : Json) : Option UInt64 := (j.naturalBelow? UInt64.size).map Nat.toUInt64

def int64? (j : Json) : Option Int64 := do
  let i ← j.integer?
  guard (Int64.minValue.toInt ≤ i && i ≤ Int64.maxValue.toInt)
  return Int64.ofInt i

def double? (j : Json) : Option Double := j.parts?.bind NumberParts.toDouble?

/-! ## Sequences -/

def items? : Json → Option (List Json)
  | array items => some items
  | _ => none

def listOf? {α : Type} (read : Nat → Json → Option α) : Nat → Json → Option (List α)
  | 0, _ => none
  | room + 1, j => do (← j.items?).mapM (read room)

/-! ## Records -/

/-- The value of the field with a name, unless the field is missing or repeated. -/
def only? (name : String) (fields : List (Option String × Json)) : Option Json :=
  match fields.filter fun f => f.1 == some name with
  | [(_, v)] => some v
  | _ => none

def record? (names : List String) : Json → Option (List Json)
  | object fields => do
    guard (fields.all fun f => f.1.isSome)
    names.mapM fun name => only? name fields
  | array items => do
    guard (items.length == names.length)
    return items
  | _ => none

/-! ## Choices -/

def case? : Json → Option (String × Option Json)
  | string (some name) => some (name, none)
  | object [(some name, content)] => some (name, some content)
  | _ => none

def isEmptyContent : Option Json → Bool
  | none => true
  | some null => true
  | some _ => false

def nameOf? {α : Type} (ofName? : String → Option α) (room : Nat) (j : Json) : Option α := do
  let (name, content) ← j.case?
  guard (isEmptyContent content && (content.isNone || 0 < room))
  ofName? name

/-! ## Whole trees -/

mutual

/-- Whether every part of a value can be used: its brackets find room, its texts are texts, and its
numbers are within the range of doubles. -/
def usable (room : Nat) : Json → Bool
  | null => true
  | boolean _ => true
  | number text => (number text).double?.isSome
  | string text => text.isSome
  | array items =>
    match room with
    | 0 => false
    | room + 1 => usableItems room items
  | object fields =>
    match room with
    | 0 => false
    | room + 1 => usableFields room fields

def usableItems (room : Nat) : List Json → Bool
  | [] => true
  | item :: items => item.usable room && usableItems room items

def usableFields (room : Nat) : List (Option String × Json) → Bool
  | [] => true
  | (name, v) :: fields => name.isSome && v.usable room && usableFields room fields

end

end Json

/-! ## Writing shapes -/

/-- Types whose values are written as JSON. -/
class ToJson (α : Type) where
  /-- The JSON value of a value. -/
  toJson : α → Json

export ToJson (toJson)

namespace Json

def ofText (s : String) : Json := string (some s)

def ofInt (i : Int) : Json := number (toString i)

/-- A double; null if it is not finite. -/
def ofDouble (x : Double) : Json := if x.isFinite then number (x.write .json) else null

def ofFields (fields : List (String × Json)) : Json :=
  object (fields.map fun f => (some f.1, f.2))

def ofCase (name : String) (content : Json) : Json := ofFields [(name, content)]

end Json

end Gridcall
