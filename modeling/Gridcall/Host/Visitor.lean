import Gridcall.CallError

/-!
# Visiting host values

A `Visitor` has one method for each kind of value. Methods that are left out refuse their kind, so a
partial visitor rejects what it does not know.

* `HostValue.accept` : the answer of the method for the value's kind;
* `Visitor.describing` : names the kind of every value and shows its content.
-/

namespace Gridcall

/-- One method for each kind of host value. -/
structure Visitor (α : Type) where
  string : String → Except CallError α := fun _ => .error (.unsupportedVariant .string)
  number : Double → Except CallError α := fun _ => .error (.unsupportedVariant .number)
  boolean : Bool → Except CallError α := fun _ => .error (.unsupportedVariant .boolean)
  error : ErrorCode → Except CallError α := fun _ => .error (.unsupportedVariant .error)
  missing : Except CallError α := .error (.unsupportedVariant .missing)
  nil : Except CallError α := .error (.unsupportedVariant .nil)
  object : ObjectHandle → Except CallError α := fun _ => .error (.unsupportedVariant .object)
  array : HostGrid → Except CallError α := fun _ => .error (.unsupportedVariant .array)
  reference : CellRange → Except CallError α := fun _ => .error (.unsupportedVariant .reference)
  multiReference : SheetId → List CellRange → Except CallError α :=
    fun _ _ => .error (.unsupportedVariant .multiReference)
  sheetId : SheetId → Except CallError α := fun _ => .error (.unsupportedVariant .sheetId)
  range : CellRange → Except CallError α := fun _ => .error (.unsupportedVariant .range)
  bigData : BigData → Except CallError α := fun _ => .error (.unsupportedVariant .bigData)

def HostValue.accept {α : Type} (visitor : Visitor α) : HostValue → Except CallError α
  | string s => visitor.string s
  | number n => visitor.number n
  | boolean b => visitor.boolean b
  | error code => visitor.error code
  | missing => visitor.missing
  | nil => visitor.nil
  | object h => visitor.object h
  | array grid => visitor.array grid
  | reference r => visitor.reference r
  | multiReference s rs => visitor.multiReference s rs
  | sheetId s => visitor.sheetId s
  | range r => visitor.range r
  | bigData d => visitor.bigData d

namespace Visitor

def refusing : Visitor String where

/-- The visitor that names the kind of each value and shows its content. -/
def describing : Visitor String where
  string s := .ok s!"string {s}"
  number n := .ok s!"number {n}"
  boolean b := .ok s!"boolean {b}"
  error code := .ok s!"error {code}"
  missing := .ok "missing"
  nil := .ok "nil"
  object h := .ok s!"object {h}"
  array grid := .ok s!"array {grid.size}"
  reference r := .ok s!"reference {r}"
  multiReference s rs := .ok s!"multi_reference {s} {rs.length}"
  sheetId s := .ok s!"sheet_id {s}"
  range r := .ok s!"range {r}"
  bigData
    | .inline bytes => .ok s!"big_data inline {bytes.length}"
    | .handle handle length => .ok s!"big_data handle {handle} {length}"

def text : Visitor String where
  string s := .ok s

def numeric : Visitor Double where
  number n := .ok n

def logical : Visitor Bool where
  boolean b := .ok b

end Visitor

end Gridcall
