import Gridcall.Host.CellRange
import Gridcall.Host.Grid
import Gridcall.Host.Kinds
import Gridcall.Number.Binary

/-!
# Host values

`HostValue` is the closed set of values that cross the host boundary: every argument arrives as one
and every result leaves as one, errors included.

* `Handle`, `ObjectHandle` : references to managed objects;
* `HostValue.hostType` : the kind of a value;
* `HostGrid.ofRows` : grids of host values, padded with empty cells;
* `OfHost` : ordinary values as host values.
-/

namespace Gridcall

abbrev ClassName := String

/-- The number under which the object table knows an object. -/
structure Handle where
  raw : Int64
deriving DecidableEq

instance : ToString Handle := ⟨fun h => toString h.raw⟩

/-- A reference to a managed object: its handle, and the class it claims to have. -/
structure ObjectHandle where
  /-- The claimed class. It describes the reference and does not decide what it refers to. -/
  className : ClassName
  handle : Handle
deriving DecidableEq

structure SheetId where
  raw : UInt64
deriving DecidableEq

instance : ToString SheetId := ⟨fun s => s!"sheet {s.raw}"⟩

/-- A block of bytes. -/
inductive BigData where
  | inline (bytes : List UInt8)
  /-- A block that the host keeps, by number and length. -/
  | handle (handle length : UInt64)
deriving DecidableEq

inductive HostValue where
  | string (text : String)
  | number (n : Double)
  | boolean (b : Bool)
  | error (code : ErrorCode)
  /-- An argument the caller left out. -/
  | missing
  /-- An empty cell, also the filler of padded grids. -/
  | nil
  | object (handle : ObjectHandle)
  | array (grid : Grid HostValue)
  /-- An area of the calling sheet. -/
  | reference (range : CellRange)
  /-- Areas of a given sheet. -/
  | multiReference (sheet : SheetId) (ranges : List CellRange)
  | sheetId (sheet : SheetId)
  /-- An area bound to no sheet. -/
  | range (range : CellRange)
  | bigData (data : BigData)

abbrev HostGrid := Grid HostValue

def HostGrid.ofRows (rows : List (List HostValue)) : HostGrid := Grid.ofRows .nil rows

def HostGrid.ofRow (values : List HostValue) : HostGrid := Grid.ofRow .nil values

def HostGrid.ofColumn (values : List HostValue) : HostGrid := Grid.ofColumn .nil values

namespace HostValue

instance : Inhabited HostValue := ⟨nil⟩

def hostType : HostValue → HostType
  | string _ => .string
  | number _ => .number
  | boolean _ => .boolean
  | error _ => .error
  | missing => .missing
  | nil => .nil
  | object _ => .object
  | array _ => .array
  | reference _ => .reference
  | multiReference _ _ => .multiReference
  | sheetId _ => .sheetId
  | range _ => .range
  | bigData _ => .bigData

def isError : HostValue → Bool
  | error _ => true
  | _ => false

def asObject? : HostValue → Option ObjectHandle
  | object handle => some handle
  | _ => none

/-- Each cell of a grid is smaller than the grid's value. -/
theorem sizeOf_lt_of_mem_cells {grid : HostGrid} {v : HostValue} (h : v ∈ grid.cells) :
    sizeOf v < sizeOf (array grid) := by
  obtain ⟨rows, columns, cells⟩ := grid
  have := List.sizeOf_lt_of_mem h
  simp only [array.sizeOf_spec, Grid.mk.sizeOf_spec]
  simp only at this
  omega

end HostValue

/-! ## Ordinary values as host values -/

/-- Types whose values have one host value each. -/
class OfHost (α : Type) where
  toHostValue : α → HostValue

export OfHost (toHostValue)

instance : OfHost Double := ⟨.number⟩
instance : OfHost Single := ⟨fun x => .number x.convert⟩
instance : OfHost Int64 := ⟨fun i => .number (.ofInt i.toInt)⟩
instance : OfHost Int32 := ⟨fun i => .number (.ofInt i.toInt)⟩
instance : OfHost Int16 := ⟨fun i => .number (.ofInt i.toInt)⟩
instance : OfHost Int8 := ⟨fun i => .number (.ofInt i.toInt)⟩
instance : OfHost Bool := ⟨.boolean⟩
instance : OfHost String := ⟨.string⟩
instance : OfHost ErrorCode := ⟨.error⟩
instance : OfHost ObjectHandle := ⟨.object⟩
instance : OfHost HostGrid := ⟨.array⟩

end Gridcall
