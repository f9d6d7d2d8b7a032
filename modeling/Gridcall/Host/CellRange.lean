/-!
# Cell ranges

A `CellRange` is a rectangular area of a sheet, zero-based and inclusive at both ends. Its bounds
are in order, which `CellRange.ofBounds` checks, rows first.
-/

namespace Gridcall

/-- One of the two directions of a sheet. -/
inductive Axis where
  /-- From top to bottom. -/
  | row
  /-- From left to right. -/
  | column
deriving DecidableEq

def Axis.text : Axis → String
  | row => "row"
  | column => "column"

/-- Bounds on one axis that are out of order. -/
structure RangeError where
  axis : Axis
  /-- The first bound, which is after the last. -/
  first : UInt32
  last : UInt32
deriving DecidableEq

def RangeError.message (e : RangeError) : String :=
  s!"first {e.axis.text} {e.first} is after last {e.axis.text} {e.last}"

/-- A rectangular area of cells. -/
structure CellRange where
  rowFirst : UInt32
  rowLast : UInt32
  columnFirst : UInt32
  columnLast : UInt32
  row_le : rowFirst ≤ rowLast
  column_le : columnFirst ≤ columnLast
deriving DecidableEq

namespace CellRange

/-- The area with the given bounds, or the first axis on which they are out of order. -/
def ofBounds (rowFirst rowLast columnFirst columnLast : UInt32) : Except RangeError CellRange :=
  if hr : rowFirst ≤ rowLast then
    if hc : columnFirst ≤ columnLast then
      .ok { rowFirst, rowLast, columnFirst, columnLast, row_le := hr, column_le := hc }
    else .error { axis := .column, first := columnFirst, last := columnLast }
  else .error { axis := .row, first := rowFirst, last := rowLast }

def cell (row column : UInt32) : CellRange where
  rowFirst := row
  rowLast := row
  columnFirst := column
  columnLast := column
  row_le := UInt32.le_refl row
  column_le := UInt32.le_refl column

def isSingleRow (r : CellRange) : Bool := r.rowFirst == r.rowLast

def isSingleColumn (r : CellRange) : Bool := r.columnFirst == r.columnLast

def isSingleCell (r : CellRange) : Bool := r.isSingleRow && r.isSingleColumn

def corner (row column : UInt32) : String := s!"R{row.toNat + 1}C{column.toNat + 1}"

/-- The corners of the area; a single cell is written once. -/
def text (r : CellRange) : String :=
  if r.isSingleCell then corner r.rowFirst r.columnFirst
  else corner r.rowFirst r.columnFirst ++ ":" ++ corner r.rowLast r.columnLast

instance : ToString CellRange := ⟨text⟩

end CellRange

end Gridcall
