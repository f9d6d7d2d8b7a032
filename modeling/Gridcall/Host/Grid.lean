/-!
# Grids

A `Grid` holds values row by row. The grids of the library are made by `Grid.ofRows`, which pads
ragged input to a rectangle and so keeps `Grid.WellFormed`: at least one row and one column, and as
many cells as there are places.

* `Grid.get?` : the value at a place;
* `Grid.toRows` : the rows, each as long as the grid is wide;
* `Grid.vector` : the grid as a sequence, a single row or else the first column.
-/

namespace Gridcall

/-- Values laid out in rows and columns, stored row by row. -/
structure Grid (α : Type) where
  rows : Nat
  columns : Nat
  /-- The values, row after row. -/
  cells : List α

namespace Grid

variable {α : Type}

/-- A grid is rectangular and holds at least one cell. -/
structure WellFormed (g : Grid α) : Prop where
  rows_pos : 0 < g.rows
  columns_pos : 0 < g.columns
  /-- Every place holds a value. -/
  length_cells : g.cells.length = g.rows * g.columns

def padTo (filler : α) (columns : Nat) (row : List α) : List α :=
  row.take columns ++ List.replicate (columns - row.length) filler

def width (rows : List (List α)) : Nat := (rows.map List.length).foldl max 0

/-- The grid of the given rows, short ones padded on the right. Rows without any value make a grid
of a single filler. -/
def ofRows (filler : α) (rows : List (List α)) : Grid α :=
  let columns := width rows
  if rows.isEmpty || columns == 0 then { rows := 1, columns := 1, cells := [filler] }
  else { rows := rows.length, columns, cells := rows.flatMap (padTo filler columns) }

def ofRow (filler : α) (values : List α) : Grid α := ofRows filler [values]

def ofColumn (filler : α) (values : List α) : Grid α := ofRows filler (values.map fun v => [v])

def size (g : Grid α) : Nat := g.cells.length

def isRow (g : Grid α) : Bool := g.rows == 1

def isColumn (g : Grid α) : Bool := g.columns == 1

/-- The value in the given row and column, if the place lies inside the grid. -/
def get? (g : Grid α) (row column : Nat) : Option α :=
  if row < g.rows && column < g.columns then g.cells[row * g.columns + column]? else none

def toRows (g : Grid α) : List (List α) :=
  (List.range g.rows).map fun row => (g.cells.drop (row * g.columns)).take g.columns

def firstColumn (g : Grid α) : List α :=
  (List.range g.rows).filterMap fun row => g.cells[row * g.columns]?

/-- The grid as a sequence: the row of a grid that has only one, otherwise the first column. -/
def vector (g : Grid α) : List α := if g.isRow then g.cells.take g.columns else g.firstColumn

theorem length_padTo (filler : α) (columns : Nat) (row : List α) :
    (padTo filler columns row).length = columns := by
  simp only [padTo, List.length_append, List.length_take, List.length_replicate]
  omega

theorem length_flatMap_padTo (filler : α) (columns : Nat) (rows : List (List α)) :
    (rows.flatMap (padTo filler columns)).length = rows.length * columns := by
  induction rows with
  | nil => simp
  | cons row rows ih =>
    rw [List.flatMap_cons, List.length_append, length_padTo, ih, List.length_cons, Nat.add_mul]
    omega

/-- Rows of any lengths make a rectangle. -/
theorem wellFormed_ofRows (filler : α) (rows : List (List α)) : (ofRows filler rows).WellFormed := by
  simp only [ofRows]
  split
  · exact ⟨Nat.one_pos, Nat.one_pos, rfl⟩
  · rename_i h
    simp only [Bool.or_eq_true, List.isEmpty_iff, beq_iff_eq, not_or] at h
    exact ⟨List.length_pos_iff.mpr h.1, Nat.pos_of_ne_zero h.2, length_flatMap_padTo filler _ rows⟩

theorem mem_cells_of_mem_toRows {g : Grid α} {row : List α} {a : α} (hrow : row ∈ g.toRows)
    (ha : a ∈ row) : a ∈ g.cells := by
  obtain ⟨i, _, rfl⟩ := List.mem_map.mp hrow
  exact List.mem_of_mem_drop (List.mem_of_mem_take ha)

theorem mem_cells_of_mem_vector {g : Grid α} {a : α} (h : a ∈ g.vector) : a ∈ g.cells := by
  unfold vector at h
  split at h
  · exact List.mem_of_mem_take h
  · obtain ⟨i, _, hi⟩ := List.mem_filterMap.mp h
    exact List.mem_of_getElem? hi

end Grid

end Gridcall
