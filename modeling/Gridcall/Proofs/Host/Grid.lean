import Gridcall.Host.Grid
import Mathlib

/-!
# Grids and their rows

* `Grid.length_of_mem_toRows` : the rows of a well-formed grid are as long as the grid is wide;
* `Grid.toRows_ofRows`, `Grid.ofRows_toRows` : a rectangle is read back row by row, and a well-formed
  grid is made up of its rows;
* `Grid.vector_ofRow` : a row is read back as a sequence;
* `Grid.Matches R g g'` : the cells of two grids of one shape are related place by place, and so are
  their rows (`Matches.toRows`) and the two grids read as sequences (`Matches.vector`).
-/

namespace Gridcall.Grid

variable {α : Type} {g : Grid α}

theorem length_toRows : g.toRows.length = g.rows := by
  rw [toRows, List.length_map, List.length_range]

theorem length_of_mem_toRows (hg : g.WellFormed) {row : List α} (hrow : row ∈ g.toRows) :
    row.length = g.columns := by
  obtain ⟨i, hi, rfl⟩ := List.mem_map.mp hrow
  have hle := Nat.mul_le_mul_right g.columns (Nat.succ_le_of_lt (List.mem_range.mp hi))
  rw [Nat.succ_mul] at hle
  rw [List.length_take, List.length_drop, hg.length_cells]
  omega

/-! ## Rectangles -/

theorem padTo_of_length (filler : α) {columns : Nat} {row : List α} (h : row.length = columns) :
    padTo filler columns row = row := by
  rw [padTo, ← h, List.take_length, Nat.sub_self, List.replicate_zero, List.append_nil]

theorem foldl_max_eq {columns : Nat} {lengths : List Nat} (h : ∀ n ∈ lengths, n = columns) :
    lengths.foldl max columns = columns := by
  induction lengths with
  | nil => rfl
  | cons n lengths ih =>
    rw [List.foldl_cons, h n List.mem_cons_self, Nat.max_self]
    exact ih fun n hn => h n (List.mem_cons_of_mem _ hn)

theorem width_eq {columns : Nat} {rows : List (List α)} (hrows : rows ≠ [])
    (h : ∀ row ∈ rows, row.length = columns) : width rows = columns := by
  obtain ⟨row, rows, rfl⟩ := List.exists_cons_of_ne_nil hrows
  rw [width, List.map_cons, List.foldl_cons, Nat.zero_max, h row List.mem_cons_self]
  refine foldl_max_eq fun n hn => ?_
  obtain ⟨row, hrow, rfl⟩ := List.mem_map.mp hn
  exact h row (List.mem_cons_of_mem _ hrow)

theorem flatMap_padTo (filler : α) {columns : Nat} {rows : List (List α)}
    (h : ∀ row ∈ rows, row.length = columns) : rows.flatMap (padTo filler columns) = rows.flatten := by
  induction rows with
  | nil => rfl
  | cons row rows ih =>
    rw [List.flatMap_cons, List.flatten_cons, padTo_of_length filler (h row List.mem_cons_self),
      ih fun row hrow => h row (List.mem_cons_of_mem _ hrow)]

theorem ofRows_of_length (filler : α) {columns : Nat} {rows : List (List α)} (hrows : rows ≠ [])
    (hcolumns : 0 < columns) (h : ∀ row ∈ rows, row.length = columns) :
    ofRows filler rows = { rows := rows.length, columns, cells := rows.flatten } := by
  have hne : (rows.isEmpty || columns == 0) = false := by
    rw [Bool.or_eq_false_iff, List.isEmpty_eq_false_iff, beq_eq_false_iff_ne]
    exact ⟨hrows, Nat.ne_of_gt hcolumns⟩
  simp only [ofRows, width_eq hrows h, hne, flatMap_padTo filler h, Bool.false_eq_true, if_false]

/-- The pieces of rows of one length that were put together are those rows. -/
theorem map_take_drop_flatten {columns : Nat} {rows : List (List α)}
    (h : ∀ row ∈ rows, row.length = columns) :
    (List.range rows.length).map (fun i => (rows.flatten.drop (i * columns)).take columns) = rows := by
  induction rows with
  | nil => rfl
  | cons row rows ih =>
    have hrow := h row List.mem_cons_self
    have hrest := ih fun row hrow => h row (List.mem_cons_of_mem _ hrow)
    rw [List.length_cons, List.range_succ_eq_map, List.map_cons, List.map_map, List.flatten_cons]
    congr 1
    · rw [Nat.zero_mul, List.drop_zero, List.take_left' hrow]
    · refine (List.map_congr_left fun i _ => ?_).trans hrest
      rw [Function.comp_apply, Nat.succ_mul, Nat.add_comm, ← List.drop_drop, List.drop_left' hrow]

/-- A rectangle is read back row by row. -/
theorem toRows_ofRows (filler : α) {columns : Nat} {rows : List (List α)} (hrows : rows ≠ [])
    (hcolumns : 0 < columns) (h : ∀ row ∈ rows, row.length = columns) :
    (ofRows filler rows).toRows = rows := by
  rw [ofRows_of_length filler hrows hcolumns h, toRows]
  exact map_take_drop_flatten h

/-- The pieces of one length into which a sequence is cut make up the sequence. -/
theorem flatten_map_take_drop {columns rows : Nat} {cells : List α} (h : cells.length = rows * columns) :
    ((List.range rows).map fun i => (cells.drop (i * columns)).take columns).flatten = cells := by
  induction rows generalizing cells with
  | zero =>
    rw [Nat.zero_mul] at h
    rw [List.length_eq_zero_iff.mp h]
    rfl
  | succ rows ih =>
    rw [Nat.succ_mul] at h
    have hlength : (cells.drop columns).length = rows * columns := by
      rw [List.length_drop, h, Nat.add_sub_cancel]
    have hrest := ih hlength
    rw [List.range_succ_eq_map, List.map_cons, List.map_map, List.flatten_cons, Nat.zero_mul,
      List.drop_zero]
    conv_rhs => rw [← List.take_append_drop columns cells, ← hrest]
    congr 3
    funext i
    rw [Function.comp_apply, Nat.succ_mul, Nat.add_comm, ← List.drop_drop]

theorem flatten_toRows (hg : g.WellFormed) : g.toRows.flatten = g.cells :=
  flatten_map_take_drop hg.length_cells

/-- A grid is made up of its rows. -/
theorem ofRows_toRows (filler : α) (hg : g.WellFormed) : ofRows filler g.toRows = g := by
  have hrows : g.toRows ≠ [] := by
    rw [← List.length_pos_iff, length_toRows]
    exact hg.rows_pos
  rw [ofRows_of_length filler hrows hg.columns_pos fun row => length_of_mem_toRows hg, length_toRows,
    flatten_toRows hg]

/-- A row is read back as a sequence. -/
theorem vector_ofRow (filler : α) {values : List α} (h : values ≠ []) :
    (ofRow filler values).vector = values := by
  rw [ofRow, ofRows_of_length filler (by simp) (List.length_pos_iff.mpr h) (by simp)]
  simp [vector, isRow]

/-! ## Two grids, place by place -/

variable {β : Type} {R : α → β → Prop} {g' : Grid β}

/-- Grids of one shape whose cells are related place by place. -/
structure Matches (R : α → β → Prop) (g : Grid α) (g' : Grid β) : Prop where
  rows : g.rows = g'.rows
  columns : g.columns = g'.columns
  cells : List.Forall₂ R g.cells g'.cells

theorem rel_getElem? {as : List α} {bs : List β} (h : List.Forall₂ R as bs) (i : Nat) :
    Option.Rel R as[i]? bs[i]? := by
  induction h generalizing i with
  | nil => exact .none
  | cons hab _ ih =>
    cases i with
    | zero => exact .some hab
    | succ i => exact ih i

theorem Matches.toRows (h : Matches R g g') : List.Forall₂ (List.Forall₂ R) g.toRows g'.toRows := by
  unfold Grid.toRows
  rw [h.rows, h.columns, List.forall₂_map_left_iff, List.forall₂_map_right_iff, List.forall₂_same]
  intro row _
  exact List.forall₂_take _ (List.forall₂_drop _ h.cells)

theorem Matches.vector (h : Matches R g g') : List.Forall₂ R g.vector g'.vector := by
  unfold Grid.vector isRow firstColumn
  rw [h.rows, h.columns]
  split
  · exact List.forall₂_take _ h.cells
  · refine List.rel_filterMap ?_ (List.forall₂_same.mpr fun row _ => rfl)
    rintro row _ rfl
    exact rel_getElem? h.cells _

end Gridcall.Grid
