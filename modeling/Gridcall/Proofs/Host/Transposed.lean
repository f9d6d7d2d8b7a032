import Gridcall.Proofs.Host.Shape

/-!
# Rows and columns exchanged

* `Grid.toColumns`, `Grid.transposed` : the columns of a grid, and the grid that has them as its rows
  (`toRows_transposed`);
* `Grid.get?_transposed` : what stands where in it;
* `Grid.eq_of_get?` : a grid is what stands where in it, so exchanging twice gives the grid back
  (`Grid.transposed_transposed`);
* `Grid.Matches.get?`, `Grid.matches_ofRows` : grids that match, place by place and row by row.
-/

namespace Gridcall.Grid

variable {α β : Type} {g g' : Grid α} {i j : Nat}

def column (g : Grid α) (j : Nat) : List α := g.toRows.filterMap fun row => row[j]?

def toColumns (g : Grid α) : List (List α) := (List.range g.columns).map g.column

def transposed (g : Grid α) : Grid α where
  rows := g.columns
  columns := g.rows
  cells := g.toColumns.flatten

theorem isSome_getElem?_of_mem_toRows (hg : g.WellFormed) (hj : j < g.columns) {row : List α}
    (hrow : row ∈ g.toRows) : (row[j]?).isSome := by
  rw [isSome_getElem?, length_of_mem_toRows hg hrow]
  exact hj

theorem getElem?_column (hg : g.WellFormed) (hj : j < g.columns) (i : Nat) :
    (g.column j)[i]? = g.get? i j := by
  rw [column, getElem?_filterMap fun row hrow => isSome_getElem?_of_mem_toRows hg hj hrow, get?_eq_toRows]

theorem length_column (hg : g.WellFormed) (hj : j < g.columns) : (g.column j).length = g.rows := by
  rw [column, List.length_filterMap_eq_countP, List.countP_eq_length.mpr, length_toRows]
  exact fun row hrow => isSome_getElem?_of_mem_toRows hg hj hrow

/-! ## The grid of the columns -/

theorem length_toColumns : g.toColumns.length = g.columns := by
  rw [toColumns, List.length_map, List.length_range]

theorem length_of_mem_toColumns (hg : g.WellFormed) {column : List α} (h : column ∈ g.toColumns) :
    column.length = g.rows := by
  obtain ⟨j, hj, rfl⟩ := List.mem_map.mp h
  exact length_column hg (List.mem_range.mp hj)

theorem wellFormed_transposed (hg : g.WellFormed) : g.transposed.WellFormed := by
  have hcells := List.length_flatten (L := g.toColumns)
  rw [List.map_congr_left fun _ => length_of_mem_toColumns hg, List.map_const', List.sum_replicate,
    length_toColumns] at hcells
  exact ⟨hg.columns_pos, hg.rows_pos, hcells⟩

theorem toRows_transposed (hg : g.WellFormed) : g.transposed.toRows = g.toColumns := by
  have hrows := map_take_drop_flatten fun _ => length_of_mem_toColumns hg
  rwa [length_toColumns] at hrows

/-! ## Place by place -/

theorem get?_eq_none_of_le_columns (g : Grid α) (i : Nat) (h : g.columns ≤ j) : g.get? i j = none := by
  rw [get?, if_neg]
  simp only [Bool.and_eq_true, decide_eq_true_eq, not_and, Nat.not_lt]
  exact fun _ => h

theorem get?_transposed (hg : g.WellFormed) (i j : Nat) : g.transposed.get? j i = g.get? i j := by
  rw [get?_eq_toRows, toRows_transposed hg, toColumns, List.getElem?_map]
  rcases Nat.lt_or_ge j g.columns with hj | hj
  · rw [List.getElem?_range hj, Option.map_some, Option.bind_some, getElem?_column hg hj]
  · rw [List.getElem?_eq_none (by simpa using hj), get?_eq_none_of_le_columns g i hj]
    rfl

theorem getElem?_cells (hg : g.WellFormed) (n : Nat) :
    g.cells[n]? = g.get? (n / g.columns) (n % g.columns) := by
  have hcolumn : n % g.columns < g.columns := Nat.mod_lt n hg.columns_pos
  rw [get?, Nat.div_add_mod']
  by_cases hrow : n / g.columns < g.rows
  · rw [if_pos (by simp [hrow, hcolumn])]
  · rw [if_neg (by simp [hrow]), List.getElem?_eq_none]
    rw [hg.length_cells]
    exact (Nat.le_div_iff_mul_le hg.columns_pos).mp (Nat.le_of_not_lt hrow)

/-- A grid is its shape and what stands where. -/
theorem eq_of_get? (hg : g.WellFormed) (hg' : g'.WellFormed) (hrows : g.rows = g'.rows)
    (hcolumns : g.columns = g'.columns) (h : ∀ i j, g.get? i j = g'.get? i j) : g = g' := by
  have hcells : g.cells = g'.cells := by
    refine List.ext_getElem? fun n => ?_
    rw [getElem?_cells hg, getElem?_cells hg', h, hcolumns]
  obtain ⟨rows, columns, cells⟩ := g
  obtain ⟨rows', columns', cells'⟩ := g'
  obtain rfl : rows = rows' := hrows
  obtain rfl : columns = columns' := hcolumns
  obtain rfl : cells = cells' := hcells
  rfl

theorem transposed_transposed (hg : g.WellFormed) : g.transposed.transposed = g := by
  have hg' := wellFormed_transposed hg
  refine eq_of_get? (wellFormed_transposed hg') hg rfl rfl fun i j => ?_
  rw [get?_transposed hg', get?_transposed hg]

theorem mem_cells_transposed_iff (hg : g.WellFormed) {a : α} : a ∈ g.transposed.cells ↔ a ∈ g.cells := by
  -- one inclusion for all grids: the other is the same for the grid with rows and columns exchanged
  have hsub : ∀ {g : Grid α}, g.WellFormed → ∀ a ∈ g.transposed.cells, a ∈ g.cells := by
    intro g hg a ha
    obtain ⟨column, hcolumn, ha⟩ := List.mem_flatten.mp ha
    obtain ⟨j, -, rfl⟩ := List.mem_map.mp hcolumn
    obtain ⟨row, hrow, ha⟩ := List.mem_filterMap.mp ha
    exact mem_cells_of_mem_toRows hrow (List.mem_of_getElem? ha)
  refine ⟨hsub hg a, fun ha => ?_⟩
  rw [← transposed_transposed hg] at ha
  exact hsub (wellFormed_transposed hg) a ha

/-! ## Grids that match -/

variable {R : α → β → Prop}

theorem Matches.get? {g' : Grid β} (h : Matches R g g') (i j : Nat) :
    Option.Rel R (g.get? i j) (g'.get? i j) := by
  unfold Grid.get?
  rw [h.rows, h.columns]
  split
  · exact rel_getElem? h.cells _
  · exact .none

/-- Rows that match those of a grid make a grid that matches it. -/
theorem matches_ofRows (hg : g.WellFormed) (filler : β) {rows' : List (List β)}
    (h : List.Forall₂ (List.Forall₂ R) g.toRows rows') :
    Matches R g (ofRows filler rows') ∧ (ofRows filler rows').cells = rows'.flatten := by
  have hlength : rows'.length = g.rows := by rw [← h.length_eq, length_toRows]
  have hne : rows' ≠ [] := by
    rw [← List.length_pos_iff, hlength]
    exact hg.rows_pos
  have hwide : List.Forall₂ (fun row' row => row'.length = g.columns ∧ List.Forall₂ R row row') rows' g.toRows :=
    (((List.forall₂_and_left _ _).mpr ⟨fun _ => length_of_mem_toRows hg, h⟩).imp fun _ _ hrow =>
      ⟨hrow.2.length_eq.symm.trans hrow.1, hrow.2⟩).flip
  rw [ofRows_of_length filler hne hg.columns_pos ((List.forall₂_and_left _ _).mp hwide).1]
  refine ⟨⟨hlength.symm, rfl, ?_⟩, rfl⟩
  rw [← flatten_toRows hg]
  exact List.rel_flatten h

end Gridcall.Grid
