import Gridcall.Proofs.Host.Shape
import Gridcall.Proofs.Marshal.LastConverter

/-!
# Rows and columns

Where an array is wanted it makes no difference whether the values come in a row or in a column, and of
a grid with more rows only the first column is read.

* `Grid.orFiller` : values of which a grid is made; there is always at least one;
* `Grid.vector_eq_column` : the sequence of a grid with more than one row is its first column;
* `decodeUsing_array_eq_ok_iff` : an array holds what the values of the sequence are decoded to;
* `decodeUsing_row_eq_column` : rows, columns and grids are decoded alike.
-/

namespace Gridcall

/-! ## Sequences of grids -/

namespace Grid

variable {α : Type} {g : Grid α}

/-- The values, or a single filler if there are none. -/
def orFiller (filler : α) (values : List α) : List α := if values = [] then [filler] else values

theorem length_orFiller (filler : α) (values : List α) :
    (orFiller filler values).length = max 1 values.length := by
  unfold orFiller
  split
  · next h =>
    rw [h]
    rfl
  · next h => exact (Nat.max_eq_right (List.length_pos_iff.mpr h)).symm

theorem vector_ofRow_orFiller (filler : α) (values : List α) :
    (ofRow filler values).vector = orFiller filler values := by
  unfold orFiller
  split
  · next h =>
    rw [h]
    rfl
  · next h => exact vector_ofRow filler h

/-- A grid with more than one row is read down its first column. -/
theorem vector_eq_column (hg : g.WellFormed) (hrows : 1 < g.rows) :
    g.vector.length = g.rows ∧ ∀ i, g.vector[i]? = g.get? i 0 := by
  have hget : ∀ i, g.vector[i]? = g.get? i 0 := fun i => by
    rw [getElem?_vector hg, if_neg (Nat.ne_of_gt hrows)]
  refine ⟨Nat.le_antisymm ?_ ?_, hget⟩
  · have hnone : g.vector[g.rows]? = none := by
      rw [hget, get?, if_neg (by simp)]
    exact List.getElem?_eq_none_iff.mp hnone
  · by_contra hlt
    have hsome : (g.get? g.vector.length 0).isSome :=
      (isSome_get?_iff hg).mpr ⟨Nat.lt_of_not_le hlt, hg.columns_pos⟩
    rw [← hget, List.getElem?_eq_none (Nat.le_refl _)] at hsome
    cases hsome

theorem ofColumn_of_ne_nil (filler : α) {values : List α} (h : values ≠ []) :
    ofColumn filler values = { rows := values.length, columns := 1, cells := values } := by
  have hflat : (values.map fun v => [v]).flatten = values := by
    rw [← List.flatMap_def]
    exact List.flatMap_singleton' values
  have hlength : ∀ row ∈ values.map fun v => [v], row.length = 1 := by
    intro row hrow
    obtain ⟨v, -, rfl⟩ := List.mem_map.mp hrow
    rfl
  rw [ofColumn, ofRows_of_length filler (by simpa using h) Nat.one_pos hlength, hflat, List.length_map]

theorem vector_ofColumn_orFiller (filler : α) (values : List α) :
    (ofColumn filler values).vector = orFiller filler values := by
  unfold orFiller
  split
  · next h =>
    rw [h]
    rfl
  · next h =>
    have hg : (ofColumn filler values).WellFormed := wellFormed_ofRows _ _
    rw [ofColumn_of_ne_nil filler h] at hg ⊢
    refine List.ext_getElem? fun i => ?_
    rw [getElem?_vector hg]
    split
    · next hone =>
      have hone : values.length = 1 := hone
      by_cases hi : i < 1
      · simp [get?, hone, hi]
      · simp [get?, hi, hone]
    · by_cases hi : i < values.length
      · simp [get?, hi]
      · simp [get?, hi]

end Grid

/-! ## Arrays -/

section Array

variable {r : Registry} {element : ManagedType} {required : Option ManagedType} {s s' : MarshalState}

/-- An array holds what the values of the sequence are decoded to, one by one. -/
theorem decodeUsing_array_eq_ok_iff {grid : HostGrid} {v : Managed} :
    decodeUsing r (.array element) required (.array grid) s = (.ok v, s') ↔
      ∃ items, v = .array element items ∧ OneByOne (decodeAlone r element) grid.vector s items s' := by
  rw [decodeUsing_array_eq_alone, bind_eq_ok_iff]
  constructor
  · rintro ⟨items, s₁, hrun, hpure⟩
    cases hpure
    exact ⟨items, rfl, mapM_eq_ok_iff.mp hrun⟩
  · rintro ⟨items, rfl, hrun⟩
    exact ⟨items, s', mapM_eq_ok_iff.mpr hrun, rfl⟩

variable (r element required)

/-- An array is decoded from the sequence of a grid alone. -/
theorem decodeUsing_array_congr {grid grid' : HostGrid} (h : grid.vector = grid'.vector) :
    decodeUsing r (.array element) required (.array grid) =
      decodeUsing r (.array element) required (.array grid') := by
  rw [decodeUsing_array_eq_alone, decodeUsing_array_eq_alone, h]

/-- **A row and a column are decoded alike.** In any state a row of values and a column of them give the
same answer and leave the same state: an array of the values' items in their order, of which there is one
even if there is no value, or the error of the first value that is not decoded. Of a grid with more rows
only the first column is read, from top to bottom, just as if it had come alone. -/
theorem decodeUsing_row_eq_column :
    (∀ values,
      decodeUsing r (.array element) required (.array (HostGrid.ofRow values)) =
        decodeUsing r (.array element) required (.array (HostGrid.ofColumn values)) ∧
      (∀ s v s',
        decodeUsing r (.array element) required (.array (HostGrid.ofRow values)) s = (.ok v, s') ↔
          ∃ items, v = .array element items ∧ items.length = max 1 values.length ∧
            OneByOne (decodeAlone r element) (Grid.orFiller .nil values) s items s') ∧
      ∀ s e s',
        decodeUsing r (.array element) required (.array (HostGrid.ofRow values)) s = (.error e, s') ↔
          FirstFails (decodeAlone r element) (Grid.orFiller .nil values) s e s') ∧
    ∀ grid : HostGrid, grid.WellFormed → 1 < grid.rows →
      ∃ column, column.length = grid.rows ∧ (∀ i, column[i]? = grid.get? i 0) ∧
        grid.sequence? = some column ∧
        decodeUsing r (.array element) required (.array grid) =
          decodeUsing r (.array element) required (.array (HostGrid.ofColumn column)) ∧
        decodeUsing r (.array element) required (.array grid) =
          (do return .array element (← column.mapM (decodeAlone r element))) := by
  refine ⟨fun values => ⟨?_, fun s v s' => ?_, fun s e s' => ?_⟩, fun grid hg hrows => ?_⟩
  · refine decodeUsing_array_congr r element required ?_
    rw [HostGrid.ofRow, HostGrid.ofColumn, Grid.vector_ofRow_orFiller, Grid.vector_ofColumn_orFiller]
  · rw [decodeUsing_array_eq_ok_iff, HostGrid.ofRow, Grid.vector_ofRow_orFiller]
    refine exists_congr fun items => and_congr_right fun _ => (and_iff_right_of_imp fun hrun => ?_).symm
    rw [hrun.length_eq, Grid.length_orFiller]
  · rw [decodeUsing_array_eq_alone, map_eq_error_iff, mapM_eq_error_iff, HostGrid.ofRow,
      Grid.vector_ofRow_orFiller]
  · obtain ⟨hlength, hget⟩ := Grid.vector_eq_column hg hrows
    refine ⟨grid.vector, hlength, hget, Grid.sequence?_eq hg, ?_, decodeUsing_array_eq_alone⟩
    have hne : grid.vector ≠ [] := by
      rw [← List.length_pos_iff, hlength]
      exact hg.rows_pos
    refine decodeUsing_array_congr r element required ?_
    rw [HostGrid.ofColumn, Grid.vector_ofColumn_orFiller, Grid.orFiller, if_neg hne]

/-- A grid of two rows and three columns is decoded like the column of its first values. -/
theorem decodeUsing_two_rows_eq_column :
    let grid := HostGrid.ofRows
      [[.string "1", .string "a", .nil], [.boolean true, .missing, .string "b"]]
    grid.WellFormed ∧ 1 < grid.rows ∧
      decodeUsing Converter.defaults (.array .int) none (.array grid) =
        decodeUsing Converter.defaults (.array .int) none
          (.array (HostGrid.ofColumn [.string "1", .boolean true])) := by
  intro grid
  have hg : grid.WellFormed := Grid.wellFormed_ofRows _ _
  have hrows : 1 < grid.rows := by decide
  refine ⟨hg, hrows, ?_⟩
  obtain ⟨column, hlength, hget, -, hcolumn, -⟩ :=
    (decodeUsing_row_eq_column Converter.defaults .int none).2 grid hg hrows
  obtain ⟨first, second, rfl⟩ := List.length_eq_two.mp hlength
  obtain rfl : first = .string "1" := Option.some.inj (hget 0)
  obtain rfl : second = .boolean true := Option.some.inj (hget 1)
  exact hcolumn

end Array

end Gridcall
