import Gridcall.Proofs.Host.Grid

/-!
# The shape of grids

Rows of any lengths make a rectangle, and however a rectangle is read, the same value stands at the
same place.

* `Grid.toRows_ofRows_padTo`, `Grid.Pads filler rows g` : what a grid of ragged rows holds, place by
  place (`pads_ofRows`);
* `Grid.pieces?`, `Grid.stride?` : a list cut into pieces, and its items at a step from each other.
  Neither is there for a length of zero;
* `Grid.sequence?` : the sequence of a grid, read by steps through its cells;
* `Grid.Coherent g` : rows, places and sequences are readings of the same cells
  (`WellFormed.coherent`).
-/

namespace Gridcall.Grid

variable {α β : Type} {g : Grid α}

/-! ## The longest row -/

theorem width_cons (row : List α) (rows : List (List α)) :
    width (row :: rows) = max row.length (width rows) := by
  rw [width, width, List.map_cons, List.foldl_cons, Nat.max_comm, List.foldl_assoc]

theorem length_le_width {row : List α} {rows : List (List α)} (h : row ∈ rows) :
    row.length ≤ width rows := by
  induction rows with
  | nil => cases h
  | cons first rows ih =>
    rw [width_cons]
    rcases List.mem_cons.mp h with rfl | h
    · exact Nat.le_max_left _ _
    · exact Nat.le_trans (ih h) (Nat.le_max_right _ _)

theorem exists_length_eq_width {rows : List (List α)} (h : rows ≠ []) :
    ∃ row ∈ rows, row.length = width rows := by
  induction rows with
  | nil => exact absurd rfl h
  | cons first rows ih =>
    rw [width_cons]
    rcases Nat.le_total (width rows) first.length with hle | hle
    · exact ⟨first, List.mem_cons_self, (Nat.max_eq_left hle).symm⟩
    · rw [Nat.max_eq_right hle]
      by_cases hrows : rows = []
      · subst hrows
        exact ⟨first, List.mem_cons_self, Nat.le_antisymm hle (Nat.zero_le _)⟩
      · obtain ⟨row, hrow, hlength⟩ := ih hrows
        exact ⟨row, List.mem_cons_of_mem _ hrow, hlength⟩

theorem width_pos_iff {rows : List (List α)} : 0 < width rows ↔ ∃ row ∈ rows, row ≠ [] := by
  constructor
  · intro h
    have hrows : rows ≠ [] := by
      rintro rfl
      exact Nat.lt_irrefl 0 h
    obtain ⟨row, hrow, hlength⟩ := exists_length_eq_width hrows
    exact ⟨row, hrow, List.length_pos_iff.mp (hlength ▸ h)⟩
  · rintro ⟨row, hrow, hne⟩
    exact Nat.lt_of_lt_of_le (List.length_pos_iff.mpr hne) (length_le_width hrow)

/-! ## Ragged rows -/

theorem getElem?_padTo (filler : α) {columns : Nat} (row : List α) {column : Nat} (h : column < columns) :
    (padTo filler columns row)[column]? = some (row[column]?.getD filler) := by
  rw [padTo, List.getElem?_append, List.length_take, List.getElem?_take, if_pos h]
  by_cases hrow : column < row.length
  · rw [if_pos (by omega), List.getElem?_eq_getElem hrow, Option.getD_some]
  · rw [if_neg (by omega), List.getElem?_replicate, if_pos (by omega),
      List.getElem?_eq_none (Nat.le_of_not_lt hrow), Option.getD_none]

theorem ofRows_of_pos (filler : α) {rows : List (List α)} (h : 0 < width rows) :
    ofRows filler rows =
      { rows := rows.length, columns := width rows, cells := rows.flatMap (padTo filler (width rows)) } := by
  obtain ⟨row, hrow, -⟩ := width_pos_iff.mp h
  have hne : (rows.isEmpty || width rows == 0) = false := by
    rw [Bool.or_eq_false_iff, List.isEmpty_eq_false_iff, beq_eq_false_iff_ne]
    exact ⟨List.ne_nil_of_mem hrow, Nat.ne_of_gt h⟩
  simp only [ofRows, hne, Bool.false_eq_true, if_false]

theorem ofRows_of_width_eq_zero (filler : α) {rows : List (List α)} (h : width rows = 0) :
    ofRows filler rows = { rows := 1, columns := 1, cells := [filler] } := by
  simp only [ofRows, h, beq_self_eq_true, Bool.or_true, if_true]

/-- The rows of a grid are those that it was made of, padded to the length of the longest. -/
theorem toRows_ofRows_padTo (filler : α) {rows : List (List α)} (h : 0 < width rows) :
    (ofRows filler rows).toRows = rows.map (padTo filler (width rows)) := by
  have hlength : ∀ row ∈ rows.map (padTo filler (width rows)), row.length = width rows := by
    intro row hrow
    obtain ⟨row, -, rfl⟩ := List.mem_map.mp hrow
    exact length_padTo filler _ row
  have hpieces := map_take_drop_flatten hlength
  rw [List.length_map, ← List.flatMap_def] at hpieces
  rw [ofRows_of_pos filler h, toRows]
  exact hpieces

/-! ## Places -/

/-- The value at a place is the one that stands there in its row. -/
theorem get?_eq_toRows (g : Grid α) (row column : Nat) :
    g.get? row column = g.toRows[row]?.bind fun cells => cells[column]? := by
  rw [get?, toRows, List.getElem?_map]
  by_cases hrow : row < g.rows
  · rw [List.getElem?_range hrow, Option.map_some, Option.bind_some, List.getElem?_take,
      List.getElem?_drop]
    by_cases hcolumn : column < g.columns
    · simp [hrow, hcolumn]
    · simp [hcolumn]
  · simp [hrow]

theorem isSome_get?_iff (hg : g.WellFormed) {row column : Nat} :
    (g.get? row column).isSome ↔ row < g.rows ∧ column < g.columns := by
  rw [get?]
  by_cases h : row < g.rows ∧ column < g.columns
  · have hle := Nat.mul_le_mul_right g.columns (Nat.succ_le_of_lt h.1)
    rw [Nat.succ_mul] at hle
    have hlt : row * g.columns + column < g.cells.length := by
      rw [hg.length_cells]
      omega
    simp [h, hlt]
  · simp [h]

/-- What a grid of rows holds: a value of a row at its place, and the filler at every other one. Rows
without any value make a single filler. -/
structure Pads (filler : α) (rows : List (List α)) (g : Grid α) : Prop where
  /-- Each row has its place, as soon as one of them holds a value. -/
  rows_eq : (∃ row ∈ rows, row ≠ []) → g.rows = rows.length
  /-- The grid is as wide as the longest row. -/
  columns_isGreatest : (∃ row ∈ rows, row ≠ []) →
    IsGreatest {n | ∃ row ∈ rows, row.length = n} g.columns
  eq_of_empty : (∀ row ∈ rows, row = []) → g = { rows := 1, columns := 1, cells := [filler] }
  get?_eq : ∀ row column, row < g.rows → column < g.columns →
    g.get? row column = some ((rows[row]?.bind fun cells => cells[column]?).getD filler)

theorem pads_ofRows (filler : α) (rows : List (List α)) : Pads filler rows (ofRows filler rows) := by
  rcases Nat.eq_zero_or_pos (width rows) with hwidth | hwidth
  · have hempty : ∀ row ∈ rows, row = [] := fun row hrow =>
      List.length_eq_zero_iff.mp (Nat.le_zero.mp (hwidth ▸ length_le_width hrow))
    have hne : ¬ ∃ row ∈ rows, row ≠ [] := fun ⟨row, hrow, hvalue⟩ => hvalue (hempty row hrow)
    rw [ofRows_of_width_eq_zero filler hwidth]
    refine ⟨fun h => absurd h hne, fun h => absurd h hne, fun _ => rfl, fun row column hrow hcolumn => ?_⟩
    obtain rfl : row = 0 := Nat.lt_one_iff.mp hrow
    obtain rfl : column = 0 := Nat.lt_one_iff.mp hcolumn
    cases rows with
    | nil => rfl
    | cons first rows =>
      obtain rfl := hempty first List.mem_cons_self
      rfl
  · have hvalue := width_pos_iff.mp hwidth
    have htoRows := toRows_ofRows_padTo filler hwidth
    rw [ofRows_of_pos filler hwidth] at htoRows ⊢
    refine ⟨fun _ => rfl, fun _ => ⟨?_, ?_⟩, fun h => ?_, fun row column hrow hcolumn => ?_⟩
    · obtain ⟨row, hrow, -⟩ := hvalue
      exact exists_length_eq_width (List.ne_nil_of_mem hrow)
    · rintro n ⟨row, hrow, rfl⟩
      exact length_le_width hrow
    · obtain ⟨row, hrow, hne⟩ := hvalue
      exact absurd (h row hrow) hne
    · rw [get?_eq_toRows, htoRows, List.getElem?_map, List.getElem?_eq_getElem hrow, Option.map_some,
        Option.bind_some, Option.bind_some, getElem?_padTo filler _ hcolumn]

/-! ## Pieces and strides -/

/-- The list cut into pieces of a length, the last of which may be shorter. -/
def pieces (length : Nat) : List α → List (List α)
  | [] => []
  | a :: as => (a :: as.take (length - 1)) :: pieces length (as.drop (length - 1))
termination_by as => as.length
decreasing_by simp only [List.length_drop, List.length_cons]; omega

/-- The list cut into pieces of a length, if there are pieces of that length. -/
def pieces? (length : Nat) (as : List α) : Option (List (List α)) :=
  if length = 0 then none else some (pieces length as)

/-- The first item of a list, and after each one the item that stands a step further on. -/
def stride (step : Nat) : List α → List α
  | [] => []
  | a :: as => a :: stride step (as.drop (step - 1))
termination_by as => as.length
decreasing_by simp only [List.length_drop, List.length_cons]; omega

/-- Items at a step from each other, if one gets on by such steps. -/
def stride? (step : Nat) (as : List α) : Option (List α) :=
  if step = 0 then none else some (stride step as)

/-- The sequence that a grid is read as, if its cells can be gone through: its cells one by one if it is a
row, otherwise one cell of every row. -/
def sequence? (g : Grid α) : Option (List α) :=
  if g.isRow then (stride? 1 g.cells).map (List.take g.columns)
  else (stride? g.columns g.cells).map (List.take g.rows)

theorem pieces_eq {length rows : Nat} {as : List α} (hpos : 0 < length) (h : as.length = rows * length) :
    pieces length as = (List.range rows).map fun i => (as.drop (i * length)).take length := by
  induction rows generalizing as with
  | zero =>
    rw [Nat.zero_mul] at h
    rw [List.length_eq_zero_iff.mp h, pieces]
    rfl
  | succ rows ih =>
    rw [Nat.succ_mul] at h
    cases as with
    | nil => simp at h; omega
    | cons a as =>
      obtain ⟨length, rfl⟩ : ∃ k, length = k + 1 := ⟨length - 1, by omega⟩
      have hrest : (as.drop length).length = rows * (length + 1) := by
        rw [List.length_drop]
        rw [List.length_cons] at h
        omega
      rw [pieces, Nat.add_sub_cancel, ih hrest, List.range_succ_eq_map, List.map_cons, List.map_map,
        Nat.zero_mul, List.drop_zero, List.take_succ_cons]
      refine congrArg _ (List.map_congr_left fun i _ => ?_)
      rw [Function.comp_apply, Nat.succ_mul, ← Nat.add_assoc, List.drop_succ_cons, List.drop_drop,
        Nat.add_comm length (i * (length + 1))]

theorem getElem?_stride {step : Nat} (hstep : 0 < step) (as : List α) (i : Nat) :
    (stride step as)[i]? = as[i * step]? := by
  induction i generalizing as with
  | zero =>
    cases as with
    | nil => rw [stride, Nat.zero_mul]
    | cons a as => rw [stride, Nat.zero_mul, List.getElem?_cons_zero, List.getElem?_cons_zero]
  | succ i ih =>
    cases as with
    | nil => rw [stride, List.getElem?_nil, List.getElem?_nil]
    | cons a as =>
      obtain ⟨step, rfl⟩ : ∃ k, step = k + 1 := ⟨step - 1, by omega⟩
      rw [stride, List.getElem?_cons_succ, ih, Nat.add_sub_cancel, List.getElem?_drop, Nat.succ_mul,
        ← Nat.add_assoc, List.getElem?_cons_succ, Nat.add_comm]

theorem getElem?_filterMap {f : α → Option β} {as : List α} (h : ∀ a ∈ as, (f a).isSome) (i : Nat) :
    (as.filterMap f)[i]? = as[i]?.bind f := by
  induction as generalizing i with
  | nil => rfl
  | cons a as ih =>
    obtain ⟨b, hb⟩ := Option.isSome_iff_exists.mp (h a List.mem_cons_self)
    rw [List.filterMap_cons_some hb]
    cases i with
    | zero => exact hb.symm
    | succ i => exact ih (fun a ha => h a (List.mem_cons_of_mem _ ha)) i

theorem getElem?_firstColumn (hg : g.WellFormed) (i : Nat) :
    g.firstColumn[i]? = if i < g.rows then g.cells[i * g.columns]? else none := by
  have hsome : ∀ row ∈ List.range g.rows, (g.cells[row * g.columns]?).isSome := by
    intro row hrow
    have hlt := Nat.mul_lt_mul_of_pos_right (List.mem_range.mp hrow) hg.columns_pos
    rw [← hg.length_cells] at hlt
    simp [hlt]
  rw [firstColumn, getElem?_filterMap hsome]
  by_cases hi : i < g.rows <;> simp [hi]

/-- The sequence is the only row, or else the first column. -/
theorem getElem?_vector (hg : g.WellFormed) (i : Nat) :
    g.vector[i]? = if g.rows = 1 then g.get? 0 i else g.get? i 0 := by
  by_cases hrow : g.rows = 1
  · simp [vector, isRow, get?, hrow, List.getElem?_take]
  · simp [vector, isRow, get?, hrow, hg.columns_pos, getElem?_firstColumn hg]

theorem sequence?_eq (hg : g.WellFormed) : g.sequence? = some g.vector := by
  unfold sequence? vector
  split
  · have hcells : stride 1 g.cells = g.cells :=
      List.ext_getElem? fun i => by rw [getElem?_stride Nat.one_pos, Nat.mul_one]
    rw [stride?, if_neg Nat.one_ne_zero, Option.map_some, hcells]
  · rw [stride?, if_neg (Nat.ne_of_gt hg.columns_pos), Option.map_some, Option.some.injEq]
    refine List.ext_getElem? fun i => ?_
    rw [List.getElem?_take, getElem?_stride hg.columns_pos, getElem?_firstColumn hg]

/-! ## All readings together -/

/-- Rows, places and sequences are readings of the same cells. -/
structure Coherent (g : Grid α) : Prop where
  wellFormed : g.WellFormed
  /-- The cells can be cut into rows, and the rows are the pieces. -/
  pieces?_cells : pieces? g.columns g.cells = some g.toRows
  length_toRows : g.toRows.length = g.rows
  length_row : ∀ row ∈ g.toRows, row.length = g.columns
  get?_eq : ∀ row column, g.get? row column = g.toRows[row]?.bind fun cells => cells[column]?
  isSome_get?_iff : ∀ row column, (g.get? row column).isSome ↔ row < g.rows ∧ column < g.columns
  /-- The cells can be gone through, and the sequence is what one meets. -/
  sequence?_eq : g.sequence? = some g.vector
  getElem?_vector : ∀ i, g.vector[i]? = if g.rows = 1 then g.get? 0 i else g.get? i 0
  ofRows_toRows : ∀ filler, ofRows filler g.toRows = g

theorem WellFormed.coherent (hg : g.WellFormed) : g.Coherent where
  wellFormed := hg
  pieces?_cells := by
    rw [pieces?, if_neg (Nat.ne_of_gt hg.columns_pos), pieces_eq hg.columns_pos hg.length_cells, toRows]
  length_toRows := Grid.length_toRows
  length_row _ hrow := length_of_mem_toRows hg hrow
  get?_eq := get?_eq_toRows g
  isSome_get?_iff _ _ := Grid.isSome_get?_iff hg
  sequence?_eq := Grid.sequence?_eq hg
  getElem?_vector := Grid.getElem?_vector hg
  ofRows_toRows filler := Grid.ofRows_toRows filler hg

theorem mem_cells_ofRows {filler a : α} {rows : List (List α)} (h : a ∈ (ofRows filler rows).cells) :
    a = filler ∨ ∃ row ∈ rows, a ∈ row := by
  rcases Nat.eq_zero_or_pos (width rows) with hwidth | hwidth
  · rw [ofRows_of_width_eq_zero filler hwidth] at h
    exact .inl (List.mem_singleton.mp h)
  · rw [ofRows_of_pos filler hwidth] at h
    obtain ⟨row, hrow, ha⟩ := List.mem_flatMap.mp h
    rcases List.mem_append.mp ha with ha | ha
    · exact .inr ⟨row, hrow, List.mem_of_mem_take ha⟩
    · exact .inl (List.eq_of_mem_replicate ha)

end Gridcall.Grid
