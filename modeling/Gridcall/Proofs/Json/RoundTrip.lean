import Gridcall.Json.Host
import Gridcall.Proofs.Host.Grid
import Gridcall.Proofs.Json.Shape

/-!
# Host values are read back from their JSON text

Whatever stands in a host value, its compact text is read back to the same value, as long as the text
does not nest too many brackets and the numbers in it are read back one by one.

* `Json.Faithful read j a` : `j` can be written as a text, and is read back to `a`. The parts of host
  values come first;
* `HostValue.Part` : a value is another one or stands in its grids, at any depth;
* `faithful_toJson` : host values, grids by induction on the size of the value;
* `ofJson?_read?_write` : from the value to the text and back.
-/

namespace Gridcall

namespace Json

variable {α : Type}

/-- `j` can be written as a text, and `read` reads it back to `a`. -/
structure Faithful (read : Nat → Json → Option α) (j : Json) (a : α) : Prop where
  legible : j.Legible
  reads : Reads read j a

theorem legible_ofCase {name : String} {content : Json} (h : content.Legible) :
    (ofCase name content).Legible := legible_ofFields (by simp [h])

end Json

open Json

/-! ## Parts of host values -/

theorem faithful_errorCode (c : ErrorCode) : Faithful ErrorCode.ofJson? (toJson c) c where
  legible := legible_ofText _
  reads room _ := by
    have hread : ErrorCode.ofJson? room (.ofText c.label) = ErrorCode.ofLabel? c.label := rfl
    exact hread.trans (ErrorCode.ofLabel?_label c)

theorem faithful_objectHandle (h : ObjectHandle) : Faithful ObjectHandle.ofJson? (toJson h) h where
  legible := legible_ofFields (by simp)
  reads room hroom := by
    obtain ⟨k, rfl, -⟩ := exists_room_of_record hroom
    have hrecord : (toJson h).record? ["class", "handle"] =
        some [.ofText h.className, .ofInt h.handle.raw.toInt] := record?_ofFields (by decide) rfl
    simp [ObjectHandle.ofJson?, hrecord, text?, ofText, int64?_ofInt]

theorem ofBounds_eq_ok (r : CellRange) :
    CellRange.ofBounds r.rowFirst r.rowLast r.columnFirst r.columnLast = .ok r := by
  rw [CellRange.ofBounds, dif_pos r.row_le, dif_pos r.column_le]

theorem faithful_cellRange (r : CellRange) : Faithful CellRange.ofJson? (toJson r) r where
  legible := legible_ofFields (by simp)
  reads room hroom := by
    obtain ⟨k, rfl, -⟩ := exists_room_of_record hroom
    have hrecord : (toJson r).record? ["row_first", "row_last", "column_first", "column_last"] =
        some [.ofInt r.rowFirst.toNat, .ofInt r.rowLast.toNat, .ofInt r.columnFirst.toNat,
          .ofInt r.columnLast.toNat] := record?_ofFields (by decide) rfl
    simp [CellRange.ofJson?, hrecord, uint32?_ofInt, ofBounds_eq_ok, Except.toOption]

theorem faithful_list {α : Type} {read : Nat → Json → Option α} {form : α → Json} {as : List α}
    (h : ∀ a ∈ as, Faithful read (form a) a) : Faithful (listOf? read) (.array (as.map form)) as where
  legible := legible_array fun item hitem => by
    obtain ⟨a, ha, rfl⟩ := List.mem_map.mp hitem
    exact (h a ha).legible
  reads := reads_listOf? fun a ha => (h a ha).reads

theorem faithful_uint8 (n : UInt8) : Faithful (fun _ => uint8?) (.ofInt n.toNat) n :=
  ⟨legible_ofInt _, fun _ _ => uint8?_ofInt n⟩

theorem faithful_bigData (data : BigData) : Faithful BigData.ofJson? (toJson data) data := by
  cases data with
  | inline bytes =>
    have hbytes := faithful_list fun (n : UInt8) (_ : n ∈ bytes) => faithful_uint8 n
    refine ⟨legible_ofCase hbytes.legible, fun room hroom => ?_⟩
    obtain ⟨k, rfl, hcontent⟩ := exists_room_of_record hroom
    have hcase : (toJson (BigData.inline bytes)).case? =
        some ("Inline", some (.array (bytes.map fun n => .ofInt n.toNat))) := rfl
    have hread := hbytes.reads k (hcontent _ List.mem_cons_self)
    simp [BigData.ofJson?, hcase, hread]
  | handle handle length =>
    let content := ofFields [("handle", .ofInt handle.toNat), ("length", .ofInt length.toNat)]
    refine ⟨legible_ofCase (legible_ofFields (by simp)), fun room hroom => ?_⟩
    obtain ⟨k, rfl, hcontent⟩ := exists_room_of_record hroom
    obtain ⟨k, rfl, -⟩ := exists_room_of_record (hcontent _ List.mem_cons_self)
    have hcase : (toJson (BigData.handle handle length)).case? = some ("Handle", some content) := rfl
    have hrecord : content.record? ["handle", "length"] =
        some [.ofInt handle.toNat, .ofInt length.toNat] := record?_ofFields (by decide) rfl
    simp [BigData.ofJson?, hcase, hrecord, uint64?_ofInt]

theorem faithful_multiReference (sheet : SheetId) (ranges : List CellRange) :
    Faithful HostValue.multiReferenceOfJson?
      (.ofFields [("sheet", toJson sheet), ("ranges", .array (ranges.map toJson))])
      (.multiReference sheet ranges) := by
  have hranges := faithful_list fun (r : CellRange) (_ : r ∈ ranges) => faithful_cellRange r
  have hsheet : (toJson sheet).Legible := legible_ofInt _
  refine ⟨legible_ofFields (by simp [hsheet, hranges.legible]), fun room hroom => ?_⟩
  obtain ⟨k, rfl, hfields⟩ := exists_room_of_record hroom
  have hread := hranges.reads k (hfields _ (List.mem_cons_of_mem _ List.mem_cons_self))
  have hrecord : (ofFields [("sheet", toJson sheet), ("ranges", .array (ranges.map toJson))]).record?
      ["sheet", "ranges"] = some [toJson sheet, .array (ranges.map toJson)] :=
    record?_ofFields (by decide) rfl
  have hsheet : (toJson sheet).uint64? = some sheet.raw := uint64?_ofInt _
  simp [HostValue.multiReferenceOfJson?, hrecord, hsheet, hread]

/-! ## Host values -/

namespace HostValue

/-- A value is another one, or stands in its grids at any depth. -/
inductive Part (w : HostValue) : HostValue → Prop
  | self : Part w w
  | cell {grid : HostGrid} {v : HostValue} (hv : v ∈ grid.cells) (hw : Part w v) : Part w (.array grid)

/-- What the types leave open about a value: its grids are rectangles with at least one cell, and its
numbers are finite and are read back, each by itself, from the text in which they are written. -/
structure Writable (v : HostValue) : Prop where
  grids : ∀ grid, Part (.array grid) v → grid.WellFormed
  numbers : ∀ x, Part (.number x) v → x.isFinite = true ∧ (Json.ofDouble x).double? = some x

theorem Writable.cell {grid : HostGrid} (h : Writable (.array grid)) {v : HostValue}
    (hv : v ∈ grid.cells) : Writable v where
  grids g hg := h.grids g (.cell hv hg)
  numbers x hx := h.numbers x (.cell hv hx)

theorem writable_array {grid : HostGrid} (hgrid : grid.WellFormed)
    (hcells : ∀ v ∈ grid.cells, v.Writable) : Writable (.array grid) where
  grids g hg := by
    cases hg with
    | self => exact hgrid
    | cell hv hg => exact (hcells _ hv).grids g hg
  numbers x hx := by
    cases hx with
    | cell hv hx => exact (hcells _ hv).numbers x hx

/-- A value other than a grid, with its number if it is one. -/
theorem writable_single {v : HostValue} (harray : v.hostType ≠ .array) (hnumber : ∀ x, v = .number x →
    x.isFinite = true ∧ (Json.ofDouble x).double? = some x) : v.Writable where
  grids g hg := by
    cases hg with
    | self => exact absurd rfl harray
    | cell hv hg => exact absurd rfl harray
  numbers x hx := by
    cases hx with
    | self => exact hnumber x rfl
    | cell hv hx => exact absurd rfl harray

/-- A case whose content holds no further host values. -/
theorem faithful_case {α : Type} {name : String} {content : Json} {read : Nat → Json → Option α} {a : α}
    (make : α → HostValue) (hname : name ≠ "Array")
    (hcase : ∀ room, ofSimpleCase? room name content = (read room content).map make)
    (h : Faithful read content a) : Faithful HostValue.ofJson? (ofCase name content) (make a) where
  legible := legible_ofCase h.legible
  reads room hroom := by
    obtain ⟨k, rfl, hcontent⟩ := exists_room_of_record hroom
    have hread := h.reads k (hcontent _ List.mem_cons_self)
    have hsimple : HostValue.ofJson? (k + 1) (ofCase name content) = ofSimpleCase? k name content := by
      rw [ofCase, ofFields, List.map_singleton]
      unfold HostValue.ofJson?
      exact if_neg hname
    rw [hsimple, hcase, hread, Option.map_some]

/-! ## Grids -/

theorem cellsToJson_eq (cells : List HostValue) : cellsToJson cells = cells.map HostValue.toJson := by
  induction cells with
  | nil => rw [cellsToJson, List.map_nil]
  | cons v cells ih => rw [cellsToJson, ih, List.map_cons]

def rowToJson (row : List HostValue) : Json := .array (row.map HostValue.toJson)

theorem toJson_grid (grid : HostGrid) :
    HostGrid.toJson grid = .array (grid.toRows.map rowToJson) := by
  obtain ⟨rows, columns, cells⟩ := grid
  rw [HostGrid.toJson, cellsToJson_eq]
  simp only [Grid.toRows, List.map_map, Function.comp_def, List.map_take, List.map_drop, rowToJson]

theorem gridOfJson?_toJson {grid : HostGrid} (hgrid : grid.WellFormed) {read : Json → Option HostValue}
    (hread : ∀ cell ∈ grid.cells, read cell.toJson = some cell) :
    gridOfJson? (some read) (HostGrid.toJson grid) = some grid := by
  have hrows : ∀ row ∈ grid.toRows,
      ((rowToJson row).items?.bind fun items => items.mapM read) = some (id row) := by
    intro row hrow
    have hcells : ∀ cell ∈ row, read cell.toJson = some (id cell) := fun cell hcell =>
      hread cell (Grid.mem_cells_of_mem_toRows hrow hcell)
    exact (mapM_map_eq_some hcells).trans (congrArg some row.map_id)
  have hall : ((grid.toRows.map rowToJson).mapM fun row => row.items?.bind fun items => items.mapM read) =
      some grid.toRows := (mapM_map_eq_some hrows).trans (congrArg some (List.map_id _))
  rw [toJson_grid]
  show ((grid.toRows.map rowToJson).mapM fun (row : Json) => row.items?.bind fun items =>
    items.mapM read).bind (fun rows => some (HostGrid.ofRows rows)) = _
  rw [hall, Option.bind_some]
  have hback : HostGrid.ofRows grid.toRows = grid := Grid.ofRows_toRows HostValue.nil hgrid
  rw [hback]

/-- The brackets around the cells of a grid take the room of two, and there are some. -/
theorem exists_room_of_grid {grid : HostGrid} (hgrid : grid.WellFormed) {room : Nat}
    (hroom : (HostGrid.toJson grid).depth ≤ room) :
    ∃ k, room = k + 2 ∧ ∀ cell ∈ grid.cells, cell.toJson.depth ≤ k := by
  rw [toJson_grid, depth] at hroom
  have hrow : ∀ row ∈ grid.toRows, itemsDepth (row.map HostValue.toJson) + 2 ≤ room := by
    intro row hrow
    have hmem : rowToJson row ∈ grid.toRows.map rowToJson := List.mem_map_of_mem hrow
    have hdepth := depth_le_of_mem_items hmem
    rw [rowToJson, depth] at hdepth
    omega
  have hsome : grid.toRows ≠ [] := by
    rw [← List.length_pos_iff, Grid.length_toRows]
    exact hgrid.rows_pos
  obtain ⟨first, hfirst⟩ := List.exists_mem_of_ne_nil _ hsome
  have hfirst := hrow first hfirst
  refine ⟨room - 2, by omega, fun cell hcell => ?_⟩
  rw [← Grid.flatten_toRows hgrid] at hcell
  obtain ⟨row, hmem, hcell⟩ := List.mem_flatten.mp hcell
  have hbound := hrow row hmem
  have hdepth : cell.toJson.depth ≤ itemsDepth (row.map HostValue.toJson) :=
    depth_le_of_mem_items (List.mem_map_of_mem hcell)
  omega

/-! ## Whole values -/

/-- Host values, grids by induction on the size of the value. -/
theorem faithful_toJson {v : HostValue} (h : v.Writable) : Faithful HostValue.ofJson? v.toJson v := by
  induction hsize : sizeOf v using Nat.strongRecOn generalizing v with
  | ind size ih =>
    cases v with
    | string s =>
      have hs : Faithful (fun _ => text?) (.ofText s) s := ⟨legible_ofText s, fun _ _ => rfl⟩
      exact faithful_case string (by decide) (fun _ => rfl) hs
    | number x =>
      obtain ⟨hfinite, hx⟩ := h.numbers x .self
      have hx : Faithful (fun _ => double?) (.ofDouble x) x :=
        ⟨legible_ofDouble hfinite (by rw [hx]; rfl), fun _ _ => hx⟩
      exact faithful_case number (by decide) (fun _ => rfl) hx
    | boolean b =>
      have hb : Faithful (fun _ => boolean?) (.boolean b) b :=
        ⟨by simp [Legible, tokens, Token.Legible], fun _ _ => rfl⟩
      exact faithful_case boolean (by decide) (fun _ => rfl) hb
    | error code => exact faithful_case error (by decide) (fun _ => rfl) (faithful_errorCode code)
    | missing => exact ⟨legible_ofText _, fun _ _ => by unfold HostValue.ofJson?; rfl⟩
    | nil => exact ⟨legible_ofText _, fun _ _ => by unfold HostValue.ofJson?; rfl⟩
    | object handle => exact faithful_case object (by decide) (fun _ => rfl) (faithful_objectHandle handle)
    | array grid =>
      have hgrid := h.grids grid .self
      have hcell : ∀ cell ∈ grid.cells, Faithful HostValue.ofJson? cell.toJson cell := by
        intro cell hcell
        have hlt := sizeOf_lt_of_mem_cells hcell
        exact ih _ (by omega) (h.cell hcell) rfl
      refine ⟨legible_ofCase ?_, fun room hroom => ?_⟩
      · rw [toJson_grid]
        refine legible_array fun row hrow => ?_
        obtain ⟨cells, hcells, rfl⟩ := List.mem_map.mp hrow
        refine legible_array fun item hitem => ?_
        obtain ⟨cell, hmem, rfl⟩ := List.mem_map.mp hitem
        exact (hcell cell (Grid.mem_cells_of_mem_toRows hcells hmem)).legible
      · obtain ⟨k, rfl, hcontent⟩ := exists_room_of_record hroom
        obtain ⟨k, rfl, hdepth⟩ := exists_room_of_grid hgrid (hcontent _ List.mem_cons_self)
        have hread := gridOfJson?_toJson hgrid fun cell hmem =>
          (hcell cell hmem).reads k (hdepth cell hmem)
        have hstep : HostValue.ofJson? (k + 2 + 1) (HostValue.array grid).toJson =
            (gridOfJson? (some (HostValue.ofJson? k)) (HostGrid.toJson grid)).map array := by
          rw [HostValue.toJson, ofCase, ofFields, List.map_singleton]
          conv_lhs => unfold HostValue.ofJson?
          rfl
        rw [hstep, hread, Option.map_some]
    | reference r => exact faithful_case reference (by decide) (fun _ => rfl) (faithful_cellRange r)
    | multiReference sheet ranges =>
      have hmulti := faithful_multiReference sheet ranges
      have hcase : ∀ room content, ofSimpleCase? room "MultiReference" content =
          (multiReferenceOfJson? room content).map id := fun _ _ => Option.map_id'.symm
      exact faithful_case id (by decide) (fun room => hcase room _) hmulti
    | sheetId sheet =>
      have hsheet : Faithful (fun _ => uint64?) (ToJson.toJson sheet) sheet.raw :=
        ⟨legible_ofInt _, fun _ _ => uint64?_ofInt _⟩
      exact faithful_case (fun raw => sheetId ⟨raw⟩) (by decide) (fun _ => rfl) hsheet
    | range r => exact faithful_case range (by decide) (fun _ => rfl) (faithful_cellRange r)
    | bigData data => exact faithful_case bigData (by decide) (fun _ => rfl) (faithful_bigData data)

/-- **Host values are read back from their JSON text.** Any value comes back from its compact text as it
was: grids in grids, cell by cell, the classes that references claim, the bounds of ranges, and all texts
and numbers. The text must not open more brackets at once than a reader allows, and the doubles in the
value must be read back from their own texts. -/
theorem ofJson?_read?_write {v : HostValue} (h : v.Writable)
    (hnesting : Json.nesting 0 v.toJson.tokens ≤ Json.maxDepth) :
    (Json.read? v.toJson.write).bind (HostValue.ofJson? Json.maxDepth) = some v := by
  have hv := faithful_toJson h
  rw [read?_write hv.legible, Option.bind_some]
  rw [nesting_tokens] at hnesting
  exact hv.reads Json.maxDepth hnesting

/-- A row with a reference that claims a class with quotes in its name, a number with a fraction, and a
grid of a range and a block of bytes. -/
theorem ofJson?_read?_write_row :
    let x : Double := .ofBits 0xC004000000000000
    let inner : HostGrid := ⟨2, 1, [.range ⟨0, 4294967295, 2, 2, by decide, by decide⟩,
      .bigData (.inline [0, 255])]⟩
    let v : HostValue := .array ⟨1, 3, [.object ⟨"\"Person\"\n", ⟨-3⟩⟩, .number x, .array inner]⟩
    v.Writable ∧ Json.nesting 0 v.toJson.tokens ≤ Json.maxDepth ∧
      (Json.read? v.toJson.write).bind (HostValue.ofJson? Json.maxDepth) = some v := by
  intro x inner v
  have hx : x.isFinite = true ∧ (Json.ofDouble x).double? = some x := by decide +kernel
  have hinner : Writable (.array inner) := by
    refine writable_array ⟨by decide, by decide, rfl⟩ fun v hv => ?_
    simp only [inner, List.mem_cons, List.not_mem_nil, or_false] at hv
    obtain rfl | rfl := hv <;> exact writable_single (by decide) (by simp)
  have hwritable : v.Writable := by
    refine writable_array ⟨by decide, by decide, rfl⟩ fun v hv => ?_
    simp only [List.mem_cons, List.not_mem_nil, or_false] at hv
    obtain rfl | rfl | rfl := hv
    · exact writable_single (by decide) (by simp)
    · refine writable_single (by decide) fun y hy => ?_
      obtain rfl : x = y := HostValue.number.inj hy
      exact hx
    · exact hinner
  have hnesting : Json.nesting 0 v.toJson.tokens ≤ Json.maxDepth := by decide +kernel
  exact ⟨hwritable, hnesting, ofJson?_read?_write hwritable hnesting⟩

end HostValue

end Gridcall
