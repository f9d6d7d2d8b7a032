import Gridcall.Proofs.Call.Binding
import Gridcall.Proofs.Call.Unaffected
import Gridcall.Proofs.Marshal.RootCells
import Gridcall.Proofs.Sample.Exports

/-!
# Rows turned into columns

A grid that is sent to the library to have its rows turned into columns comes back with rows and columns
exchanged: it is read into a table over the root, turned by the callable, and written again.

* `Sample.transpose_rows` : what the callable does to the rows of a grid;
* `Sample.callId_transpose` : the call, for grids of plain cells and of references to live objects;
* `Sample.Turned` : what comes back for a grid with references in it;
* `Sample.call?_transpose` : the call and the call on what came back.
-/

namespace Gridcall.Sample

variable {α : Type} {grid grid' : HostGrid} {heap heap' : Heap} {stored : Stored} {settings : Settings}
  {target : Target} {s s' : MarshalState}

/-! ## The callable -/

theorem map_getElem?_eq (f : α → Managed) {j : Nat} {rows : List (List α)}
    (h : ∀ row ∈ rows, (row[j]?).isSome) :
    (rows.map (List.map f)).map (fun row => (row[j]?).getD .null) =
      (rows.filterMap fun row => row[j]?).map f := by
  induction rows with
  | nil => rfl
  | cons row rows ih =>
    obtain ⟨a, ha⟩ := Option.isSome_iff_exists.mp (h row List.mem_cons_self)
    have hcons : (row :: rows).filterMap (fun row => row[j]?) = a :: rows.filterMap fun row => row[j]? :=
      List.filterMap_cons_some ha
    rw [hcons, List.map_cons, List.map_cons, List.map_cons,
      ih fun row hrow => h row (List.mem_cons_of_mem _ hrow), List.getElem?_map, ha]
    rfl

theorem transpose_rows {g : Grid α} (hg : g.WellFormed) (f : α → Managed) :
    transpose (g.toRows.map (List.map f)) = g.transposed.toRows.map (List.map f) := by
  have hwidth : (((g.toRows.map (List.map f)).head?.map List.length).getD 0) = g.columns := by
    obtain ⟨row, rows, hrows⟩ := List.exists_cons_of_ne_nil (l := g.toRows) (by
      rw [← List.length_pos_iff, Grid.length_toRows]
      exact hg.rows_pos)
    have hrow : row ∈ g.toRows := hrows ▸ List.mem_cons_self
    rw [hrows]
    show (row.map f).length = g.columns
    rw [List.length_map, Grid.length_of_mem_toRows hg hrow]
  rw [Grid.toRows_transposed hg, Grid.toColumns, List.map_map, transpose, hwidth]
  refine List.map_congr_left fun j hj => ?_
  exact map_getElem?_eq f fun row hrow =>
    Grid.isSome_getElem?_of_mem_toRows hg (List.mem_range.mp hj) hrow

theorem read_rootTable (rows : List (List Managed)) :
    (rootTable rows).read (.list (.list .managed)) = .ok rows := by
  refine read_list (.list .managed) (fun row => ?_) _ rows
  have hrow : (Managed.array .object (row.map id)).read (.list .managed) = .ok row :=
    read_list .managed (fun _ => rfl) _ row
  rwa [List.map_id] at hrow

theorem transposeTable_eq {frame : CallFrame} {rows : List (List Managed)}
    (hargs : frame.args = [rootTable rows]) : transposeTable frame = .done (rootTable (transpose rows)) := by
  have hread : frame.arg (.list (.list .managed)) 0 = .done rows := by
    refine arg_of_ok ?_ (read_rootTable rows)
    rw [hargs]
    rfl
  unfold transposeTable
  rw [hread]
  rfl

/-! ## The call -/

def transposer : Export := ⟨⟨5⟩, .function "Transpose" "Maths" [table] (some table), transposeTable⟩

theorem transposer_mem : transposer ∈ exports := by
  simp [exports, transposer]

theorem bindArguments_transposer (grid : HostGrid) :
    bindArguments Converter.defaults transposer.descriptor [.array grid] =
      (do return [← decode Converter.defaults (.array grid) table]) := by
  have hcount : [HostValue.array grid].length ≤ transposer.descriptor.params.length := Nat.le_refl 1
  rw [bindArguments_of_fixed rfl hcount]
  show (decode Converter.defaults (.array grid) table >>= fun v =>
    (pure [] : MarshalM (List Managed)) >>= fun rest => pure (v :: rest)) = _
  simp only [pure_bind]

/-- What comes before the callable: the grid is read. -/
theorem prepare_transposer (settings : Settings) (hs : s.memo.Truthful Converter.defaults)
    (hcells : ∀ v ∈ grid.cells, v.Rooted s.store.heap) :
    ∃ frame s₁, prepare Converter.defaults settings transposer.descriptor [.array grid] s =
        (.ok frame, s₁) ∧ frame.args = [rootTable (grid.toRows.map (List.map (atRoot s.store.heap)))] ∧
      s₁.store.heap = s.store.heap ∧ s₁.memo.Truthful Converter.defaults := by
  have hread : (onHeap (decode Converter.defaults (.array grid) table)).Gives
      (s.note (.decoding transposer.descriptor.name [.array grid] settings.logArguments)).store.heap _ :=
    gives_decode_root hcells
  obtain ⟨m, s₁, hdecode, hheap, hs₁, rfl⟩ := hread.run (oblivious_decode Registry.blind_defaults _ _) hs
  refine ⟨⟨transposer.descriptor, none, [_]⟩, s₁, ?_, rfl, hheap, hs₁⟩
  rw [prepare_of_static (by decide), bindArguments_transposer, bind_assoc, bind_of_ok hdecode]
  rfl

/-- A grid of plain cells and of references to live objects comes back with rows and columns exchanged,
with new references to the objects, and nothing but these is added to the heap. -/
theorem callId_transpose (settings : Settings) (nested : Nested) (hgrid : grid.WellFormed)
    (hs : s.memo.Truthful Converter.defaults) (hcells : ∀ v ∈ grid.cells, v.Rooted s.store.heap) :
    ∃ grid' s' stored, (bridge settings).callId nested ⟨5⟩ [.array grid] s = some (.ok (.array grid'), s') ∧
      s.store.heap.Stores stored s'.store.heap ∧ grid'.WellFormed ∧
      Grid.Matches (Resent s.store.heap stored) grid.transposed grid' ∧
      grid'.cells.flatMap HostValue.handles = stored.map Prod.fst := by
  have hargs : coerceHandles settings [.array grid] = [.array grid] := by
    unfold coerceHandles
    split <;> rfl
  obtain ⟨frame, s₁, hprepare, hframe, hheap, hs₁⟩ :=
    prepare_transposer (s := s.note (.opened ⟨5⟩ "Transpose")) settings hs hcells
  rw [← hargs] at hprepare
  have hdone := transposeTable_eq hframe
  rw [transpose_rows hgrid] at hdone
  have hwrite : (onHeap (encode Converter.defaults (rootTable
      (grid.transposed.toRows.map (List.map (atRoot s.store.heap)))))).Hands
      (s₁.note (frame.entry transposer.descriptor)).store.heap _ :=
    hands_encode_root (Grid.wellFormed_transposed hgrid)
      (fun v hv => hcells v ((Grid.mem_cells_transposed_iff hgrid).mp hv)) _
  obtain ⟨_, s₂, stored, hencode, hstores, grid', rfl, hgrid', hmatches, hhandles⟩ :=
    hwrite.run (oblivious_encode Registry.blind_defaults _) hs₁
  refine ⟨grid', s₂.note .closed, stored, ?_, hheap ▸ hstores, hgrid', hmatches, hhandles⟩
  exact callId_of_done (find?_of_mem settings transposer_mem) hprepare hdone hencode

/-! ## What comes back -/

/-- What comes back for a grid, with the objects that were stored for it. -/
structure Turned (heap : Heap) (grid grid' : HostGrid) (stored : Stored) : Prop where
  wellFormed : grid'.WellFormed
  rows : grid'.rows = grid.columns
  columns : grid'.columns = grid.rows
  plain : ∀ i j v, grid.get? i j = some v → v.isPlain → grid'.get? j i = some v
  /-- A reference comes back as another one, to the object that was found under it. -/
  object : ∀ i j reference, grid.get? i j = some (.object reference) → ∃ o handle,
    heap.get? reference.handle = some o ∧ grid'.get? j i = some (.object ⟨o.className, handle⟩) ∧
      (handle, o) ∈ stored
  /-- The handles in the grid are those that were given out for it, each once. -/
  handles : grid'.cells.flatMap HostValue.handles = stored.map Prod.fst

theorem turned_of_matches (hgrid : grid.WellFormed) (hgrid' : grid'.WellFormed)
    (h : Grid.Matches (Resent heap stored) grid.transposed grid')
    (hhandles : grid'.cells.flatMap HostValue.handles = stored.map Prod.fst) :
    Turned heap grid grid' stored := by
  have hplace : ∀ i j v, grid.get? i j = some v →
      ∃ v', grid'.get? j i = some v' ∧ Resent heap stored v v' := by
    intro i j v hv
    have hrel := h.get? j i
    rw [Grid.get?_transposed hgrid, hv] at hrel
    generalize grid'.get? j i = v? at hrel ⊢
    cases hrel with
    | some hresent => exact ⟨_, rfl, hresent⟩
  refine ⟨hgrid', h.rows.symm, h.columns.symm, fun i j v hv hplain => ?_, fun i j reference hv => ?_, hhandles⟩
  · obtain ⟨v', hv', hresent⟩ := hplace i j v hv
    rw [hv', hresent.eq_of_isPlain hplain]
  · obtain ⟨v', hv', hresent⟩ := hplace i j _ hv
    cases hresent with
    | plain hplain => cases hplain
    | object hlive hmem => exact ⟨_, _, hlive, hv', hmem⟩

/-- For plain cells nothing is stored, and the cells come back as they are. -/
theorem eq_of_matches (hplain : ∀ v ∈ grid.cells, v.isPlain)
    (h : Grid.Matches (Resent heap stored) grid grid') : grid' = grid := by
  obtain ⟨rows, columns, cells⟩ := grid
  obtain ⟨rows', columns', cells'⟩ := grid'
  obtain rfl : rows = rows' := h.rows
  obtain rfl : columns = columns' := h.columns
  have hcells : List.Forall₂ (Resent heap stored) cells cells' := h.cells
  have heq : List.Forall₂ Eq cells' cells :=
    ((List.forall₂_and_left _ _).mpr ⟨hplain, hcells⟩).flip.imp fun _ _ hcell =>
      hcell.2.eq_of_isPlain hcell.1
  rw [List.forall₂_eq_eq_eq] at heq
  rw [heq]

theorem stored_eq_nil (hplain : ∀ v ∈ grid.cells, v.isPlain)
    (hhandles : grid.cells.flatMap HostValue.handles = stored.map Prod.fst) : stored = [] := by
  have hnil : grid.cells.flatMap HostValue.handles = [] :=
    List.flatMap_eq_nil_iff.mpr fun v hv => HostValue.handles_of_isPlain (hplain v hv)
  rw [hnil] at hhandles
  exact List.map_eq_nil_iff.mp hhandles.symm

theorem callId_transpose_plain (settings : Settings) (nested : Nested) (hgrid : grid.WellFormed)
    (hs : s.memo.Truthful Converter.defaults) (hplain : ∀ v ∈ grid.cells, v.isPlain) :
    ∃ s', (bridge settings).callId nested ⟨5⟩ [.array grid] s =
      some (.ok (.array grid.transposed), s') ∧ s'.store.heap = s.store.heap := by
  have hplain' : ∀ v ∈ grid.transposed.cells, v.isPlain := fun v hv =>
    hplain v ((Grid.mem_cells_transposed_iff hgrid).mp hv)
  obtain ⟨grid', s', stored, hcall, hstores, -, hmatches, hhandles⟩ :=
    callId_transpose settings nested hgrid hs fun v hv => .inl (hplain v hv)
  obtain rfl := eq_of_matches hplain' hmatches
  obtain rfl := stored_eq_nil hplain' hhandles
  exact ⟨s', hcall, hstores.eq_of_nil⟩

/-- **Rows turned into columns, through the whole bridge.** Whatever was done with the bridge before and
however the export is called: a grid of numbers, strings, truth values, empty cells and grids comes back
with rows and columns exchanged and the cells as they were, the heap is as it was, and the call on what
came back gives the grid. If there are references to live objects in the grid, they come back as new
references to the same objects, and nothing but these is added to the heap: while there are handles left,
no two of them are equal, none was given out before, and each finds its object. -/
theorem call?_transpose (settings : Settings) (depth : Nat) (htarget : Targets transposer target)
    (hs : (bridge settings).Reached s) (grid : HostGrid) (hgrid : grid.WellFormed) :
    (grid.transposed.rows = grid.columns ∧ grid.transposed.columns = grid.rows ∧
      ∀ i j, grid.transposed.get? j i = grid.get? i j) ∧
    ((∀ v ∈ grid.cells, v.isPlain) → ∃ s' s'',
      (bridge settings).call? (depth + 1) target [.array grid] s =
        some (.ok (.array grid.transposed), s') ∧ s'.store.heap = s.store.heap ∧
      (bridge settings).call? (depth + 1) target [.array grid.transposed] s' =
        some (.ok (.array grid), s'') ∧ s''.store.heap = s.store.heap) ∧
    ∀ past, Heap.Reached past s.store.heap → (∀ v ∈ grid.cells, v.Rooted s.store.heap) →
      ∃ grid' s' stored,
        (bridge settings).call? (depth + 1) target [.array grid] s = some (.ok (.array grid'), s') ∧
        Turned s.store.heap grid grid' stored ∧
        (s'.store.heap.minted ≤ 2 ^ 63 - 1 → Heap.Adds past s.store.heap stored s'.store.heap) := by
  have hcall : ∀ args s, (bridge settings).call? (depth + 1) target args s =
      (bridge settings).callId ((bridge settings).call? depth) ⟨5⟩ args s := fun args s =>
    callTarget_of_targets settings transposer_mem htarget _ args s
  refine ⟨⟨rfl, rfl, Grid.get?_transposed hgrid⟩, fun hplain => ?_, fun past hpast hcells => ?_⟩
  · obtain ⟨s', hrun, hheap⟩ := callId_transpose_plain settings ((bridge settings).call? depth) hgrid
      (truthful_of_reached hs) hplain
    rw [← hcall] at hrun
    have hs' : (bridge settings).Reached s' := .call _ _ _ _ s s' hs hrun
    obtain ⟨s'', hrun', hheap'⟩ := callId_transpose_plain settings ((bridge settings).call? depth)
      (Grid.wellFormed_transposed hgrid) (truthful_of_reached hs')
      fun v hv => hplain v ((Grid.mem_cells_transposed_iff hgrid).mp hv)
    rw [← hcall, Grid.transposed_transposed hgrid] at hrun'
    exact ⟨s', s'', hrun, hheap, hrun', hheap'.trans hheap⟩
  · obtain ⟨grid', s', stored, hrun, hstores, hgrid', hmatches, hhandles⟩ :=
      callId_transpose settings ((bridge settings).call? depth) hgrid (truthful_of_reached hs) hcells
    rw [← hcall] at hrun
    exact ⟨grid', s', stored, hrun, turned_of_matches hgrid hgrid' hmatches hhandles,
      hstores.mints.adds hpast⟩

/-- A row of a text, an empty cell and a grid is turned by name, and a square with a person in it by
number. -/
theorem call?_transpose_person :
    let ada : Object := ⟨⟨0⟩, "Person", .text "Ada"⟩
    let s : MarshalState := ⟨⟨(Heap.empty.mint ada).2, []⟩, .empty⟩
    let row : HostGrid := ⟨1, 3, [.string "a", .nil, .array ⟨1, 1, [.missing]⟩]⟩
    let square : HostGrid := ⟨2, 2, [.string "a", .object ⟨"Person", ⟨1⟩⟩, .boolean true, .nil]⟩
    (∃ s' s'', (bridge {}).call? 1 (.name "Transpose") [.array row] s =
        some (.ok (.array ⟨3, 1, row.cells⟩), s') ∧ s'.store.heap = s.store.heap ∧
      (bridge {}).call? 1 (.name "Transpose") [.array ⟨3, 1, row.cells⟩] s' =
        some (.ok (.array row), s'') ∧ s''.store.heap = s.store.heap) ∧
    ∃ grid' s' stored, (bridge {}).call? 1 (.id ⟨5⟩) [.array square] s = some (.ok (.array grid'), s') ∧
      Turned s.store.heap square grid' stored ∧
      (s'.store.heap.minted ≤ 2 ^ 63 - 1 →
        Heap.Adds [.minted ada ⟨1⟩] s.store.heap stored s'.store.heap) := by
  intro ada s row square
  have hs : (bridge {}).Reached s := .start _
  have hrow : row.WellFormed := ⟨by decide, by decide, rfl⟩
  have hsquare : square.WellFormed := ⟨by decide, by decide, rfl⟩
  obtain ⟨-, hplain, -⟩ := call?_transpose {} 0 .name hs row hrow
  obtain ⟨-, -, hlive⟩ := call?_transpose {} 0 .id hs square hsquare
  refine ⟨hplain ?_, hlive _ (.mint (.start 0) ada) ?_⟩
  · simp [row, HostValue.isPlain]
  · simp only [square, List.forall_mem_cons]
    exact ⟨.inl rfl, .inr ⟨_, ada, rfl, rfl⟩, .inl rfl, .inl rfl, by simp⟩

end Gridcall.Sample
