import Gridcall.Proofs.Marshal.Defaults
import Gridcall.Proofs.Marshal.OnHeap

/-!
# Decoding cell by cell

On the heap alone, a grid is decoded cell by cell, each cell as if it stood alone.

* `readCell`, `readRow` : the decoding of a cell and of a row, on their own;
* `LastTrue` : the converter of the cell before is the one that the registry would pick again, the
  invariant of `decodeCells`;
* `onHeap_decode`, `onHeap_decodeUsing_array`, `onHeap_decodeUsing_table` : what it does to a heap;
  `onHeap_decode_of` : with the standard converters.
-/

namespace Gridcall

variable {α : Type} {r : Registry}

/-! ## Cells and rows -/

/-- Whether a cell is handed over as it is: a grid inside a grid, unless the items are arrays. -/
def keptRaw (element : ManagedType) (cell : HostValue) : Bool :=
  cell.hostType == .array && !element.isArray

def readCell (r : Registry) (element : ManagedType) (cell : HostValue) : HeapM Managed :=
  if keptRaw element cell then pure (.value cell) else onHeap (decode r cell element)

/-- The converter of the cell before is the one that the registry picks for cells of its kind. -/
def LastTrue (r : Registry) (element : ManagedType) (last : Option (HostType × Converter)) : Prop :=
  ∀ host c, last = some (host, c) → r.decoder host element = .ok c

theorem lastTrue_none {element : ManagedType} : LastTrue r element none := by
  intro host c h
  cases h

theorem LastTrue.decoder_of_filter {element : ManagedType} {last : Option (HostType × Converter)}
    (hlast : LastTrue r element last) {host seen : HostType} {c : Converter}
    (h : last.filter (fun l => l.1 == host) = some (seen, c)) : r.decoder host element = .ok c := by
  obtain ⟨hsome, hhost⟩ := Option.filter_eq_some_iff.mp h
  rw [← beq_iff_eq.mp hhost]
  exact hlast _ _ hsome

theorem realizes_decode {v : HostValue} {required : ManagedType}
    (hv : ∀ c ∈ r, Oblivious r (decodeUsing r c (some required) v)) :
    Realizes r (decode r v required)
      (liftM (r.decoder v.hostType required) >>= fun c =>
        onHeap (decodeUsing r c (some required) v)) :=
  (realizes_decoderFor _ _).bind_lift fun c hc => hv c (Registry.mem_of_decoder hc)

/-- The cells of a grid are decoded each on its own, whatever is done with the items then. -/
theorem realizes_decodeCells {element : ManagedType} {cells : List HostValue}
    {last : Option (HostType × Converter)} (hlast : LastTrue r element last)
    (hcells : ∀ cell ∈ cells, ∀ c ∈ r, Oblivious r (decodeUsing r c (some element) cell))
    {k : List Managed × Option (HostType × Converter) → MarshalM α} {plainK : List Managed → HeapM α}
    (hk : ∀ items last, LastTrue r element last → Realizes r (k (items, last)) (plainK items)) :
    Realizes r
      (decodeCells r element cells last (fun c cell _ => decodeUsing r c (some element) cell) >>= k)
      (cells.mapM (readCell r element) >>= plainK) := by
  induction cells generalizing last k plainK with
  | nil =>
    rw [List.mapM_nil, pure_bind, decodeCells, pure_bind]
    exact hk [] last hlast
  | cons cell cells ih =>
    have hrest := fun c hc => hcells c (List.mem_cons_of_mem _ hc)
    have hcell := hcells cell List.mem_cons_self
    have hnext : ∀ c, r.decoder cell.hostType element = .ok c → Realizes r
        (decodeUsing r c (some element) cell >>= fun item =>
          decodeCells r element cells (some (cell.hostType, c))
            (fun c cell _ => decodeUsing r c (some element) cell) >>= fun p =>
              k (item :: p.1, p.2))
        (onHeap (decodeUsing r c (some element) cell) >>= fun item =>
          cells.mapM (readCell r element) >>= fun items => plainK (item :: items)) := by
      intro c hc
      refine (hcell c (Registry.mem_of_decoder hc)).bind fun item => ?_
      refine ih (fun host c' hsome => ?_) hrest fun items last hlast' => hk _ _ hlast'
      obtain ⟨rfl, rfl⟩ := Prod.mk.inj (Option.some.inj hsome)
      exact hc
    simp only [List.mapM_cons, decodeCells, readCell, bind_assoc, pure_bind]
    by_cases hraw : keptRaw element cell
    · have hraw' := hraw
      unfold keptRaw at hraw'
      simp only [hraw, hraw', if_true, bind_assoc, pure_bind]
      exact ih hlast hrest fun items last hlast' => hk _ _ hlast'
    · have hraw' := hraw
      unfold keptRaw at hraw'
      simp only [hraw, hraw', Bool.false_eq_true, if_false]
      rw [(realizes_decode hcell).onHeap_eq, bind_assoc]
      cases hfilter : last.filter fun l => l.1 == cell.hostType with
      | some l =>
        have hc := hlast.decoder_of_filter hfilter
        rw [hc]
        simp only [bind_assoc, pure_bind]
        exact hnext l.2 hc
      | none =>
        simp only [bind_assoc, pure_bind]
        exact (realizes_decoderFor _ _).bind_lift hnext

def readRow (r : Registry) (element : ManagedType) (row : List HostValue) : HeapM Managed := do
  return .array element (← row.mapM (readCell r element))

theorem realizes_decodeRows {element : ManagedType} {rows : List (List HostValue)}
    {last : Option (HostType × Converter)} (hlast : LastTrue r element last)
    (hcells : ∀ row ∈ rows, ∀ cell ∈ row, ∀ c ∈ r,
      Oblivious r (decodeUsing r c (some element) cell)) :
    Realizes r
      (decodeRows r element rows last fun c cell _ => decodeUsing r c (some element) cell)
      (rows.mapM (readRow r element)) := by
  induction rows generalizing last with
  | nil => exact .pure []
  | cons row rows ih =>
    simp only [List.mapM_cons, decodeRows, readRow, bind_assoc, pure_bind]
    refine realizes_decodeCells hlast (hcells row List.mem_cons_self) fun items last hlast' => ?_
    refine (ih hlast' fun row hrow => hcells row (List.mem_cons_of_mem _ hrow)).bind fun rest => ?_
    exact .pure _

/-! ## Converters -/

/-- The converters for single values look at the heap and change nothing. -/
theorem decodeUsing_single {c : Converter} {required : Option ManagedType} {v : HostValue}
    {f : Heap → Except CallError Managed} (h : ∀ heap, readSingle? heap required v c = some (f heap)) :
    decodeUsing r c required v = fun s => (f s.store.heap, s) := Outside.decodeUsing_single h

theorem decodeUsing_number (r : Registry) (type : ManagedType) (required : Option ManagedType)
    (x : Double) (s : MarshalState) :
    decodeUsing r (.number type) required (.number x) s = (narrow type x, s) :=
  congrFun (decodeUsing_single (c := .number type) (v := .number x) fun _ => rfl) s

theorem decodeUsing_numericText (r : Registry) (type : ManagedType) (required : Option ManagedType)
    (text : String) (s : MarshalState) :
    decodeUsing r (.numericText type) required (.string text) s = (readNumber type text, s) :=
  congrFun (decodeUsing_single (c := .numericText type) (v := .string text) fun _ => rfl) s

theorem realizes_decodeUsing_array {element : ManagedType} {required : Option ManagedType}
    {grid : HostGrid}
    (hcells : ∀ cell ∈ grid.cells, ∀ c ∈ r, Oblivious r (decodeUsing r c (some element) cell)) :
    Realizes r (decodeUsing r (.array element) required (.array grid))
      (do return .array element (← grid.vector.mapM (readCell r element))) := by
  rw [decodeUsing, Outside.decodeUsing]
  refine realizes_decodeCells lastTrue_none (fun cell hcell => ?_) fun items _ _ => .pure _
  exact hcells cell (Grid.mem_cells_of_mem_vector hcell)

theorem realizes_decodeUsing_table {element : ManagedType} {priority : Int}
    {required : Option ManagedType} {grid : HostGrid}
    (hcells : ∀ cell ∈ grid.cells, ∀ c ∈ r, Oblivious r (decodeUsing r c (some element) cell)) :
    Realizes r (decodeUsing r (.table element priority) required (.array grid))
      (do return .array (.array element) (← grid.toRows.mapM (readRow r element))) := by
  rw [decodeUsing, Outside.decodeUsing]
  refine (realizes_decodeRows lastTrue_none fun row hrow cell hcell => ?_).bind
    fun rows => .pure _
  exact hcells cell (Grid.mem_cells_of_mem_toRows hrow hcell)

/-- The converters for grids fail on any other value. -/
theorem decodeUsing_array_of_ne {element : ManagedType} {required : Option ManagedType}
    {v : HostValue} (hv : ∀ grid, v ≠ .array grid) : decodeUsing r (.array element) required v =
      throw (.typeMismatch (ManagedType.array element).text v.hostType.text) :=
  Outside.decodeUsing_array_of_ne hv

theorem decodeUsing_table_of_ne {element : ManagedType} {priority : Int}
    {required : Option ManagedType} {v : HostValue} (hv : ∀ grid, v ≠ .array grid) :
    decodeUsing r (.table element priority) required v =
      throw (.typeMismatch (ManagedType.array (.array element)).text v.hostType.text) :=
  Outside.decodeUsing_table_of_ne hv

theorem onHeap_decodeUsing_array (hr : r.Blind) (element : ManagedType)
    (required : Option ManagedType) (grid : HostGrid) :
    onHeap (decodeUsing r (.array element) required (.array grid)) =
      (do return .array element (← grid.vector.mapM (readCell r element))) :=
  (realizes_decodeUsing_array fun cell _ c hc => oblivious_decodeUsing hr (hr c hc) _ cell).onHeap_eq

theorem onHeap_decodeUsing_table (hr : r.Blind) (element : ManagedType) (priority : Int)
    (required : Option ManagedType) (grid : HostGrid) :
    onHeap (decodeUsing r (.table element priority) required (.array grid)) =
      (do return .array (.array element) (← grid.toRows.mapM (readRow r element))) :=
  (realizes_decodeUsing_table fun cell _ c hc => oblivious_decodeUsing hr (hr c hc) _ cell).onHeap_eq

/-- A value is decoded by the converter that the registry picks for it. -/
theorem onHeap_decode (hr : r.Blind) (v : HostValue) (required : ManagedType) :
    onHeap (decode r v required) =
      (liftM (r.decoder v.hostType required) >>= fun c =>
        onHeap (decodeUsing r c (some required) v)) :=
  (realizes_decode fun c hc => oblivious_decodeUsing hr (hr c hc) _ v).onHeap_eq

/-- With the standard converters the pick is the tabulated one. -/
theorem onHeap_decode_of {v : HostValue} {required : ManagedType} {c : Converter}
    (hc : Converter.standardDecoder? v.hostType required = some c) :
    onHeap (decode Converter.defaults v required) =
      onHeap (decodeUsing Converter.defaults c (some required) v) := by
  rw [onHeap_decode Registry.blind_defaults, Converter.decoder_defaults, hc]
  rfl

end Gridcall
