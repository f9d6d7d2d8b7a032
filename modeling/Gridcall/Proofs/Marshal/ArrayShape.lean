import Gridcall.Proofs.Host.Shape
import Gridcall.Proofs.Marshal.Items
import Gridcall.Proofs.Marshal.OneByOne

/-!
# Arrays as grids

Arrays whose declared type has a form of its own are written as grids: an array as a single row, an array
of arrays row for row. The declared type decides about the array only; its items are encoded by the types
that they have themselves.

* `Managed.gridRows?` : the items of an array that is written as a grid, row by row;
* `Managed.Reaches v w` : `w` is `v`, or is met on the way through such arrays;
* `Managed.IsLoose` : rows that are neither null nor arrays, the only ones that cannot be written;
* `encodeItem`, `encodeRow` : the encoding of an item and of a row, on their own, and
  `encodeUsing_array_eq_items`, `encodeUsing_table_eq_rows` : arrays are encoded item by item;
* `judges_encode` : encoding fails at a loose row, and otherwise not;
* `WritesGrid` : what the grid of an array holds, place by place;
* `encode_grid` : both for every value.
-/

namespace Gridcall

variable {α β : Type} {r : Registry} {s s' : MarshalState}

/-! ## Types with a form of their own -/

namespace ManagedType

/-- Whether an array over the type is written as a row. -/
def isRowItem : ManagedType → Bool
  | char | array _ => false
  | _ => true

/-- Whether an array of arrays over the type is written as a grid. -/
def isTableItem : ManagedType → Bool
  | double | string | object | value | ofClass _ => true
  | _ => false

/-- The type over which the converter for arrays of arrays over the type stands. -/
def tableItem : ManagedType → ManagedType
  | double => double
  | _ => object

end ManagedType

namespace Converter

variable {element : ManagedType}

theorem standardEncoder_of_isRowItem (h : element.isRowItem) :
    ∃ own, standardEncoder (.array element) = array own := by
  cases element with
  | char => cases h
  | array e => cases h
  | object => exact ⟨.object, rfl⟩
  | value => exact ⟨.object, rfl⟩
  | ofClass name => exact ⟨.object, rfl⟩
  | _ => exact ⟨_, rfl⟩

theorem standardEncoder_of_isTableItem (h : element.isTableItem) :
    ∃ priority, standardEncoder (.array (.array element)) = table element.tableItem priority := by
  cases element with
  | double => exact ⟨10, rfl⟩
  | string => exact ⟨11, rfl⟩
  | object => exact ⟨11, rfl⟩
  | value => exact ⟨11, rfl⟩
  | ofClass name => exact ⟨11, rfl⟩
  | _ => cases h

end Converter

/-! ## Items on their own -/

/-- Encodes an item of an array as if it stood alone; null becomes an empty cell. -/
def encodeItem (r : Registry) (item : Managed) : MarshalM HostValue :=
  if item.isNull then return .nil else encode r item

/-- The items of a row; null has none. -/
def Managed.rowItems : Managed → List Managed
  | .array _ items => items
  | _ => []

theorem Managed.sizeOf_lt_of_mem_rowItems {row item : Managed} (h : item ∈ row.rowItems) :
    sizeOf item < sizeOf row := by
  cases row with
  | array e items => exact Managed.sizeOf_lt_of_mem_items h
  | _ => cases h

def encodeRow (r : Registry) (element : ManagedType) : Managed → MarshalM (List HostValue)
  | .null => return []
  | .array _ items => items.mapM (encodeItem r)
  | row => throw (.typeMismatch (ManagedType.array element).text row.typeName)

theorem encodeItems_eq (r : Registry) (items : List Managed) :
    encodeItems r items (fun c item _ => encodeUsing r c none item) = items.mapM (encodeItem r) := by
  induction items with
  | nil => rfl
  | cons item items ih =>
    rw [List.mapM_cons, encodeItems, ih, encodeItem]
    split <;> rfl

theorem encodeRows_eq (r : Registry) (element : ManagedType) (rows : List Managed) :
    encodeRows r element rows (fun c item _ => encodeUsing r c none item) =
      rows.mapM (encodeRow r element) := by
  induction rows with
  | nil => rfl
  | cons row rows ih =>
    rw [List.mapM_cons]
    cases row with
    | null =>
      rw [encodeRows, ih]
      rfl
    | array e items =>
      rw [encodeRows, ih, encodeItems_eq]
      rfl
    | _ =>
      rw [encodeRows] <;> simp only [reduceCtorEq, IsEmpty.forall_iff, implies_true]
      rfl

theorem encodeUsing_array_eq_items (element e : ManagedType) (wanted : Option HostType)
    (items : List Managed) : encodeUsing r (.array element) wanted (.array e items) =
      (do return .array (HostGrid.ofRow (← items.mapM (encodeItem r)))) := by
  rw [← encodeItems_eq, encodeUsing, Outside.encodeUsing]
  rfl

theorem encodeUsing_table_eq_rows (element e : ManagedType) (priority : Int) (wanted : Option HostType)
    (rows : List Managed) : encodeUsing r (.table element priority) wanted (.array e rows) =
      (do return .array (HostGrid.ofRows (← rows.mapM (encodeRow r element)))) := by
  rw [← encodeRows_eq, encodeUsing, Outside.encodeUsing]
  rfl

/-- The state after the converter for encoding a value of a type was looked up. -/
def lookedUp (type : ManagedType) (s : MarshalState) : MarshalState :=
  (resolve Converter.defaults (.encoding type) s).2

theorem encode_run {v : Managed} {type : ManagedType} (htype : v.runtimeType? = some type)
    (hs : s.memo.Truthful Converter.defaults) :
    encode Converter.defaults v s =
      encodeUsing Converter.defaults (Converter.standardEncoder type) none v (lookedUp type s) ∧
      (lookedUp type s).memo.Truthful Converter.defaults := by
  obtain ⟨s₁, hresolve, -, hs₁⟩ := resolve_of_truthful hs (.encoding type)
  obtain ⟨c, hscan, hc⟩ := Option.map_eq_some_iff.mp (Converter.scan_encoding type)
  rw [lookedUp, hresolve]
  refine ⟨?_, hs₁⟩
  unfold encode Outside.encode encodeWith
  rw [htype]
  dsimp only
  rw [bind_of_ok (liftM_resolve_run _ s), hresolve, hscan, ← hc]
  rfl

/-! ## Which values cannot be encoded -/

namespace Managed

def gridRows? : Managed → Option (List (List Managed))
  | .array (.array element) rows => if element.isTableItem then some (rows.map rowItems) else none
  | .array element items => if element.isRowItem then some [items] else none
  | _ => none

/-- `w` is `v`, or an item that is met on the way through arrays that are written as grids. -/
inductive Reaches : Managed → Managed → Prop
  | refl (v : Managed) : Reaches v v
  | item {v w item : Managed} {rows : List (List Managed)} {items : List Managed}
      (hv : v.gridRows? = some rows) (hitems : items ∈ rows) (hitem : item ∈ items)
      (h : Reaches item w) : Reaches v w

/-- A row that is neither null nor an array. -/
def IsLoose (row : Managed) : Prop := row ≠ .null ∧ ∀ e items, row ≠ .array e items

/-- `v` is an array of arrays that is written as a grid, and `row` stands in it as a row, though it is
none. -/
def HasLooseRow (v : Managed) (element : ManagedType) (row : Managed) : Prop :=
  ∃ rows, v = .array (.array element) rows ∧ element.isTableItem ∧ row ∈ rows ∧ row.IsLoose

/-- A loose row is met, and `e` is the failure on it. -/
def Breaks (v : Managed) (e : CallError) : Prop :=
  ∃ w element row, v.Reaches w ∧ w.HasLooseRow element row ∧
    e = .typeMismatch (ManagedType.array element.tableItem).text row.typeName

variable {v : Managed} {element : ManagedType} {items rows : List Managed} {e : CallError}

theorem gridRows?_of_isRowItem (h : element.isRowItem) :
    (array element items).gridRows? = some [items] := by
  cases element with
  | char => cases h
  | array e => cases h
  | _ => rfl

theorem gridRows?_of_isTableItem (h : element.isTableItem) :
    (array (.array element) rows).gridRows? = some (rows.map rowItems) := if_pos h

/-- Nothing is met in a value that is not written as a grid. -/
theorem not_breaks_of_gridRows?_eq_none (h : v.gridRows? = none) : ¬ v.Breaks e := by
  rintro ⟨w, element, row, hreaches, ⟨rows, rfl, helement, -⟩, -⟩
  cases hreaches with
  | refl =>
    rw [gridRows?_of_isTableItem helement] at h
    cases h
  | item hv =>
    rw [h] at hv
    cases hv

theorem breaks_row_iff (h : element.isRowItem) :
    (array element items).Breaks e ↔ ∃ item ∈ items, item.Breaks e := by
  constructor
  · rintro ⟨w, element', row, hreaches, hloose, rfl⟩
    cases hreaches with
    | refl =>
      obtain ⟨rows, heq, -⟩ := hloose
      obtain ⟨rfl, -⟩ := Managed.array.inj heq
      cases h
    | item hv hitems hitem hreaches =>
      rw [gridRows?_of_isRowItem h] at hv
      obtain rfl := Option.some.inj hv
      obtain rfl := List.mem_singleton.mp hitems
      exact ⟨_, hitem, w, element', row, hreaches, hloose, rfl⟩
  · rintro ⟨item, hitem, w, element', row, hreaches, hloose, rfl⟩
    exact ⟨w, element', row,
      .item (gridRows?_of_isRowItem h) List.mem_cons_self hitem hreaches, hloose, rfl⟩

/-- A table breaks at its loose rows, and where an item of a row does. -/
theorem breaks_table_iff (h : element.isTableItem) :
    (array (.array element) rows).Breaks e ↔ ∃ row ∈ rows, (row.IsLoose ∧
      e = .typeMismatch (ManagedType.array element.tableItem).text row.typeName) ∨
      ∃ item ∈ row.rowItems, item.Breaks e := by
  constructor
  · rintro ⟨w, element', row, hreaches, hloose, rfl⟩
    cases hreaches with
    | refl =>
      obtain ⟨rows', heq, -, hrow, hloose⟩ := hloose
      obtain ⟨helement, rfl⟩ := Managed.array.inj heq
      obtain rfl := ManagedType.array.inj helement
      exact ⟨row, hrow, .inl ⟨hloose, rfl⟩⟩
    | item hv hitems hitem hreaches =>
      rw [gridRows?_of_isTableItem h] at hv
      obtain rfl := Option.some.inj hv
      obtain ⟨row', hrow', rfl⟩ := List.mem_map.mp hitems
      exact ⟨row', hrow', .inr ⟨_, hitem, w, element', row, hreaches, hloose, rfl⟩⟩
  · rintro ⟨row, hrow, ⟨hloose, rfl⟩ | ⟨item, hitem, w, element', row', hreaches, hloose, rfl⟩⟩
    · exact ⟨_, element, row, .refl _, ⟨rows, rfl, h, hrow, hloose⟩, rfl⟩
    · exact ⟨w, element', row', .item (gridRows?_of_isTableItem h) (List.mem_map_of_mem hrow) hitem
        hreaches, hloose, rfl⟩

end Managed

/-- From any truthful memo, which stays truthful, `act` fails with failures in `P` if there are any, and
otherwise it answers. -/
def Judges (act : MarshalM α) (P : CallError → Prop) : Prop :=
  ∀ s : MarshalState, s.memo.Truthful Converter.defaults →
    (act s).2.memo.Truthful Converter.defaults ∧
      (∀ a, (act s).1 = .ok a → ∀ e, ¬ P e) ∧ ∀ e, (act s).1 = .error e → P e

namespace Judges

variable {act : MarshalM α} {P Q : CallError → Prop}

theorem congr (hact : Judges act P) (h : ∀ e, P e ↔ Q e) : Judges act Q := by
  obtain rfl : P = Q := funext fun e => propext (h e)
  exact hact

theorem pure (a : α) : Judges (Pure.pure a) fun _ => False :=
  fun _ hs => ⟨hs, fun _ _ _ => id, fun e h => by cases h⟩

theorem throw (e : CallError) : Judges (MonadExcept.throw e : MarshalM α) (· = e) :=
  fun _ hs => ⟨hs, fun a h => by (cases h), fun e' h => (Except.error.inj h).symm⟩

theorem bind {k : α → MarshalM β} (hact : Judges act P) (hk : ∀ a, Judges (k a) Q) :
    Judges (act >>= k) fun e => P e ∨ Q e := by
  intro s hs
  obtain ⟨hs₁, hok, herror⟩ := hact s hs
  obtain ⟨answer, s₁, hrun⟩ : ∃ answer s₁, act s = (answer, s₁) := ⟨_, _, rfl⟩
  rw [hrun] at hs₁ hok herror
  cases answer with
  | ok a =>
    obtain ⟨hs₂, hok', herror'⟩ := hk a s₁ hs₁
    rw [bind_of_ok hrun]
    refine ⟨hs₂, fun b hb e he => ?_, fun e he => .inr (herror' e he)⟩
    rcases he with he | he
    · exact hok a rfl e he
    · exact hok' b hb e he
  | error e =>
    rw [bind_of_error hrun]
    refine ⟨hs₁, fun b hb => by (cases hb), fun e' he => ?_⟩
    obtain rfl := Except.error.inj he
    exact .inl (herror e rfl)

theorem map (f : α → β) (hact : Judges act P) : Judges (act >>= fun a => Pure.pure (f a)) P :=
  (hact.bind fun a => pure (f a)).congr fun _ => or_iff_left id

theorem mapM {f : α → MarshalM β} {P : α → CallError → Prop} {as : List α}
    (h : ∀ a ∈ as, Judges (f a) (P a)) : Judges (as.mapM f) fun e => ∃ a ∈ as, P a e := by
  induction as with
  | nil => exact (pure []).congr fun e => by simp
  | cons a as ih =>
    rw [List.mapM_cons]
    have hrest := ih fun a ha => h a (List.mem_cons_of_mem _ ha)
    refine ((h a List.mem_cons_self).bind fun b => hrest.map fun bs => b :: bs).congr fun e => ?_
    rw [List.exists_mem_cons_iff]

end Judges

theorem judges_mintValue (v : Managed) : Judges (mintValue v) fun _ => False :=
  fun _ hs => ⟨hs, fun _ _ _ => id, fun e h => by cases h⟩

theorem judges_encodeItem {item : Managed}
    (h : item ≠ .null → Judges (encode Converter.defaults item) item.Breaks) :
    Judges (encodeItem Converter.defaults item) item.Breaks := by
  unfold encodeItem
  by_cases hnull : item = .null
  · subst hnull
    refine (Judges.pure HostValue.nil).congr fun e => ?_
    exact iff_of_false id (Managed.not_breaks_of_gridRows?_eq_none rfl)
  · rw [Managed.isNull_of_ne hnull]
    exact h hnull

theorem encodeRow_of_isLoose {element : ManagedType} {row : Managed} (h : row.IsLoose) :
    encodeRow r element row = throw (.typeMismatch (ManagedType.array element).text row.typeName) := by
  cases row with
  | null => exact absurd rfl h.1
  | array e items => exact absurd rfl (h.2 e items)
  | _ => rfl

theorem Managed.isLoose_or (row : Managed) :
    row.IsLoose ∨ row = .null ∨ ∃ e items, row = .array e items := by
  cases row with
  | null => exact .inr (.inl rfl)
  | array e items => exact .inr (.inr ⟨e, items, rfl⟩)
  | _ => exact .inl ⟨Managed.noConfusion, fun _ _ => Managed.noConfusion⟩

theorem Managed.IsLoose.rowItems_eq {row : Managed} (h : row.IsLoose) : row.rowItems = [] := by
  cases row with
  | array e items => exact absurd rfl (h.2 e items)
  | _ => rfl

theorem judges_encodeRow {element : ManagedType} {row : Managed}
    (h : ∀ item ∈ row.rowItems, Judges (encodeItem Converter.defaults item) item.Breaks) :
    Judges (encodeRow Converter.defaults element row) fun e => (row.IsLoose ∧
      e = .typeMismatch (ManagedType.array element).text row.typeName) ∨
      ∃ item ∈ row.rowItems, item.Breaks e := by
  rcases row.isLoose_or with hloose | rfl | ⟨e, items, rfl⟩
  · rw [encodeRow_of_isLoose hloose]
    refine (Judges.throw _).congr fun e => ?_
    simp [hloose, hloose.rowItems_eq]
  · refine (Judges.pure []).congr fun e => iff_of_false id ?_
    rintro (⟨⟨hnull, -⟩, -⟩ | ⟨item, hitem, -⟩)
    · exact hnull rfl
    · cases hitem
  · refine (Judges.mapM h).congr fun e => (or_iff_right ?_).symm
    rintro ⟨⟨-, harray⟩, -⟩
    exact harray _ _ rfl

/-- An array is written as a grid, in one of two ways, or put into an object. -/
theorem ManagedType.rowItem_or (type : ManagedType) :
    type.isRowItem ∨ (∃ element, type = .array element ∧ element.isTableItem) ∨
      Converter.standardEncoder (.array type) = .object ∧
        ∀ items, (Managed.array type items).gridRows? = none := by
  cases type with
  | char => exact .inr (.inr ⟨rfl, fun _ => rfl⟩)
  | array element =>
    cases element with
    | double => exact .inr (.inl ⟨_, rfl, rfl⟩)
    | string => exact .inr (.inl ⟨_, rfl, rfl⟩)
    | object => exact .inr (.inl ⟨_, rfl, rfl⟩)
    | value => exact .inr (.inl ⟨_, rfl, rfl⟩)
    | ofClass name => exact .inr (.inl ⟨_, rfl, rfl⟩)
    | _ => exact .inr (.inr ⟨rfl, fun _ => rfl⟩)
  | _ => exact .inl rfl

theorem judges_encode_of {v : Managed} {type : ManagedType} {P : CallError → Prop}
    (htype : v.runtimeType? = some type)
    (h : Judges (encodeUsing Converter.defaults (Converter.standardEncoder type) none v) P) :
    Judges (encode Converter.defaults v) P := by
  intro s hs
  obtain ⟨hrun, hs₁⟩ := encode_run htype hs
  rw [hrun]
  exact h _ hs₁

theorem judges_encodeUsing_object {v : Managed} (hv : v ≠ .null) :
    Judges (encodeUsing Converter.defaults .object none v) fun _ => False := by
  rw [encodeUsing, Outside.encodeUsing, Managed.isNull_of_ne hv]
  exact judges_mintValue v

theorem judges_encodeUsing_single {v : Managed} {type : ManagedType} (htype : v.runtimeType? = some type)
    (hv : ∀ e items, v ≠ .array e items) :
    Judges (encodeUsing Converter.defaults (Converter.standardEncoder type) none v) fun _ => False := by
  cases v with
  | null => cases htype
  | array e items => exact absurd rfl (hv e items)
  | object o =>
    cases htype
    exact judges_encodeUsing_object Managed.noConfusion
  | boolean _ | char _ | string _ | value _ =>
    cases htype
    rw [Converter.standardEncoder, encodeUsing, Outside.encodeUsing]
    exact .pure _
  | _ =>
    cases htype
    rw [Converter.standardEncoder_number rfl, encodeUsing, Outside.encodeUsing]
    exact .pure _

/-- An array breaks where one of its items does, and else it does not: by induction on its size. -/
theorem judges_encode {v : Managed} (hv : v ≠ .null) : Judges (encode Converter.defaults v) v.Breaks := by
  induction hsize : sizeOf v using Nat.strongRecOn generalizing v with
  | ind size ih =>
    have hitem : ∀ item : Managed, sizeOf item < size →
        Judges (encodeItem Converter.defaults item) item.Breaks :=
      fun item hlt => judges_encodeItem fun hnull => ih _ hlt hnull rfl
    have hwhole : ∀ type, v.runtimeType? = some type → v.gridRows? = none →
        Judges (encodeUsing Converter.defaults (Converter.standardEncoder type) none v) (fun _ => False) →
        Judges (encode Converter.defaults v) v.Breaks := fun type htype hnone hact =>
      (judges_encode_of htype hact).congr fun e =>
        iff_of_false id (Managed.not_breaks_of_gridRows?_eq_none hnone)
    cases v with
    | null => exact absurd rfl hv
    | array type items =>
      rcases type.rowItem_or with hrow | ⟨element, rfl, htable⟩ | ⟨hobject, hnone⟩
      · obtain ⟨own, hown⟩ := Converter.standardEncoder_of_isRowItem hrow
        refine judges_encode_of rfl ?_
        rw [hown, encodeUsing_array_eq_items]
        refine ((Judges.mapM fun item hmem => hitem item ?_).map _).congr fun e =>
          (Managed.breaks_row_iff hrow).symm
        rw [← hsize]
        exact Managed.sizeOf_lt_of_mem_items hmem
      · obtain ⟨priority, hown⟩ := Converter.standardEncoder_of_isTableItem htable
        refine judges_encode_of rfl ?_
        rw [hown, encodeUsing_table_eq_rows]
        refine ((Judges.mapM fun row hrow => judges_encodeRow fun item hmem => hitem item ?_).map
          _).congr fun e => (Managed.breaks_table_iff htable).symm
        rw [← hsize]
        exact Nat.lt_trans (Managed.sizeOf_lt_of_mem_rowItems hmem) (Managed.sizeOf_lt_of_mem_items hrow)
      · refine hwhole _ rfl (hnone items) ?_
        rw [hobject]
        exact judges_encodeUsing_object hv
    | _ => exact hwhole _ rfl rfl (judges_encodeUsing_single rfl fun _ _ => Managed.noConfusion)

/-! ## The grid of an array -/

/-- What the cell for an item holds. -/
inductive IsCellOf : Option Managed → HostValue → Prop
  | padding : IsCellOf none .nil
  | null : IsCellOf (some .null) .nil
  /-- An item is encoded by the type that it has itself. -/
  | item {item : Managed} {cell : HostValue} {s s' : MarshalState} (hnull : item ≠ .null)
      (hencode : encode Converter.defaults item s = (.ok cell, s')) : IsCellOf (some item) cell

/-- What the grid of an array holds whose items stand in these rows. -/
structure WritesGrid (rows : List (List Managed)) (s : MarshalState) (grid : HostGrid)
    (s' : MarshalState) : Prop where
  /-- Each row has its place, as soon as one of them holds an item. -/
  rows_eq : (∃ items ∈ rows, items ≠ []) → grid.rows = rows.length
  /-- The grid is as wide as the longest row. -/
  columns_isGreatest : (∃ items ∈ rows, items ≠ []) →
    IsGreatest {n | ∃ items ∈ rows, items.length = n} grid.columns
  eq_of_empty : (∀ items ∈ rows, items = []) → grid = { rows := 1, columns := 1, cells := [.nil] }
  /-- A cell holds what stands at its place, and nothing where no item stands. -/
  isCellOf : ∀ i j, i < grid.rows → j < grid.columns →
    ∃ cell, grid.get? i j = some cell ∧ IsCellOf (rows[i]?.bind fun items => items[j]?) cell
  /-- The items are encoded one by one, row after row. -/
  oneByOne : ∃ cells, Grid.Pads .nil cells grid ∧ cells.map List.length = rows.map List.length ∧
    OneByOne (encodeItem Converter.defaults) rows.flatten s cells.flatten s'

theorem isCellOf_of_encodeItem {item : Managed} {cell : HostValue}
    (h : encodeItem Converter.defaults item s = (.ok cell, s')) : IsCellOf (some item) cell := by
  unfold encodeItem at h
  by_cases hnull : item = .null
  · subst hnull
    cases h
    exact .null
  · rw [Managed.isNull_of_ne hnull] at h
    exact .item hnull h

section Cells

variable {rows : List (List Managed)} {cells : List (List HostValue)}

theorem map_length_of_oneByOne
    (h : OneByOne (fun items => items.mapM (encodeItem Converter.defaults)) rows s cells s') :
    cells.map List.length = rows.map List.length := by
  induction h with
  | nil => rfl
  | cons hfirst _ ih => rw [List.map_cons, List.map_cons, ih, (mapM_eq_ok_iff.mp hfirst).length_eq]

/-- A cell that is written is one of the item at its place, and there is no item without a cell. -/
theorem isCellOf_of_oneByOne
    (h : OneByOne (fun items => items.mapM (encodeItem Converter.defaults)) rows s cells s') (i j : Nat) :
    IsCellOf (rows[i]?.bind fun items => items[j]?) ((cells[i]?.bind fun row => row[j]?).getD .nil) := by
  obtain ⟨hlength, states, -, -, hrows⟩ := oneByOne_iff_states.mp h
  cases hrow : rows[i]? with
  | none =>
    have hnone : cells[i]? = none := by
      rw [List.getElem?_eq_none_iff] at hrow ⊢
      omega
    rw [hnone]
    exact .padding
  | some items =>
    obtain ⟨row, hcells, hitems⟩ := hrows i items hrow
    obtain ⟨hwidth, states', -, -, hcell⟩ := oneByOne_iff_states.mp (mapM_eq_ok_iff.mp hitems)
    rw [hcells]
    show IsCellOf items[j]? (row[j]?.getD .nil)
    cases hitem : items[j]? with
    | none =>
      have hnone : row[j]? = none := by
        rw [List.getElem?_eq_none_iff] at hitem ⊢
        omega
      rw [hnone]
      exact .padding
    | some item =>
      obtain ⟨cell, hmem, hencode⟩ := hcell j item hitem
      rw [hmem]
      exact isCellOf_of_encodeItem hencode

/-- Rows that are encoded one by one make the grid that is padded from them. -/
theorem writesGrid_ofRows
    (h : OneByOne (fun items => items.mapM (encodeItem Converter.defaults)) rows s cells s') :
    WritesGrid rows s (HostGrid.ofRows cells) s' := by
  have hpads := Grid.pads_ofRows HostValue.nil cells
  have hlengths := map_length_of_oneByOne h
  have hset : {n | ∃ row ∈ cells, row.length = n} = {n | ∃ items ∈ rows, items.length = n} := by
    ext n
    have hmem : n ∈ cells.map List.length ↔ n ∈ rows.map List.length := by rw [hlengths]
    simpa only [List.mem_map, Set.mem_ofPred_eq] using hmem
  have hsome : (∃ items ∈ rows, items ≠ []) → ∃ row ∈ cells, row ≠ [] := by
    rintro ⟨items, hitems, hne⟩
    obtain ⟨row, hrow, hlength⟩ : items.length ∈ {n | ∃ row ∈ cells, row.length = n} := by
      rw [hset]
      exact ⟨items, hitems, rfl⟩
    refine ⟨row, hrow, ?_⟩
    rw [← List.length_pos_iff] at hne ⊢
    omega
  have hempty : (∀ items ∈ rows, items = []) → ∀ row ∈ cells, row = [] := by
    intro hrows row hrow
    obtain ⟨items, hitems, hlength⟩ : row.length ∈ {n | ∃ items ∈ rows, items.length = n} := by
      rw [← hset]
      exact ⟨row, hrow, rfl⟩
    rw [hrows items hitems] at hlength
    exact List.length_eq_zero_iff.mp hlength.symm
  refine ⟨fun hne => ?_, fun hne => ?_, fun hrows => hpads.eq_of_empty (hempty hrows),
    fun i j hi hj => ⟨_, hpads.get?_eq i j hi hj, isCellOf_of_oneByOne h i j⟩,
    cells, hpads, hlengths, ?_⟩
  · have hsame := congrArg List.length hlengths
    rw [List.length_map, List.length_map] at hsame
    exact (hpads.rows_eq (hsome hne)).trans hsame
  · rw [← hset]
    exact hpads.columns_isGreatest (hsome hne)
  · rw [← mapM_eq_ok_iff, mapM_flatten, bind_eq_ok_iff]
    exact ⟨cells, s', mapM_eq_ok_iff.mpr h, rfl⟩

end Cells

/-- The grid of a single row is a row, of which there is always one cell. -/
theorem WritesGrid.single_row {items : List Managed} {grid : HostGrid} (h : WritesGrid [items] s grid s') :
    grid.rows = 1 ∧ grid.columns = max 1 items.length := by
  by_cases hitems : items = []
  · subst hitems
    rw [h.eq_of_empty fun _ => List.mem_singleton.mp]
    exact ⟨rfl, rfl⟩
  · have hne : ∃ row ∈ [items], row ≠ [] := ⟨items, List.mem_singleton_self _, hitems⟩
    refine ⟨h.rows_eq hne, ?_⟩
    obtain ⟨⟨row, hrow, hlength⟩, -⟩ := h.columns_isGreatest hne
    rw [List.mem_singleton.mp hrow] at hlength
    rw [← hlength]
    exact (Nat.max_eq_right (List.length_pos_iff.mpr hitems)).symm

theorem oneByOne_rowItems {element : ManagedType} {rows : List Managed} {cells : List (List HostValue)}
    (h : OneByOne (encodeRow r element) rows s cells s') :
    OneByOne (fun items => items.mapM (encodeItem r)) (rows.map Managed.rowItems) s cells s' := by
  induction h with
  | nil s => exact .nil s
  | @cons row _ _ _ s _ _ hfirst _ ih =>
    refine .cons ?_ ih
    rcases row.isLoose_or with hloose | rfl | ⟨e, items, rfl⟩
    · rw [encodeRow_of_isLoose hloose] at hfirst
      cases hfirst
    · exact hfirst
    · exact hfirst

section Encode

variable {element : ManagedType} {host : HostValue} (hs : s.memo.Truthful Converter.defaults)

include hs

theorem writesGrid_of_row {items : List Managed} (helement : element.isRowItem)
    (h : encode Converter.defaults (.array element items) s = (.ok host, s')) :
    ∃ grid, host = .array grid ∧ WritesGrid [items] (lookedUp (.array element) s) grid s' := by
  obtain ⟨own, hown⟩ := Converter.standardEncoder_of_isRowItem helement
  rw [(encode_run rfl hs).1, hown, encodeUsing_array_eq_items, bind_eq_ok_iff] at h
  obtain ⟨cells, s₁, hitems, hpure⟩ := h
  cases hpure
  exact ⟨_, rfl, writesGrid_ofRows (.cons hitems (.nil _))⟩

theorem writesGrid_of_table {rows : List Managed} (helement : element.isTableItem)
    (h : encode Converter.defaults (.array (.array element) rows) s = (.ok host, s')) :
    ∃ grid, host = .array grid ∧
      WritesGrid (rows.map Managed.rowItems) (lookedUp (.array (.array element)) s) grid s' := by
  obtain ⟨priority, hown⟩ := Converter.standardEncoder_of_isTableItem helement
  rw [(encode_run rfl hs).1, hown, encodeUsing_table_eq_rows, bind_eq_ok_iff] at h
  obtain ⟨cells, s₁, hrows, hpure⟩ := h
  cases hpure
  exact ⟨_, rfl, writesGrid_ofRows (oneByOne_rowItems (mapM_eq_ok_iff.mp hrows))⟩

/-- **Arrays are written as grids, and fail at loose rows only.** With the standard converters a value that
is not null cannot be encoded if and only if a loose row is met, in the value itself or on the way through
its items: a row of an array of doubles, texts, objects or host values in two dimensions that is neither
null nor an array. The failure then tells its type. Otherwise an array that is written as a row makes a
grid of one row, and an array of rows makes a grid with one row for each that is as wide as the longest.
Cells for null and padded cells are empty, and any other cell holds what the item at its place is encoded
to by its own type. -/
theorem encode_grid {v : Managed} (hv : v ≠ .null) :
    ((∃ e s', encode Converter.defaults v s = (.error e, s')) ↔
        ∃ w element row, v.Reaches w ∧ w.HasLooseRow element row) ∧
      (∀ e s', encode Converter.defaults v s = (.error e, s') →
        ∃ w element row, v.Reaches w ∧ w.HasLooseRow element row ∧
          e = .typeMismatch (ManagedType.array element.tableItem).text row.typeName) ∧
      (∀ element items host s', v = .array element items → element.isRowItem →
        encode Converter.defaults v s = (.ok host, s') →
        ∃ grid, host = .array grid ∧ grid.rows = 1 ∧ grid.columns = max 1 items.length ∧
          WritesGrid [items] (lookedUp (.array element) s) grid s') ∧
      ∀ element rows host s', v = .array (.array element) rows → element.isTableItem →
        encode Converter.defaults v s = (.ok host, s') →
        ∃ grid, host = .array grid ∧
          WritesGrid (rows.map Managed.rowItems) (lookedUp (.array (.array element)) s) grid s' := by
  obtain ⟨-, hok, herror⟩ := judges_encode hv s hs
  have hbreaks : ∀ e s', encode Converter.defaults v s = (.error e, s') → v.Breaks e := by
    intro e s' h
    rw [h] at herror
    exact herror e rfl
  refine ⟨⟨?_, ?_⟩, hbreaks, ?_, ?_⟩
  · rintro ⟨e, s', h⟩
    obtain ⟨w, element, row, hreaches, hloose, -⟩ := hbreaks e s' h
    exact ⟨w, element, row, hreaches, hloose⟩
  · rintro ⟨w, element, row, hreaches, hloose⟩
    obtain ⟨answer, s', hrun⟩ : ∃ answer s', encode Converter.defaults v s = (answer, s') := ⟨_, _, rfl⟩
    cases answer with
    | error e => exact ⟨e, s', hrun⟩
    | ok host =>
      rw [hrun] at hok
      exact absurd ⟨w, element, row, hreaches, hloose, rfl⟩ (hok host rfl _)
  · rintro element items host s' rfl helement h
    obtain ⟨grid, rfl, hgrid⟩ := writesGrid_of_row hs helement h
    exact ⟨grid, rfl, hgrid.single_row.1, hgrid.single_row.2, hgrid⟩
  · rintro element rows host s' rfl helement h
    exact writesGrid_of_table hs helement h

end Encode

/-- A truth value stands as a row in a table of texts, two arrays deep. Without it the table is a grid of
two rows and two columns, though its rows are declared to hold truth values. -/
theorem encode_grid_of_table :
    let table (row : Managed) : Managed := .array (.array .string) [.null, row]
    let good := table (.array .boolean [.string "a", .null])
    let bad := Managed.array .object [.int 1, table (.boolean true)]
    bad ≠ .null ∧ good ≠ .null ∧ MarshalState.empty.memo.Truthful Converter.defaults ∧
      (∃ e s', encode Converter.defaults bad .empty = (.error e, s')) ∧
      ∃ grid s', encode Converter.defaults good .empty = (.ok (.array grid), s') ∧
        grid.rows = 2 ∧ grid.columns = 2 ∧
        WritesGrid [[], [.string "a", .null]] (lookedUp (.array (.array .string)) .empty) grid s' := by
  intro table good bad
  have hs : MarshalState.empty.memo.Truthful Converter.defaults := Memo.truthful_empty _
  have hreaches : bad.Reaches (table (.boolean true)) :=
    .item rfl List.mem_cons_self (List.mem_cons_of_mem _ List.mem_cons_self) (.refl _)
  have hloose : (table (.boolean true)).HasLooseRow .string (.boolean true) :=
    ⟨_, rfl, rfl, List.mem_cons_of_mem _ List.mem_cons_self, by simp [Managed.IsLoose]⟩
  have hbad : bad ≠ .null := Managed.noConfusion
  have hgood : good ≠ .null := Managed.noConfusion
  refine ⟨hbad, hgood, hs, (encode_grid hs hbad).1.mpr ⟨_, _, _, hreaches, hloose⟩, ?_⟩
  obtain ⟨host, s', hrun⟩ : ∃ host s', encode Converter.defaults good .empty = (.ok host, s') := by
    have hanswer : (encode Converter.defaults good .empty).1 =
        .ok (.array (HostGrid.ofRows [[], [.string "a", .nil]])) := by
      simp only [good, table]
      cbv
    exact ⟨_, _, Prod.ext hanswer rfl⟩
  obtain ⟨grid, rfl, hgrid⟩ := (encode_grid hs hgood).2.2.2 .string _ host s' rfl rfl hrun
  have hitem : ∃ items ∈ [[], [Managed.string "a", .null]], items ≠ [] :=
    ⟨_, List.mem_cons_of_mem _ List.mem_cons_self, List.cons_ne_nil _ _⟩
  refine ⟨grid, s', hrun, hgrid.rows_eq hitem, ?_, hgrid⟩
  refine (hgrid.columns_isGreatest hitem).unique
    ⟨⟨_, List.mem_cons_of_mem _ List.mem_cons_self, rfl⟩, ?_⟩
  rintro n ⟨items, hitems, rfl⟩
  rcases List.mem_cons.mp hitems with rfl | hitems
  · exact Nat.zero_le _
  · rw [List.mem_singleton.mp hitems]
    exact Nat.le_refl _

end Gridcall
