import Gridcall.Proofs.Host.Shape
import Gridcall.Proofs.Json.RoundTrip

/-!
# What is accepted as a host value

Whatever a text holds, the grids in the value that it is accepted as are rectangles, and the bounds of
the areas are in order.

* `Json.Within j root` : `j` stands in `root`, at any depth;
* `Json.bounds?` : the four bounds of an area as they are written, in order or not. There is an area with
  these bounds, and it is read, exactly if they are in order (`CellRange.exists_area_iff`,
  `CellRange.exists_ofJson?_succ_iff`);
* `HostValue.cases_of_ofJson?` : a grid is made of rows, and what they hold stands in the text;
* `HostValue.eq_nil_or_read_of_part` : so does every part of a value, at any depth, except for the cells
  that fill up rows;
* `HostValue.coherent_of_any_input` : the shape of all grids and areas.
-/

namespace Gridcall

namespace Json

/-- A JSON value is another one, or stands in it at any depth. -/
inductive Within (j : Json) : Json → Prop
  | self : Within j j
  | item {items : List Json} {k : Json} (hk : k ∈ items) (hj : Within j k) : Within j (.array items)
  | field {fields : List (Option String × Json)} {f : Option String × Json} (hf : f ∈ fields)
      (hj : Within j f.2) : Within j (.object fields)

theorem Within.trans {j k l : Json} (hjk : Within j k) (hkl : Within k l) : Within j l := by
  induction hkl with
  | self => exact hjk
  | item hmem _ ih => exact .item hmem ih
  | field hmem _ ih => exact .field hmem ih

theorem within_of_items? {j k : Json} {items : List Json} (h : j.items? = some items) (hk : k ∈ items) :
    Within k j := by
  cases j with
  | array => exact .item (Option.some.inj h ▸ hk) .self
  | _ => cases h

/-- What is read with `mapM` is read item by item. -/
theorem exists_of_mem_mapM {α β : Type} {read : α → Option β} {as : List α} {bs : List β}
    (h : as.mapM read = some bs) {b : β} (hb : b ∈ bs) : ∃ a ∈ as, read a = some b := by
  induction as generalizing bs with
  | nil =>
    obtain rfl : [] = bs := Option.some.inj h
    cases hb
  | cons a as ih =>
    rw [List.mapM_cons] at h
    obtain ⟨b', hb', h⟩ := Option.bind_eq_some_iff.mp h
    obtain ⟨bs', hbs', h⟩ := Option.bind_eq_some_iff.mp h
    obtain rfl : b' :: bs' = bs := Option.some.inj h
    rcases List.mem_cons.mp hb with rfl | hb
    · exact ⟨a, List.mem_cons_self, hb'⟩
    · obtain ⟨a', ha', hread⟩ := ih hbs' hb
      exact ⟨a', List.mem_cons_of_mem _ ha', hread⟩

theorem within_of_listOf? {α : Type} {read : Nat → Json → Option α} {room : Nat} {j : Json} {as : List α}
    (h : listOf? read room j = some as) {a : α} (ha : a ∈ as) :
    ∃ k room', Within k j ∧ read room' k = some a := by
  cases room with
  | zero => cases h
  | succ room =>
    obtain ⟨items, hitems, h⟩ := Option.bind_eq_some_iff.mp h
    obtain ⟨k, hk, hread⟩ := exists_of_mem_mapM h ha
    exact ⟨k, room, within_of_items? hitems hk, hread⟩

theorem mem_of_only? {name : String} {fields : List (Option String × Json)} {v : Json}
    (h : only? name fields = some v) : ∃ f ∈ fields, f.2 = v := by
  unfold only? at h
  split at h
  · next f w heq =>
    obtain rfl := Option.some.inj h
    have hmem : (f, w) ∈ fields.filter fun f => f.1 == some name := heq ▸ List.mem_singleton_self _
    exact ⟨_, (List.mem_filter.mp hmem).1, rfl⟩
  · cases h

theorem within_of_record? {names : List String} {j k : Json} {values : List Json}
    (h : j.record? names = some values) (hk : k ∈ values) : Within k j := by
  cases j with
  | object fields =>
    obtain ⟨_, -, h⟩ := Option.bind_eq_some_iff.mp h
    obtain ⟨name, -, hread⟩ := exists_of_mem_mapM h hk
    obtain ⟨f, hf, rfl⟩ := mem_of_only? hread
    exact .field hf .self
  | array items =>
    obtain ⟨_, -, h⟩ := Option.bind_eq_some_iff.mp h
    exact .item (Option.some.inj h ▸ hk) .self
  | _ => cases h

end Json

open Json

/-! ## Areas -/

/-- The bounds of an area, in order or not. -/
structure AreaBounds where
  rowFirst : UInt32
  rowLast : UInt32
  columnFirst : UInt32
  columnLast : UInt32

/-- On both axes the first bound is not after the last. -/
def AreaBounds.InOrder (b : AreaBounds) : Prop := b.rowFirst ≤ b.rowLast ∧ b.columnFirst ≤ b.columnLast

instance : DecidablePred AreaBounds.InOrder := fun _ => inferInstanceAs (Decidable (_ ∧ _))

/-- The area with given bounds, or the axis on which they are out of order. -/
def AreaBounds.area (b : AreaBounds) : Except RangeError CellRange :=
  CellRange.ofBounds b.rowFirst b.rowLast b.columnFirst b.columnLast

def Json.bounds? (j : Json) : Option AreaBounds := do
  match ← j.record? ["row_first", "row_last", "column_first", "column_last"] with
  | [rowFirst, rowLast, columnFirst, columnLast] =>
    return ⟨← rowFirst.uint32?, ← rowLast.uint32?, ← columnFirst.uint32?, ← columnLast.uint32?⟩
  | _ => none

namespace CellRange

def bounds (r : CellRange) : AreaBounds := ⟨r.rowFirst, r.rowLast, r.columnFirst, r.columnLast⟩

theorem area_eq_ok_iff {b : AreaBounds} {r : CellRange} : b.area = .ok r ↔ r.bounds = b := by
  constructor
  · intro h
    unfold AreaBounds.area ofBounds at h
    split at h
    · split at h
      · obtain rfl := Except.ok.inj h
        rfl
      · cases h
    · cases h
  · rintro rfl
    exact ofBounds_eq_ok r

/-- There is an area with given bounds exactly if they are in order. -/
theorem exists_area_iff {b : AreaBounds} : (∃ r, b.area = .ok r) ↔ b.InOrder := by
  constructor
  · rintro ⟨r, h⟩
    obtain rfl := area_eq_ok_iff.mp h
    exact ⟨r.row_le, r.column_le⟩
  · rintro ⟨hrow, hcolumn⟩
    exact ⟨⟨_, _, _, _, hrow, hcolumn⟩, area_eq_ok_iff.mpr rfl⟩

theorem ofJson?_succ (room : Nat) (j : Json) :
    ofJson? (room + 1) j = j.bounds?.bind fun b => b.area.toOption := by
  rw [ofJson?, bounds?]
  cases j.record? ["row_first", "row_last", "column_first", "column_last"] with
  | none => rfl
  | some values =>
    rcases values with _ | ⟨a, _ | ⟨b, _ | ⟨c, _ | ⟨d, _ | ⟨e, rest⟩⟩⟩⟩⟩
    case cons.cons.cons.cons.nil => simp [Option.bind_assoc, AreaBounds.area]
    all_goals rfl

/-- The area that is read has the bounds that are written. -/
theorem ofJson?_succ_eq_some_iff {room : Nat} {j : Json} {r : CellRange} :
    ofJson? (room + 1) j = some r ↔ j.bounds? = some r.bounds := by
  have harea : ∀ b : AreaBounds, b.area.toOption = some r ↔ b = r.bounds := by
    intro b
    rw [eq_comm (b := r.bounds), ← area_eq_ok_iff]
    cases b.area <;> simp [Except.toOption]
  rw [ofJson?_succ, Option.bind_eq_some_iff]
  constructor
  · rintro ⟨b, hb, h⟩
    rw [hb, (harea b).mp h]
  · intro h
    exact ⟨r.bounds, h, (harea _).mpr rfl⟩

/-- An area is read exactly if its bounds are written in order. -/
theorem exists_ofJson?_succ_iff {room : Nat} {j : Json} {b : AreaBounds} (h : j.bounds? = some b) :
    (∃ r, ofJson? (room + 1) j = some r) ↔ b.InOrder := by
  rw [← exists_area_iff]
  refine exists_congr fun r => ?_
  rw [ofJson?_succ_eq_some_iff, h, Option.some.injEq, area_eq_ok_iff, eq_comm]

theorem bounds?_of_ofJson? {room : Nat} {j : Json} {r : CellRange} (h : ofJson? room j = some r) :
    j.bounds? = some r.bounds := by
  cases room with
  | zero => cases h
  | succ room => exact ofJson?_succ_eq_some_iff.mp h

end CellRange

namespace HostValue

/-! ## Cases of host values -/

def ranges : HostValue → List CellRange
  | reference r => [r]
  | range r => [r]
  | multiReference _ rs => rs
  | _ => []

theorem exists_of_multiReferenceOfJson? {room : Nat} {content : Json} {v : HostValue}
    (h : multiReferenceOfJson? room content = some v) : ∃ sheet rs j room', v = .multiReference sheet rs ∧
      Within j content ∧ listOf? CellRange.ofJson? room' j = some rs := by
  cases room with
  | zero => cases h
  | succ room =>
    obtain ⟨values, hvalues, h⟩ := Option.bind_eq_some_iff.mp h
    split at h
    · obtain ⟨sheet, -, h⟩ := Option.bind_eq_some_iff.mp h
      obtain ⟨rs, hrs, h⟩ := Option.bind_eq_some_iff.mp h
      exact ⟨_, rs, _, room, (Option.some.inj h).symm,
        within_of_record? hvalues (List.mem_cons_of_mem _ List.mem_cons_self), hrs⟩
    · cases h

theorem eq_of_ofEmptyCase? {name : String} {v : HostValue} (h : ofEmptyCase? name = some v) :
    v = .missing ∨ v = .nil := by
  unfold ofEmptyCase? at h
  split at h
  · exact .inl (Option.some.inj h).symm
  · exact .inr (Option.some.inj h).symm
  · cases h

/-- What is read from a simple case: no grid, and of an area the bounds are written in the content. -/
theorem simple_of_ofSimpleCase? {room : Nat} {name : String} {content : Json} {v : HostValue}
    (h : ofSimpleCase? room name content = some v) :
    v.hostType ≠ .array ∧ ∀ r ∈ v.ranges, ∃ j, Within j content ∧ j.bounds? = some r.bounds := by
  unfold ofSimpleCase? at h
  split at h
  case h_6 | h_9 =>
    obtain ⟨r, hr, rfl⟩ := Option.map_eq_some_iff.mp h
    refine ⟨by rintro ⟨⟩, fun r' hr' => ⟨content, .self, ?_⟩⟩
    obtain rfl := List.mem_singleton.mp hr'
    exact CellRange.bounds?_of_ofJson? hr
  case h_7 =>
    obtain ⟨sheet, rs, j, room', rfl, hj, hrs⟩ := exists_of_multiReferenceOfJson? h
    refine ⟨by rintro ⟨⟩, fun r hr => ?_⟩
    obtain ⟨k, room', hk, hread⟩ := within_of_listOf? hrs hr
    exact ⟨k, hk.trans hj, CellRange.bounds?_of_ofJson? hread⟩
  case h_11 =>
    rw [Option.ite_none_right_eq_some] at h
    rcases eq_of_ofEmptyCase? h.2 with rfl | rfl
    · exact ⟨by decide, fun r hr => by cases hr⟩
    · exact ⟨by decide, fun r hr => by cases hr⟩
  all_goals
    obtain ⟨a, -, rfl⟩ := Option.map_eq_some_iff.mp h
    exact ⟨by rintro ⟨⟩, fun r hr => by cases hr⟩

/-! ## Grids -/

/-- A grid is made of rows, and what they hold is read from what stands in the grid's form. -/
theorem exists_rows_of_gridOfJson? {readCell : Option (Json → Option HostValue)} {j : Json}
    {grid : HostGrid} (h : gridOfJson? readCell j = some grid) :
    ∃ rows, grid = HostGrid.ofRows rows ∧ ∀ row ∈ rows, ∀ cell ∈ row,
      ∃ read, readCell = some read ∧ ∃ k, Within k j ∧ read k = some cell := by
  obtain ⟨items, hitems, h⟩ := Option.bind_eq_some_iff.mp h
  cases readCell with
  | none =>
    obtain ⟨_, -, h⟩ := Option.bind_eq_some_iff.mp h
    exact ⟨[], (Option.some.inj h).symm, fun row hrow => by cases hrow⟩
  | some read =>
    obtain ⟨rows, hrows, h⟩ := Option.bind_eq_some_iff.mp h
    refine ⟨rows, (Option.some.inj h).symm, fun row hrow cell hcell => ⟨read, rfl, ?_⟩⟩
    obtain ⟨item, hitem, hrow⟩ := exists_of_mem_mapM hrows hrow
    obtain ⟨cells, hcells, hrow⟩ := Option.bind_eq_some_iff.mp hrow
    obtain ⟨k, hk, hread⟩ := exists_of_mem_mapM hrow hcell
    exact ⟨k, (within_of_items? hcells hk).trans (within_of_items? hitems hitem), hread⟩

/-- What is read from a value: a grid of rows whose values are read from what stands in it, or a value
other than a grid, whose areas have their bounds written in it. -/
theorem cases_of_ofJson? {room : Nat} {j : Json} {v : HostValue} (h : ofJson? room j = some v) :
    (∃ rows, v = .array (HostGrid.ofRows rows) ∧ ∀ row ∈ rows, ∀ cell ∈ row,
      ∃ room' k, Within k j ∧ ofJson? room' k = some cell) ∨
      (v.hostType ≠ .array ∧ ∀ r ∈ v.ranges, ∃ k, Within k j ∧ k.bounds? = some r.bounds) := by
  have hgrid : ∀ {readCell : Option (Json → Option HostValue)} {name : Option String} {content : Json},
      (∀ read, readCell = some read → ∃ room', read = ofJson? room') →
      (gridOfJson? readCell content).map array = some v →
      ∃ rows, v = .array (HostGrid.ofRows rows) ∧ ∀ row ∈ rows, ∀ cell ∈ row,
        ∃ room' k, Within k (.object [(name, content)]) ∧ ofJson? room' k = some cell := by
    intro readCell name content hread h
    obtain ⟨grid, hgrid, rfl⟩ := Option.map_eq_some_iff.mp h
    obtain ⟨rows, rfl, hrows⟩ := exists_rows_of_gridOfJson? hgrid
    refine ⟨rows, rfl, fun row hrow cell hcell => ?_⟩
    obtain ⟨read, hsome, k, hk, hcell⟩ := hrows row hrow cell hcell
    obtain ⟨room', rfl⟩ := hread read hsome
    exact ⟨room', k, .field (List.mem_singleton_self _) hk, hcell⟩
  unfold ofJson? at h
  split at h
  · rcases eq_of_ofEmptyCase? h with rfl | rfl
    · exact .inr ⟨by decide, fun r hr => by cases hr⟩
    · exact .inr ⟨by decide, fun r hr => by cases hr⟩
  · split at h
    · split at h
      · cases h
      · exact .inl (hgrid (by rintro read ⟨⟩) h)
      · exact .inl (hgrid (by rintro read ⟨rfl⟩; exact ⟨_, rfl⟩) h)
    · obtain ⟨hsingle, hranges⟩ := simple_of_ofSimpleCase? h
      refine .inr ⟨hsingle, fun r hr => ?_⟩
      obtain ⟨k, hk, hbounds⟩ := hranges r hr
      exact ⟨k, .field (List.mem_singleton_self _) hk, hbounds⟩
  · cases h

/-! ## Whole values -/

theorem eq_nil_of_part_nil {w : HostValue} (h : Part w .nil) : w = .nil := by cases h; rfl

/-- Every part of a value is read from what stands in the value's form, except for empty cells that
fill up rows. -/
theorem eq_nil_or_read_of_part {room : Nat} {j : Json} {v w : HostValue} (h : ofJson? room j = some v)
    (hw : Part w v) : w = .nil ∨ ∃ room' k, Within k j ∧ ofJson? room' k = some w := by
  induction hw generalizing room j with
  | self => exact .inr ⟨room, j, .self, h⟩
  | @cell grid v hv hw ih =>
    rcases cases_of_ofJson? h with ⟨rows, heq, hrows⟩ | ⟨hsingle, -⟩
    · obtain rfl := HostValue.array.inj heq
      rcases Grid.mem_cells_ofRows hv with rfl | ⟨row, hrow, hmem⟩
      · exact .inl (eq_nil_of_part_nil hw)
      · obtain ⟨room', k, hk, hread⟩ := hrows row hrow v hmem
        rcases ih hread with hnil | ⟨room'', k', hk', hread'⟩
        · exact .inl hnil
        · exact .inr ⟨room'', k', hk'.trans hk, hread'⟩
    · exact absurd rfl hsingle

/-- **No input makes a malformed value.** Rows of any lengths make a grid with at least one cell, in which
each value of a row stands at its place and every other place is empty, and all ways to read the grid
agree. Bounds make an area exactly if they are in order, given one by one or written as JSON. So in a
value that a text is accepted as, every grid has this shape at any depth, and every area has the bounds
that are written for it somewhere in the text, which are in order. -/
theorem coherent_of_any_input :
    (∀ rows : List (List HostValue),
      (HostGrid.ofRows rows).Coherent ∧ Grid.Pads .nil rows (HostGrid.ofRows rows)) ∧
    (∀ b : AreaBounds, ((∃ r, b.area = .ok r) ↔ b.InOrder) ∧
      ∀ room j, j.bounds? = some b → ((∃ r, CellRange.ofJson? (room + 1) j = some r) ↔ b.InOrder)) ∧
    ∀ room text root v, Json.read? text = some root → ofJson? room root = some v →
      (∀ grid, Part (.array grid) v → grid.Coherent) ∧
      ∀ w r, Part w v → r ∈ w.ranges →
        r.bounds.InOrder ∧ ∃ j, Within j root ∧ j.bounds? = some r.bounds := by
  have hcoherent : ∀ rows, (HostGrid.ofRows rows).Coherent := fun rows =>
    Grid.WellFormed.coherent (Grid.wellFormed_ofRows HostValue.nil rows)
  refine ⟨fun rows => ⟨hcoherent rows, Grid.pads_ofRows HostValue.nil rows⟩,
    fun b => ⟨CellRange.exists_area_iff, fun room j h => CellRange.exists_ofJson?_succ_iff h⟩, ?_⟩
  intro room text root v _ hread
  refine ⟨fun grid hgrid => ?_, fun w r hw hr => ⟨⟨r.row_le, r.column_le⟩, ?_⟩⟩
  · rcases eq_nil_or_read_of_part hread hgrid with hnil | ⟨room', j, -, hj⟩
    · cases hnil
    · rcases cases_of_ofJson? hj with ⟨rows, heq, -⟩ | ⟨hsingle, -⟩
      · obtain rfl := HostValue.array.inj heq
        exact hcoherent rows
      · exact absurd rfl hsingle
  · rcases eq_nil_or_read_of_part hread hw with rfl | ⟨room', j, hj, hread'⟩
    · cases hr
    · rcases cases_of_ofJson? hread' with ⟨rows, rfl, -⟩ | ⟨-, hranges⟩
      · cases hr
      · obtain ⟨k, hk, hbounds⟩ := hranges r hr
        exact ⟨k, hk.trans hj, hbounds⟩

/-- Two rows, the second empty, and an area in the first; bounds out of order make no area. -/
theorem coherent_of_any_input_ragged :
    let area : Json := .array [.number "0", .number "3", .number "2", .number "2"]
    let inverted : Json := .array [.number "3", .number "0", .number "2", .number "2"]
    let root : Json := .object [(some "Array",
      .array [.array [.string (some "Nil"), .object [(some "Range", area)]], .array []])]
    let r : CellRange := ⟨0, 3, 2, 2, by decide, by decide⟩
    let g : HostGrid := HostGrid.ofRows [[.nil, .range r], []]
    Json.read? "\x7b\"Array\":[[\"Nil\",\x7b\"Range\":[0,3,2,2]\x7d],[]]\x7d" = some root ∧
      ofJson? Json.maxDepth root = some (.array g) ∧ g.Coherent ∧ r.bounds.InOrder ∧
      inverted.bounds? = some ⟨3, 0, 2, 2⟩ ∧ ¬ ∃ r, CellRange.ofJson? 1 inverted = some r := by
  intro area inverted root r g
  have htext : Json.read? "\x7b\"Array\":[[\"Nil\",\x7b\"Range\":[0,3,2,2]\x7d],[]]\x7d" = some root := by cbv
  have hroot : ofJson? Json.maxDepth root = some (.array g) := by cbv
  have hinverted : inverted.bounds? = some ⟨3, 0, 2, 2⟩ := by cbv
  obtain ⟨-, hbounds, hvalue⟩ := coherent_of_any_input
  obtain ⟨hgrids, hranges⟩ := hvalue _ _ _ _ htext hroot
  have hr : Part (.range r) (.array g) :=
    .cell (v := .range r) (List.mem_cons_of_mem _ List.mem_cons_self) .self
  refine ⟨htext, hroot, hgrids g .self, (hranges _ r hr List.mem_cons_self).1, hinverted, ?_⟩
  rw [(hbounds _).2 0 inverted hinverted]
  decide

end HostValue

end Gridcall
