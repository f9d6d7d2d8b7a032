import Gridcall.Proofs.Host.Grid
import Gridcall.Proofs.Marshal.Cells
import Gridcall.Proofs.Marshal.Defaults
import Gridcall.Proofs.Marshal.Narrowing

/-!
# Decoding is type sound

With the standard converters, what a host value becomes in a slot is a value that the slot may hold.

* `Inhabits heap v type m` : a slot of `type` may hold `m` for the host value `v`;
* `HeapM.Yields act heap P` : `act` leaves the heap as it is, and what it answers satisfies `P`. The
  rules for composition are below it;
* `yields_decode` : decoding yields inhabitants, by cases on which converter was picked;
* `inhabits_of_decode` : the same of decoding from any state of the memo.
-/

namespace Gridcall

open Converter (StandardDecodes)

/-! ## Inhabitants -/

/-- An object that some handle refers to. -/
def Heap.IsLive (heap : Heap) (o : Object) : Prop := ∃ handle, heap.get? handle = some o

/-- What a slot may hold whose type is no array type. -/
inductive InhabitsSingle (heap : Heap) : ManagedType → Managed → Prop
  /-- A value of that very type. -/
  | scalar {type : ManagedType} {m : Managed} (h : type.isPrimitive ∨ type = .string)
      (hm : m.runtimeType? = some type) : InhabitsSingle heap type m
  /-- The root and the classes hold null. -/
  | null {type : ManagedType} (h : isObjectType type) : InhabitsSingle heap type .null
  | double (x : Double) : InhabitsSingle heap .object (.double x)
  | string (s : String) : InhabitsSingle heap .object (.string s)
  | boolean (b : Bool) : InhabitsSingle heap .object (.boolean b)
  /-- The root holds any live object. -/
  | object {o : Object} (h : heap.IsLive o) : InhabitsSingle heap .object (.object o)
  /-- A class holds its own live objects. -/
  | ofClass {o : Object} (h : heap.IsLive o) : InhabitsSingle heap (.ofClass o.className) (.object o)

/-- An item that was read from a cell: a grid inside the grid as it is, or an inhabitant of the
element type. -/
def InhabitsItem (heap : Heap) (element : ManagedType) (cell : HostValue) (item : Managed) : Prop :=
  (∃ grid, cell = .array grid ∧ item = .value cell) ∨ InhabitsSingle heap element item

/-- A row that was read from cells: an array of the given length, item by item. -/
def InhabitsRow (heap : Heap) (element : ManagedType) (width : Nat) (cells : List HostValue)
    (row : Managed) : Prop :=
  ∃ items, row = .array element items ∧ items.length = width ∧
    List.Forall₂ (InhabitsItem heap element) cells items

/-- What a slot may hold for a host value. Slots of array types that are missing here hold nothing. -/
inductive Inhabits (heap : Heap) : HostValue → ManagedType → Managed → Prop
  | single {v : HostValue} {type : ManagedType} {m : Managed} (h : InhabitsSingle heap type m) :
      Inhabits heap v type m
  /-- A slot for host values holds the value itself. -/
  | value (v : HostValue) : Inhabits heap v .value (.value v)
  /-- An array over one of nine element types, item by item. -/
  | array {grid : HostGrid} {element : ManagedType} {items : List Managed}
      (helement : element.isVectorElement)
      (hitems : List.Forall₂ (InhabitsItem heap element) grid.vector items) :
      Inhabits heap (.array grid) (.array element) (.array element items)
  /-- Rows of one length over one of two element types, none of them empty. -/
  | table {grid : HostGrid} {element : ManagedType} {width : Nat} {rows : List Managed}
      (helement : element.isTableElement) (hwidth : 0 < width) (hne : rows ≠ [])
      (hrows : List.Forall₂ (InhabitsRow heap element width) grid.toRows rows) :
      Inhabits heap (.array grid) (.array (.array element)) (.array (.array element) rows)

/-! ## Computations that leave the heap as it is -/

/-- `act` leaves the heap as it is, and what it answers satisfies `P`. -/
def HeapM.Yields {α : Type} (act : HeapM α) (heap : Heap) (P : α → Prop) : Prop :=
  ∃ answer, act heap = (answer, heap) ∧ ∀ a, answer = .ok a → P a

namespace HeapM.Yields

variable {α β : Type} {heap : Heap} {act : HeapM α} {P : α → Prop} {Q : β → Prop}

theorem pure {a : α} (h : P a) : Yields (Pure.pure a) heap P :=
  ⟨.ok a, rfl, fun _ ha => Except.ok.inj ha ▸ h⟩

theorem throw (e : CallError) : Yields (MonadExcept.throw e) heap P :=
  ⟨.error e, rfl, fun _ h => by cases h⟩

theorem read {f : Heap → Except CallError α} (h : ∀ a, f heap = .ok a → P a) :
    Yields (fun heap => (f heap, heap)) heap P :=
  ⟨f heap, rfl, h⟩

theorem bind {k : α → HeapM β} (hact : Yields act heap P)
    (hk : ∀ a, P a → Yields (k a) heap Q) : Yields (act >>= k) heap Q := by
  obtain ⟨answer, hrun, hP⟩ := hact
  cases answer with
  | ok a =>
    rw [Yields, bind_of_ok hrun]
    exact hk a (hP a rfl)
  | error e => exact ⟨.error e, bind_of_error hrun, fun _ h => by cases h⟩

theorem imp {Q : α → Prop} (hact : Yields act heap P) (h : ∀ a, P a → Q a) : Yields act heap Q := by
  obtain ⟨answer, hrun, hP⟩ := hact
  exact ⟨answer, hrun, fun a ha => h a (hP a ha)⟩

theorem mapM {f : α → HeapM β} {R : α → β → Prop} {xs : List α}
    (h : ∀ x ∈ xs, Yields (f x) heap (R x)) : Yields (xs.mapM f) heap (List.Forall₂ R xs) := by
  induction xs with
  | nil => exact pure .nil
  | cons x xs ih =>
    rw [List.mapM_cons]
    refine (h x List.mem_cons_self).bind fun y hy => ?_
    refine (ih fun x hx => h x (List.mem_cons_of_mem _ hx)).bind fun ys hys => ?_
    exact pure (.cons hy hys)

end HeapM.Yields

/-! ## Single values -/

variable {heap : Heap}

theorem exists_of_bind_eq_ok {α β : Type} {e : Except CallError α} {k : α → Except CallError β} {b : β}
    (h : e >>= k = .ok b) : ∃ a, e = .ok a ∧ k a = .ok b := by
  cases e with
  | ok a => exact ⟨a, rfl, h⟩
  | error e => cases h

/-- A scalar converter makes a value of its own type. -/
theorem runtimeType?_of_readSingle? {c : Converter} (hc : c.isScalar)
    {required : Option ManagedType} {v : HostValue} {m : Managed}
    (h : readSingle? heap required v c = some (.ok m)) : m.runtimeType? = some c.managedType := by
  cases c with
  | number type =>
    obtain ⟨x, -, hx⟩ := exists_of_bind_eq_ok (Option.some.inj h)
    exact runtimeType?_of_narrow hx
  | numericText type =>
    obtain ⟨s, -, hs⟩ := exists_of_bind_eq_ok (Option.some.inj h)
    exact runtimeType?_of_readNumber hs
  | boolean =>
    obtain ⟨b, -, hb⟩ := exists_of_bind_eq_ok (Option.some.inj h)
    rw [← Except.ok.inj hb]
    rfl
  | string =>
    obtain ⟨s, -, hs⟩ := exists_of_bind_eq_ok (Option.some.inj h)
    rw [← Except.ok.inj hs]
    rfl
  | char =>
    obtain ⟨s, -, hs⟩ := exists_of_bind_eq_ok (Option.some.inj h)
    unfold decodeChar at hs
    split at hs
    · rw [← Except.ok.inj hs]
      rfl
    · cases hs
  | _ => cases hc

theorem Converter.managedType_of_isScalar {c : Converter} (hc : c.isScalar) :
    c.managedType.isPrimitive ∨ c.managedType = .string := by
  cases c with
  | number type => cases type <;> first | exact Or.inl rfl | cases hc
  | numericText type => cases type <;> first | exact Or.inl rfl | cases hc
  | boolean => exact Or.inl rfl
  | string => exact Or.inr rfl
  | char => exact Or.inl rfl
  | _ => cases hc

/-- A reference that resolves gives a live object, of the required class if one is required. -/
theorem inhabits_of_objectBehind {required : ManagedType} (hrequired : isObjectType required)
    {v : HostValue} {m : Managed} (h : objectBehind heap (some required) v = .ok m) :
    InhabitsSingle heap required m := by
  unfold objectBehind at h
  split at h
  · cases h
  · next reference _ =>
    split at h
    · cases h
    · next o ho =>
      have hlive : heap.IsLive o := ⟨reference.handle, ho⟩
      cases required with
      | object =>
        rw [← Except.ok.inj h]
        exact .object hlive
      | ofClass name =>
        simp only at h
        split at h
        · next hclass =>
          rw [← Except.ok.inj h, ← hclass]
          exact .ofClass hlive
        · cases h
      | _ => cases hrequired

theorem eq_null_of_decodeNil {v : HostValue} {m : Managed} (h : decodeNil v = .ok m) : m = .null := by
  unfold decodeNil at h
  split at h
  · exact (Except.ok.inj h).symm
  · exact (Except.ok.inj h).symm
  · cases h

/-- What the converters for single values make of a host value inhabits the slot. -/
theorem inhabits_of_readSingle? {required : ManagedType} {v : HostValue} {c : Converter}
    (hc : StandardDecodes v.hostType required c) {m : Managed}
    (h : readSingle? heap (some required) v c = some (.ok m)) : Inhabits heap v required m := by
  generalize v.hostType = host at hc
  cases hc with
  | raw =>
    rw [← Except.ok.inj (Option.some.inj h)]
    exact .value v
  | scalar hscalar _ hrequired =>
    subst hrequired
    exact .single (.scalar (Converter.managedType_of_isScalar hscalar)
      (runtimeType?_of_readSingle? hscalar h))
  | root hroot =>
    refine .single ?_
    rcases hroot with rfl | rfl | rfl
    · have hm := runtimeType?_of_readSingle? (c := .number .double) rfl h
      cases m with
      | double x => exact .double x
      | _ => cases hm
    · have hm := runtimeType?_of_readSingle? (c := .string) rfl h
      cases m with
      | string s => exact .string s
      | _ => cases hm
    · have hm := runtimeType?_of_readSingle? (c := .boolean) rfl h
      cases m with
      | boolean b => exact .boolean b
      | _ => cases hm
  | object hrequired => exact .single (inhabits_of_objectBehind hrequired (Option.some.inj h))
  | nil _ hrequired =>
    rw [eq_null_of_decodeNil (Option.some.inj h)]
    exact .single (.null hrequired)
  | array _ => cases h
  | table _ _ => cases h

/-- Decoding is what the converter in the table does. -/
theorem yields_decode_of {v : HostValue} {required : ManagedType} {P : Managed → Prop}
    (h : ∀ c, StandardDecodes v.hostType required c →
      (onHeap (decodeUsing Converter.defaults c (some required) v)).Yields heap P) :
    (onHeap (decode Converter.defaults v required)).Yields heap P := by
  cases hc : Converter.standardDecoder? v.hostType required with
  | none =>
    rw [onHeap_decode Registry.blind_defaults, Converter.decoder_defaults, hc]
    exact .throw _
  | some c =>
    rw [onHeap_decode_of hc]
    exact h c (Converter.standardDecodes_of_eq_some hc)

theorem yields_single {v : HostValue} {required : ManagedType} {c : Converter}
    (hc : StandardDecodes v.hostType required c) {f : Heap → Except CallError Managed}
    (hf : ∀ heap, readSingle? heap (some required) v c = some (f heap)) :
    (onHeap (decodeUsing Converter.defaults c (some required) v)).Yields heap
      (Inhabits heap v required) := by
  rw [decodeUsing_single hf]
  refine .read fun m hm => inhabits_of_readSingle? hc ?_
  rw [hf, hm]

theorem yields_decode_single {v : HostValue} {required : ManagedType}
    (hrequired : required.isArray = false) :
    (onHeap (decode Converter.defaults v required)).Yields heap (Inhabits heap v required) := by
  refine yields_decode_of fun c hc => ?_
  have hcases := hc
  generalize v.hostType = host at hcases
  cases hcases with
  | raw => exact yields_single hc fun _ => rfl
  | scalar hscalar _ _ =>
    cases c with
    | number type => exact yields_single hc fun _ => rfl
    | numericText type => exact yields_single hc fun _ => rfl
    | boolean => exact yields_single hc fun _ => rfl
    | string => exact yields_single hc fun _ => rfl
    | char => exact yields_single hc fun _ => rfl
    | _ => cases hscalar
  | root hroot _ => rcases hroot with rfl | rfl | rfl <;> exact yields_single hc fun _ => rfl
  | object _ => exact yields_single hc fun _ => rfl
  | nil _ _ => exact yields_single hc fun _ => rfl
  | array _ => cases hrequired
  | table _ _ => cases hrequired

/-! ## Grids -/

theorem HostValue.eq_array_of_hostType {v : HostValue} (h : v.hostType = .array) :
    ∃ grid, v = .array grid := by
  cases v with
  | array grid => exact ⟨grid, rfl⟩
  | _ => cases h

/-- A cell of a grid becomes an item that the array may hold. -/
theorem yields_readCell {element : ManagedType} (helement : element.isVectorElement)
    (cell : HostValue) :
    (readCell Converter.defaults element cell).Yields heap (InhabitsItem heap element cell) := by
  have hsingle : element.isArray = false := ManagedType.isArray_of_isVectorElement helement
  unfold readCell
  split
  · next hraw =>
    obtain ⟨hhost, -⟩ := Bool.and_eq_true_iff.mp hraw
    obtain ⟨grid, rfl⟩ := HostValue.eq_array_of_hostType (beq_iff_eq.mp hhost)
    exact .pure (Or.inl ⟨grid, rfl, rfl⟩)
  · refine (yields_decode_single hsingle).imp fun item hitem => Or.inr ?_
    cases hitem with
    | single h => exact h
    | value => cases helement
    | array _ _ => cases hsingle
    | table _ _ _ _ => cases hsingle

/-- A row of a grid becomes an array of the same length. -/
theorem yields_readRow {element : ManagedType} (helement : element.isVectorElement)
    (row : List HostValue) :
    (readRow Converter.defaults element row).Yields heap (InhabitsRow heap element row.length row) := by
  refine (HeapM.Yields.mapM fun cell _ => yields_readCell helement cell).bind fun items hitems => ?_
  exact .pure ⟨items, rfl, hitems.length_eq.symm, hitems⟩

theorem yields_array {element : ManagedType} (helement : element.isVectorElement) (grid : HostGrid)
    (required : Option ManagedType) :
    (onHeap (decodeUsing Converter.defaults (.array element) required (.array grid))).Yields heap
      (Inhabits heap (.array grid) (.array element)) := by
  rw [onHeap_decodeUsing_array Registry.blind_defaults]
  refine (HeapM.Yields.mapM fun cell _ => yields_readCell helement cell).bind fun items hitems => ?_
  exact .pure (.array helement hitems)

theorem yields_table {element : ManagedType} (helement : element.isTableElement) {grid : HostGrid}
    (hgrid : grid.WellFormed) (priority : Int) (required : Option ManagedType) :
    (onHeap (decodeUsing Converter.defaults (.table element priority) required (.array grid))).Yields
      heap (Inhabits heap (.array grid) (.array (.array element))) := by
  rw [onHeap_decodeUsing_table Registry.blind_defaults]
  have hrow : ∀ row ∈ grid.toRows, (readRow Converter.defaults element row).Yields heap
      (InhabitsRow heap element grid.columns row) := by
    intro row hrow
    rw [← Grid.length_of_mem_toRows hgrid hrow]
    exact yields_readRow (ManagedType.isVectorElement_of_isTableElement helement) row
  refine (HeapM.Yields.mapM hrow).bind fun rows hrows => .pure ?_
  refine .table helement hgrid.columns_pos (fun hnil => ?_) hrows
  have hlength := hrows.length_eq
  have hpos := hgrid.rows_pos
  rw [hnil, Grid.length_toRows, List.length_nil] at hlength
  omega

/-! ## Every value -/

theorem yields_decode {v : HostValue} (hv : ∀ grid, v = .array grid → grid.WellFormed)
    (required : ManagedType) :
    (onHeap (decode Converter.defaults v required)).Yields heap (Inhabits heap v required) := by
  cases hrequired : required.isArray with
  | false => exact yields_decode_single hrequired
  | true =>
    obtain ⟨element, rfl⟩ := ManagedType.exists_element_of_isArray hrequired
    refine yields_decode_of fun c hc => ?_
    generalize hhost : v.hostType = host at hc
    cases hc with
    | scalar hscalar _ hown =>
      have hsingle := Converter.managedType_of_isScalar hscalar
      rw [hown] at hsingle
      rcases hsingle with h | h <;> cases h
    | object h => cases h
    | nil _ h => cases h
    | array helement =>
      obtain ⟨grid, rfl⟩ := HostValue.eq_array_of_hostType hhost
      exact yields_array helement grid _
    | table helement _ =>
      obtain ⟨grid, rfl⟩ := HostValue.eq_array_of_hostType hhost
      exact yields_table helement (hv grid rfl) _ _

/-- **Decoding is type sound.** With the standard converters, whatever they were asked before, a host
value that is decoded becomes a value that the slot may hold. The grid of an array value is well
formed, as all grids are that the library makes. -/
theorem inhabits_of_decode {v : HostValue} (hv : ∀ grid, v = .array grid → grid.WellFormed)
    {required : ManagedType} {s : MarshalState} (hs : s.memo.Truthful Converter.defaults)
    {m : Managed} (h : (decode Converter.defaults v required s).1 = .ok m) :
    Inhabits s.store.heap v required m := by
  obtain ⟨s', hrun, -⟩ := oblivious_decode Registry.blind_defaults v required s hs
  have hyields : (onHeap (decode Converter.defaults v required)).Yields s.store.heap
      (Inhabits s.store.heap v required) := yields_decode hv required
  obtain ⟨answer, hanswer, hinhabits⟩ := hyields
  rw [hrun, hanswer] at h
  exact hinhabits m h

/-- A row of a truth value, a grid and an empty cell is read into an array over the root. -/
theorem inhabits_of_decode_row :
    let inner : HostValue := .array ⟨1, 1, [.missing]⟩
    Inhabits .empty (.array ⟨1, 3, [.boolean true, inner, .nil]⟩) (.array .object)
      (.array .object [.boolean true, .value inner, .null]) := by
  intro inner
  refine inhabits_of_decode (s := .empty) (fun grid hgrid => ?_) (Memo.truthful_empty _) (by cbv)
  obtain rfl := HostValue.array.inj hgrid
  exact ⟨by decide, by decide, rfl⟩

end Gridcall
