import Gridcall.Proofs.Marshal.Defaults
import Gridcall.Proofs.Marshal.OnHeap

/-!
# Encoding item by item

On the heap alone, an array is encoded item by item, each item as if it stood alone.

* `writeItem`, `writeRow` : the encoding of an item and of a row, on their own;
* `onHeap_encode`, `onHeap_encodeUsing_array`, `onHeap_encodeUsing_table` : what it does to a heap;
  `onHeap_encode_of` : with the standard converters.
-/

namespace Gridcall

variable {r : Registry}

/-! ## Items and rows -/

theorem Managed.isNull_of_ne {v : Managed} (h : v ≠ .null) : v.isNull = false := by
  cases v with
  | null => exact absurd rfl h
  | _ => rfl

/-- Encodes an item of an array on its own; null becomes an empty cell. -/
def writeItem (r : Registry) (item : Managed) : HeapM HostValue :=
  if item.isNull then pure .nil else onHeap (encode r item)

def writeRow (r : Registry) (element : ManagedType) : Managed → HeapM (List HostValue)
  | .null => pure []
  | .array _ items => items.mapM (writeItem r)
  | row => throw (.typeMismatch (ManagedType.array element).text row.typeName)

theorem realizes_encodeItems {items : List Managed} (hitems : ∀ item ∈ items, Oblivious r (encode r item)) :
    Realizes r (encodeItems r items fun c item _ => encodeUsing r c none item)
      (items.mapM (writeItem r)) := by
  induction items with
  | nil => exact .pure []
  | cons item items ih =>
    have hrest := ih fun item hitem => hitems item (List.mem_cons_of_mem _ hitem)
    rw [List.mapM_cons, encodeItems, writeItem]
    split
    · exact (Realizes.pure _).bind fun cell => hrest.bind fun cells => .pure _
    · refine (hitems item List.mem_cons_self).bind fun cell => ?_
      exact hrest.bind fun cells => .pure _

theorem realizes_encodeRows {element : ManagedType} {rows : List Managed}
    (hitems : ∀ e items, .array e items ∈ rows → ∀ item ∈ items, Oblivious r (encode r item)) :
    Realizes r (encodeRows r element rows fun c item _ => encodeUsing r c none item)
      (rows.mapM (writeRow r element)) := by
  induction rows with
  | nil => exact .pure []
  | cons row rows ih =>
    have hrest := ih fun e items hmem => hitems e items (List.mem_cons_of_mem _ hmem)
    rw [List.mapM_cons]
    cases row with
    | null =>
      rw [encodeRows]
      exact (Realizes.pure _).bind fun cells => hrest.bind fun rest => .pure _
    | array e items =>
      rw [encodeRows]
      refine (realizes_encodeItems (hitems e items List.mem_cons_self)).bind fun cells => ?_
      exact hrest.bind fun rest => .pure _
    | _ =>
      rw [encodeRows] <;> simp only [reduceCtorEq, IsEmpty.forall_iff, implies_true]
      exact (Realizes.throw _).bind fun cells => hrest.bind fun rest => .pure _

/-! ## Converters -/

theorem realizes_encodeUsing_array {element e : ManagedType} {wanted : Option HostType}
    {items : List Managed} (hitems : ∀ item ∈ items, Oblivious r (encode r item)) :
    Realizes r (encodeUsing r (.array element) wanted (.array e items))
      (do return .array (HostGrid.ofRow (← items.mapM (writeItem r)))) := by
  rw [encodeUsing, Outside.encodeUsing]
  exact (realizes_encodeItems hitems).bind fun cells => .pure _

theorem realizes_encodeUsing_table {element e : ManagedType} {priority : Int}
    {wanted : Option HostType} {rows : List Managed}
    (hitems : ∀ e items, .array e items ∈ rows → ∀ item ∈ items, Oblivious r (encode r item)) :
    Realizes r (encodeUsing r (.table element priority) wanted (.array e rows))
      (do return .array (HostGrid.ofRows (← rows.mapM (writeRow r element)))) := by
  rw [encodeUsing, Outside.encodeUsing]
  exact (realizes_encodeRows hitems).bind fun cells => .pure _

/-- A value is encoded by the converter that the registry picks for its type. -/
theorem realizes_encode {v : Managed} {type : ManagedType} (htype : v.runtimeType? = some type)
    (hv : ∀ c ∈ r, Oblivious r (encodeUsing r c none v)) :
    Realizes r (encode r v)
      (match r.scan (.encoding type) with
        | some c => onHeap (encodeUsing r c.converter none v)
        | none => onHeap (mintValue v)) := by
  have hpick : Realizes r (encode r v)
      (liftM (.ok (r.scan (.encoding type)) : Except CallError _) >>= fun found => match found with
      | some c => onHeap (encodeUsing r c.converter none v)
      | none => onHeap (mintValue v)) := by
    unfold encode Outside.encode encodeWith
    simp only [htype]
    refine (realizes_resolve (.encoding type)).bind_lift fun found hfound => ?_
    obtain hfound := Except.ok.inj hfound
    cases found with
    | none => exact oblivious_mintValue v
    | some c => exact hv _ (Registry.mem_of_scan hfound)
  exact hpick

theorem onHeap_encode (hr : r.Blind) {v : Managed} {type : ManagedType}
    (htype : v.runtimeType? = some type) :
    onHeap (encode r v) = match r.scan (.encoding type) with
      | some c => onHeap (encodeUsing r c.converter none v)
      | none => onHeap (mintValue v) :=
  (realizes_encode htype fun c hc => oblivious_encodeUsing hr (hr c hc) none v).onHeap_eq

theorem onHeap_encodeUsing_array (hr : r.Blind) (element e : ManagedType)
    (wanted : Option HostType) (items : List Managed) :
    onHeap (encodeUsing r (.array element) wanted (.array e items)) =
      (do return .array (HostGrid.ofRow (← items.mapM (writeItem r)))) :=
  (realizes_encodeUsing_array fun item _ => oblivious_encode hr item).onHeap_eq

theorem onHeap_encodeUsing_table (hr : r.Blind) (element e : ManagedType) (priority : Int)
    (wanted : Option HostType) (rows : List Managed) :
    onHeap (encodeUsing r (.table element priority) wanted (.array e rows)) =
      (do return .array (HostGrid.ofRows (← rows.mapM (writeRow r element)))) :=
  (realizes_encodeUsing_table fun _ _ _ item _ => oblivious_encode hr item).onHeap_eq

/-- With the standard converters the pick is the tabulated one. -/
theorem onHeap_encode_of {v : Managed} {type : ManagedType} (htype : v.runtimeType? = some type) :
    onHeap (encode Converter.defaults v) =
      onHeap (encodeUsing Converter.defaults (Converter.standardEncoder type) none v) := by
  obtain ⟨c, hscan, hc⟩ := Option.map_eq_some_iff.mp (Converter.scan_encoding type)
  rw [onHeap_encode Registry.blind_defaults htype, hscan, ← hc]

end Gridcall
