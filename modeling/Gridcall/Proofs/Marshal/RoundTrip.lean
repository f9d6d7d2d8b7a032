import Gridcall.Proofs.Heap.Growth
import Gridcall.Proofs.Host.Grid
import Gridcall.Proofs.Marshal.Cells
import Gridcall.Proofs.Marshal.Items
import Gridcall.Proofs.Marshal.Narrowing
import Gridcall.Proofs.Marshal.Portable

/-!
# Values come back from the host

With the standard converters, a portable value that is encoded and decoded into its own type comes
back as it was. The two directions meet at the cells of a grid: encoding an item makes a cell that
reads back as the item, in this heap and in every heap that grows out of it.

* `HeapM.Gives act heap P` : `act` leaves the heap as it is and answers something with `P`;
* `HeapM.Lands act heap n Q` : `act` gives out `n` handles and answers something that satisfies `Q`
  in all the heaps to come;
* `Passes type v host` : `v` is encoded as `host`, which is decoded into `type` as `v`;
* `lands_writeItems` : items become cells that carry them; `gives_array`, `gives_table` : a grid of
  such cells reads back as the array or the table;
* `lands_encode` : portable values; `decode_encode` is the same of both directions in a row.
-/

namespace Gridcall

open Converter (standardDecoder? standardEncoder)

/-! ## Reading -/

/-- `act` leaves the heap as it is and answers something that satisfies `P`. -/
def HeapM.Gives {α : Type} (act : HeapM α) (heap : Heap) (P : α → Prop) : Prop :=
  ∃ a, act heap = (.ok a, heap) ∧ P a

namespace HeapM.Gives

variable {α β γ : Type} {heap : Heap} {act : HeapM α} {P : α → Prop} {Q : β → Prop}

theorem pure {a : α} (h : P a) : Gives (Pure.pure a) heap P := ⟨a, rfl, h⟩

theorem bind {k : α → HeapM β} (hact : Gives act heap P) (hk : ∀ a, P a → Gives (k a) heap Q) :
    Gives (act >>= k) heap Q := by
  obtain ⟨a, hrun, hP⟩ := hact
  rw [Gives, bind_of_ok hrun]
  exact hk a hP

theorem mapM {f : β → HeapM α} {R : γ → α → Prop} {sources : List γ} {cells : List β}
    (h : List.Forall₂ (fun source cell => Gives (f cell) heap (R source)) sources cells) :
    Gives (cells.mapM f) heap (List.Forall₂ R sources) := by
  induction h with
  | nil => exact pure .nil
  | cons hcell _ ih =>
    rw [List.mapM_cons]
    exact hcell.bind fun a ha => ih.bind fun rest hrest => pure (.cons ha hrest)

end HeapM.Gives

/-! ## Writing -/

/-- `act` succeeds and gives out `n` handles, and what it answers satisfies `Q` in every heap that
grows out of this one before the handles have gone round once. -/
def HeapM.Lands {α : Type} (act : HeapM α) (heap : Heap) (n : Nat) (Q : Heap → α → Prop) : Prop :=
  ∃ a heap', act heap = (.ok a, heap') ∧ heap.Grows n heap' ∧
    ∀ m later, heap'.Grows m later → n + m ≤ 2 ^ 64 → Q later a

namespace HeapM.Lands

variable {α β : Type} {heap : Heap} {act : HeapM α} {n : Nat} {Q : Heap → α → Prop}

theorem pure {a : α} (h : ∀ later, Q later a) : Lands (Pure.pure a) heap 0 Q :=
  ⟨a, heap, rfl, .refl heap, fun _ later _ _ => h later⟩

theorem map {f : α → β} {Q' : Heap → β → Prop} (hact : Lands act heap n Q)
    (h : ∀ later a, Q later a → Q' later (f a)) : Lands (do return f (← act)) heap n Q' := by
  obtain ⟨a, heap', hrun, hgrows, hQ⟩ := hact
  rw [Lands, bind_of_ok hrun]
  exact ⟨f a, heap', rfl, hgrows, fun m later hm hroom => h later a (hQ m later hm hroom)⟩

/-- Item by item: what was answered for one item still holds when the others are done. -/
theorem mapM {f : β → HeapM α} {count : β → Nat} {R : Heap → β → α → Prop} {items : List β}
    (h : ∀ item ∈ items, ∀ heap, Lands (f item) heap (count item) fun later => R later item)
    (heap : Heap) :
    Lands (items.mapM f) heap (items.map count).sum fun later => List.Forall₂ (R later) items := by
  induction items generalizing heap with
  | nil => exact pure fun _ => .nil
  | cons item items ih =>
    obtain ⟨a, heap₁, hrun₁, hgrows₁, hR₁⟩ := h item List.mem_cons_self heap
    obtain ⟨rest, heap₂, hrun₂, hgrows₂, hR₂⟩ :=
      ih (fun item hitem => h item (List.mem_cons_of_mem _ hitem)) heap₁
    rw [List.map_cons, List.sum_cons, List.mapM_cons]
    refine ⟨a :: rest, heap₂, ?_, hgrows₁.trans hgrows₂, fun m later hm hroom => ?_⟩
    · rw [bind_of_ok hrun₁, bind_of_ok hrun₂]
      rfl
    · exact .cons (hR₁ _ later (hgrows₂.trans hm) (by omega)) (hR₂ m later hm (by omega))

end HeapM.Lands

/-! ## Single values -/

theorem gives_decode {v : HostValue} {required : ManagedType} {c : Converter}
    (hc : standardDecoder? v.hostType required = some c) {f : Heap → Except CallError Managed}
    (hf : ∀ heap, readSingle? heap (some required) v c = some (f heap)) {heap : Heap} {m : Managed}
    (hm : f heap = .ok m) {P : Managed → Prop} (hP : P m) :
    (onHeap (decode Converter.defaults v required)).Gives heap P := by
  rw [onHeap_decode_of hc, decodeUsing_single hf]
  exact ⟨m, congrArg (·, heap) hm, hP⟩

/-- `v` is encoded as `host`, which is no grid and is decoded into `type` as `v`. -/
structure Passes (type : ManagedType) (v : Managed) (host : HostValue) : Prop where
  encode_eq : onHeap (encode Converter.defaults v) = pure host
  not_array : host.hostType ≠ .array
  gives : ∀ heap, (onHeap (decode Converter.defaults host type)).Gives heap fun m => m.Alike v

/-- What the converter for its type makes of a value is its encoding. -/
theorem encode_eq_pure {v : Managed} {type : ManagedType} (htype : v.runtimeType? = some type)
    {host : HostValue}
    (h : encodeUsing Converter.defaults (standardEncoder type) none v = pure host) :
    onHeap (encode Converter.defaults v) = pure host := by
  rw [onHeap_encode_of htype, h]
  rfl

theorem passes_boolean (b : Bool) {type : ManagedType} (htype : type = .boolean ∨ type = .object) :
    Passes type (.boolean b) (.boolean b) := by
  refine ⟨encode_eq_pure rfl ?_, by rintro ⟨⟩, fun heap => ?_⟩
  · rw [standardEncoder, encodeUsing, Outside.encodeUsing]
  · rcases htype with rfl | rfl <;> exact gives_decode rfl (fun _ => rfl) rfl (.refl _)

theorem passes_string (s : String) {type : ManagedType} (htype : type = .string ∨ type = .object) :
    Passes type (.string s) (.string s) := by
  refine ⟨encode_eq_pure rfl ?_, by rintro ⟨⟩, fun heap => ?_⟩
  · rw [standardEncoder, encodeUsing, Outside.encodeUsing]
  · rcases htype with rfl | rfl <;> exact gives_decode rfl (fun _ => rfl) rfl (.refl _)

theorem passes_char (c : Char) : Passes .char (.char c) (.string (String.singleton c)) := by
  refine ⟨encode_eq_pure rfl ?_, by rintro ⟨⟩, fun heap => ?_⟩
  · rw [standardEncoder, encodeUsing, Outside.encodeUsing]
  · have hchar : decodeChar (String.singleton c) = .ok (.char c) := by
      rw [decodeChar, String.toList_singleton]
    exact gives_decode rfl (fun _ => rfl) hchar (.refl _)

/-- Numbers pass if narrowing the double gives them back. -/
theorem passes_number {v : Managed} {type : ManagedType} (htype : v.runtimeType? = some type)
    (hnumeric : type.isNumeric) {x : Double} (hx : v.toDouble? = some x) {m : Managed}
    (hm : narrow type x = .ok m) (halike : m.Alike v) : Passes type v (.number x) := by
  have hdecoder : standardDecoder? (HostValue.number x).hostType type = some (.number type) :=
    Converter.standardDecoder?_number hnumeric
  refine ⟨encode_eq_pure htype ?_, by rintro ⟨⟩, fun heap => ?_⟩
  · rw [Converter.standardEncoder_number hnumeric, encodeUsing, Outside.encodeUsing]
    simp only [hx]
  · exact gives_decode hdecoder (fun _ => rfl) hm halike

theorem passes_integer {v : Managed} {k : IntegerKind} {i : Int} (hv : v = k.wrap i) (hi : k.Fits i)
    (hx : v.toDouble? = some (.ofInt i)) : Passes k.managedType v (.number (.ofInt i)) := by
  subst hv
  exact passes_number (k.runtimeType?_wrap i) (by cases k <;> rfl) hx (narrow_ofInt hi) (.refl _)

theorem passes_float (x : Single) : Passes .float (.float x) (.number x.convert) := by
  cases hx : x.isNaN with
  | true => exact passes_number rfl rfl rfl (narrow_convert_of_isNaN hx) (.nan Binary.isNaN_nan hx)
  | false => exact passes_number rfl rfl rfl (narrow_convert hx) (.refl _)

theorem passes_double (x : Double) {type : ManagedType} (htype : type = .double ∨ type = .object) :
    Passes type (.double x) (.number x) := by
  have hdouble : Passes .double (.double x) (.number x) := passes_number rfl rfl rfl rfl (.refl _)
  rcases htype with rfl | rfl
  · exact hdouble
  · refine ⟨hdouble.encode_eq, hdouble.not_array, fun heap => ?_⟩
    exact gives_decode rfl (fun _ => rfl) rfl (.refl _)

/-- Scalars pass as they are or as a double. -/
theorem exists_passes {type : ManagedType} {v : Managed} (h : PortableItem type v)
    (htype : type ≠ .object) : ∃ host, Passes type v host := by
  cases h with
  | boolean b => exact ⟨_, passes_boolean b (Or.inl rfl)⟩
  | byte n => exact ⟨_, passes_integer (by simp [IntegerKind.wrap]) (IntegerKind.fits_byte n) rfl⟩
  | short n => exact ⟨_, passes_integer (by simp [IntegerKind.wrap]) (IntegerKind.fits_short n) rfl⟩
  | int n => exact ⟨_, passes_integer (by simp [IntegerKind.wrap]) (IntegerKind.fits_int n) rfl⟩
  | long n hn => exact ⟨_, passes_integer (by simp [IntegerKind.wrap]) (IntegerKind.fits_long hn) rfl⟩
  | float x => exact ⟨_, passes_float x⟩
  | double x => exact ⟨_, passes_double x (Or.inl rfl)⟩
  | string s => exact ⟨_, passes_string s (Or.inl rfl)⟩
  | _ => exact absurd rfl htype

/-- An object is stored, and found again as long as its handle is not given out again. -/
theorem lands_object (o : Object) {type : ManagedType}
    (htype : type = .object ∨ type = .ofClass o.className) (heap : Heap) :
    (onHeap (encode Converter.defaults (.object o))).Lands heap 1 fun later host =>
      host.hostType ≠ .array ∧
        (onHeap (decode Converter.defaults host type)).Gives later fun m => m.Alike (.object o) := by
  have hencode : onHeap (encode Converter.defaults (.object o)) = onHeap (mintValue (.object o)) := by
    rw [onHeap_encode_of rfl]
    show onHeap (encodeUsing _ .object none (.object o)) = _
    rw [encodeUsing, Outside.encodeUsing]
    rfl
  rw [hencode]
  refine ⟨.object ⟨o.className, ⟨heap.next⟩⟩, (heap.mint o).2, rfl, heap.grows_mint o, ?_⟩
  intro m later hm hroom
  have hget := Heap.get?_next_of_grows hm (by omega)
  refine ⟨by rintro ⟨⟩, ?_⟩
  rcases htype with rfl | rfl
  · refine gives_decode rfl (fun _ => rfl) ?_ (.refl _)
    simp only [objectBehind, HostValue.asObject?, hget]
  · refine gives_decode rfl (fun _ => rfl) ?_ (.refl _)
    simp only [objectBehind, HostValue.asObject?, hget, if_true]

theorem onHeap_encode_value (v : HostValue) :
    onHeap (encode Converter.defaults (.value v)) = pure v := by
  refine encode_eq_pure rfl ?_
  rw [standardEncoder, encodeUsing, Outside.encodeUsing]

/-! ## Items and rows -/

/-- A cell of a grid reads back as an item. -/
def Carries (element : ManagedType) (heap : Heap) (item : Managed) (cell : HostValue) : Prop :=
  (readCell Converter.defaults element cell).Gives heap fun m => m.Alike item

theorem carries_of_gives {element : ManagedType} {heap : Heap} {item : Managed} {cell : HostValue}
    (hcell : cell.hostType ≠ .array)
    (h : (onHeap (decode Converter.defaults cell element)).Gives heap fun m => m.Alike item) :
    Carries element heap item cell := by
  have hraw : keptRaw element cell = false := by
    rw [keptRaw, beq_eq_false_iff_ne.mpr hcell, Bool.false_and]
  rw [Carries, readCell, hraw]
  exact h

theorem Passes.lands_writeItem {element : ManagedType} {item : Managed} {host : HostValue}
    (h : Passes element item host) (hnull : item.isNull = false) (hcount : item.objectCount = 0)
    (heap : Heap) : (writeItem Converter.defaults item).Lands heap item.objectCount fun later cell =>
      Carries element later item cell := by
  rw [writeItem, hnull, hcount, h.encode_eq]
  exact .pure fun later => carries_of_gives h.not_array (h.gives later)

/-- An item becomes a cell that reads back as the item. -/
theorem lands_writeItem {element : ManagedType} {item : Managed} (h : PortableItem element item)
    (heap : Heap) : (writeItem Converter.defaults item).Lands heap item.objectCount fun later cell =>
      Carries element later item cell := by
  have hitem := h
  cases h with
  | null =>
    refine .pure fun later => carries_of_gives (by rintro ⟨⟩) ?_
    exact gives_decode rfl (fun _ => rfl) rfl (.refl _)
  | rootBoolean b => exact (passes_boolean b (Or.inr rfl)).lands_writeItem rfl rfl heap
  | rootDouble x => exact (passes_double x (Or.inr rfl)).lands_writeItem rfl rfl heap
  | rootString s => exact (passes_string s (Or.inr rfl)).lands_writeItem rfl rfl heap
  | rootObject o =>
    obtain ⟨cell, heap', hrun, hgrows, hcarries⟩ := lands_object o (Or.inl rfl) heap
    refine ⟨cell, heap', hrun, hgrows, fun m later hm hroom => ?_⟩
    obtain ⟨hcell, hgives⟩ := hcarries m later hm hroom
    exact carries_of_gives hcell hgives
  | rootGrid grid =>
    rw [writeItem]
    show (onHeap (encode Converter.defaults (.value (.array grid)))).Lands heap 0 _
    rw [onHeap_encode_value]
    exact .pure fun later => ⟨.value (.array grid), rfl, .refl _⟩
  | _ =>
    obtain ⟨host, hpasses⟩ := exists_passes hitem (by rintro ⟨⟩)
    exact hpasses.lands_writeItem rfl rfl heap

/-- Items become cells that read back as the items. -/
theorem lands_writeItems {element : ManagedType} {items : List Managed}
    (hitems : ∀ item ∈ items, PortableItem element item) (heap : Heap) :
    (items.mapM (writeItem Converter.defaults)).Lands heap (Managed.array element items).objectCount
      fun later cells => List.Forall₂ (Carries element later) items cells := by
  rw [Managed.objectCount, Managed.objectCounts_eq_sum]
  exact HeapM.Lands.mapM (fun item hitem => lands_writeItem (hitems item hitem)) heap

/-- A row of cells that carry items reads back as an array of the items. -/
theorem gives_readRow {element : ManagedType} {items : List Managed} {cells : List HostValue}
    {heap : Heap} (h : List.Forall₂ (Carries element heap) items cells) :
    (readRow Converter.defaults element cells).Gives heap fun m => m.Alike (.array element items) :=
  (HeapM.Gives.mapM h).bind fun _ hbacks => .pure (.array element hbacks.flip)

/-- A grid of one row of cells that carry items reads back as an array of the items. -/
theorem gives_array {element : ManagedType} (helement : element.isVectorElement)
    {items : List Managed} (hne : items ≠ []) {cells : List HostValue} {heap : Heap}
    (h : List.Forall₂ (Carries element heap) items cells) :
    (onHeap (decode Converter.defaults (.array (HostGrid.ofRow cells)) (.array element))).Gives heap
      fun m => m.Alike (.array element items) := by
  have hcells : cells ≠ [] := by
    rintro rfl
    cases h
    exact hne rfl
  have hdecoder : standardDecoder? (HostValue.array (HostGrid.ofRow cells)).hostType
      (.array element) = some (.array element) := Converter.standardDecoder?_array helement
  rw [onHeap_decode_of hdecoder, onHeap_decodeUsing_array Registry.blind_defaults, HostGrid.ofRow,
    Grid.vector_ofRow _ hcells]
  exact gives_readRow h

/-- A rectangle of cells that carry items reads back as a table of the items. -/
theorem gives_table {element : ManagedType} (helement : element.isTableElement) {width : Nat}
    (hwidth : 0 < width) {rows : List (List Managed)} (hne : rows ≠ [])
    (hlength : ∀ row ∈ rows, row.length = width) {cells : List (List HostValue)} {heap : Heap}
    (h : List.Forall₂ (List.Forall₂ (Carries element heap)) rows cells) :
    (onHeap (decode Converter.defaults (.array (HostGrid.ofRows cells))
      (.array (.array element)))).Gives heap
      fun m => m.Alike (.array (.array element) (rows.map (.array element))) := by
  have hcells : cells ≠ [] := by
    rintro rfl
    cases h
    exact hne rfl
  have hrow : List.Forall₂ (fun row items => row.length = width ∧
      List.Forall₂ (Carries element heap) items row) cells rows :=
    (((List.forall₂_and_left _ _).mpr ⟨hlength, h⟩).imp fun _ _ hrow =>
      ⟨hrow.2.length_eq.symm.trans hrow.1, hrow.2⟩).flip
  have hcellLength := ((List.forall₂_and_left _ _).mp hrow).1
  obtain ⟨priority, htable⟩ := Converter.exists_standardTable helement
  have hdecoder : standardDecoder? (HostValue.array (HostGrid.ofRows cells)).hostType
      (.array (.array element)) = some (.table element priority) :=
    htable ▸ Converter.standardDecoder?_table helement
  rw [onHeap_decode_of hdecoder, onHeap_decodeUsing_table Registry.blind_defaults, HostGrid.ofRows,
    Grid.toRows_ofRows _ hcells hwidth hcellLength]
  have hrows : (cells.mapM (readRow Converter.defaults element)).Gives heap
      (List.Forall₂ (fun items m => Managed.Alike m (.array element items)) rows) :=
    .mapM (h.imp fun _ _ hcarries => gives_readRow hcarries)
  refine hrows.bind fun backs hbacks => .pure (.array _ ?_)
  exact List.forall₂_map_right_iff.mpr hbacks.flip

/-! ## Portable values -/

/-- A portable value is encoded as a host value that is decoded into the value's own type as the
value, also later. -/
theorem lands_encode {v : Managed} (hv : Portable v) (heap : Heap) : ∃ type,
    v.runtimeType? = some type ∧
      (onHeap (encode Converter.defaults v)).Lands heap v.objectCount fun later host =>
        (onHeap (decode Converter.defaults host type)).Gives later fun m => m.Alike v := by
  cases hv with
  | scalar h htype =>
    obtain ⟨host, hpasses⟩ := exists_passes h htype
    obtain ⟨hruntime, hcount⟩ := h.scalar_facts htype
    refine ⟨_, hruntime, ?_⟩
    rw [hcount, hpasses.encode_eq]
    exact .pure hpasses.gives
  | char c =>
    refine ⟨.char, rfl, ?_⟩
    rw [(passes_char c).encode_eq]
    exact .pure (passes_char c).gives
  | object o =>
    obtain ⟨host, heap', hrun, hgrows, hgives⟩ := lands_object o (Or.inr rfl) heap
    exact ⟨.ofClass o.className, rfl, host, heap', hrun, hgrows,
      fun m later hm hroom => (hgives m later hm hroom).2⟩
  | value v =>
    refine ⟨.value, rfl, ?_⟩
    rw [onHeap_encode_value]
    have hdecoder := Converter.standardDecoder?_value v.hostType
    exact .pure fun later => gives_decode hdecoder (fun _ => rfl) rfl (.refl _)
  | @array element items hne hitems =>
    obtain ⟨item, hitem⟩ := List.exists_mem_of_ne_nil items hne
    have helement := (hitems item hitem).isVectorElement
    refine ⟨.array element, rfl, ?_⟩
    rw [onHeap_encode_of rfl, Converter.standardEncoder_array helement, onHeap_encodeUsing_array Registry.blind_defaults]
    exact (lands_writeItems hitems heap).map fun later cells h => gives_array helement hne h
  | @table element width rows helement hne hwidth hlength hitems =>
    have htable : element.isTableElement := by
      rcases helement with rfl | rfl <;> rfl
    obtain ⟨priority, hpriority⟩ := Converter.exists_standardTable htable
    have hcount : (Managed.array (.array element) (rows.map (.array element))).objectCount =
        (rows.map fun row => (Managed.array element row).objectCount).sum := by
      rw [Managed.objectCount, Managed.objectCounts_eq_sum, List.map_map]
      rfl
    refine ⟨.array (.array element), rfl, ?_⟩
    rw [onHeap_encode_of rfl, Converter.standardEncoder_table htable, hpriority,
      onHeap_encodeUsing_table Registry.blind_defaults, List.mapM_map, hcount]
    refine (HeapM.Lands.mapM (fun row hrow => lands_writeItems (hitems row hrow)) heap).map ?_
    exact fun later cells h => gives_table htable hwidth hne hlength h

/-- **Values come back from the host.** A portable value is encoded, and what the host gets is decoded
into the value's own type as the same value, whatever the heap holds and the converters were asked
before. Each object in the value takes one of the 64-bit handles; a value that fits into memory has
less items than there are handles. -/
theorem decode_encode {v : Managed} (hv : Portable v) (hcount : v.objectCount ≤ 2 ^ 64)
    {s : MarshalState} (hs : s.memo.Truthful Converter.defaults) :
    ∃ host s₁ type v' s₂, encode Converter.defaults v s = (.ok host, s₁) ∧
      v.runtimeType? = some type ∧ decode Converter.defaults host type s₁ = (.ok v', s₂) ∧
      v'.Alike v := by
  obtain ⟨type, htype, host, heap', hlands, -, hgives⟩ := lands_encode hv s.store.heap
  obtain ⟨v', hdecode, halike⟩ := hgives 0 heap' (.refl heap') hcount
  obtain ⟨s₁, hrun₁, hheap, hs₁⟩ := oblivious_encode Registry.blind_defaults v s hs
  obtain ⟨s₂, hrun₂, -⟩ := oblivious_decode Registry.blind_defaults host type s₁ hs₁
  rw [hlands] at hrun₁ hheap
  obtain rfl : s₁.store.heap = heap' := hheap
  rw [hdecode] at hrun₂
  exact ⟨host, s₁, type, v', s₂, hrun₁, htype, hrun₂, halike⟩

/-- An array over the root with two objects in it, sent and taken back on an empty heap. -/
theorem decode_encode_row :
    let account : Managed := .object ⟨⟨0⟩, "Account", .text "open"⟩
    let row : Managed := .array .object [.null, account, .string "", account]
    Portable row ∧ row.objectCount ≤ 2 ^ 64 ∧
      (MarshalState.empty).memo.Truthful Converter.defaults ∧
      ∃ host s₁ type v' s₂, encode Converter.defaults row .empty = (.ok host, s₁) ∧
        row.runtimeType? = some type ∧ decode Converter.defaults host type s₁ = (.ok v', s₂) ∧
        v'.Alike row := by
  intro account row
  have hrow : Portable row := by
    refine .array (List.cons_ne_nil _ _) fun item hitem => ?_
    simp only [List.mem_cons, List.not_mem_nil, or_false] at hitem
    rcases hitem with rfl | rfl | rfl | rfl
    · exact .null
    · exact .rootObject _
    · exact .rootString ""
    · exact .rootObject _
  have hcount : row.objectCount ≤ 2 ^ 64 := by decide
  have hs : (MarshalState.empty).memo.Truthful Converter.defaults := Memo.truthful_empty _
  exact ⟨hrow, hcount, hs, decode_encode hrow hcount hs⟩

end Gridcall
