import Gridcall.Proofs.Heap.Minting
import Gridcall.Proofs.Marshal.Items
import Gridcall.Proofs.Marshal.Steps

/-!
# What encoding stores

Encoding walks a value from left to right and gives out handles as it goes. What it stores is what it
wrote references for, and when it fails, what it wrote references for before.

* `Written v host stored` : `host` is what `v` is written as, and `stored` lists the objects behind
  the references in it, in order of position;
* `Broken r v stored` : `v` cannot be encoded, and `stored` lists the objects of what comes before the
  part that cannot. `Fails r c wanted v stored` says this of the converter `c` alone;
* `HeapM.Mints act heap P Q` : run on `heap`, `act` only gives out handles; what it stores satisfies
  `P` if it succeeds and `Q` if it fails. The rules for composition are below it;
* `mints_encodeUsing` : every converter of the library, by induction on the size of the value;
* `encode_adds` : successful encoding adds one entry for each reference that it writes, and decoding
  adds none.
-/

namespace Gridcall

variable {α β : Type} {r : Registry} {heap : Heap}

/-! ## What a value is written as -/

/-- The object that stands for a value in the heap: an object itself, and any other value in a box
whose class is the name of the value's type. -/
inductive Represents : Object → Managed → Prop
  | object (o : Object) : Represents o (.object o)
  | box {v : Managed} {o : Object} (hnull : v ≠ .null) (hobject : ∀ o, v ≠ .object o)
      (hclass : o.className = v.typeName) (hcontents : o.contents = .boxed v) : Represents o v

mutual

/-- `host` is what the value is written as, and the list holds what was stored for it. -/
inductive Written : Managed → HostValue → Stored → Prop
  | number {v : Managed} {x : Double} (h : v.toDouble? = some x) : Written v (.number x) []
  | numericText {v : Managed} {s : String} (h : numberText? v = some s) : Written v (.string s) []
  | boolean (b : Bool) : Written (.boolean b) (.boolean b) []
  | string (s : String) : Written (.string s) (.string s) []
  | char (c : Char) : Written (.char c) (.string (String.singleton c)) []
  /-- A raw host value goes back as it is; nothing is stored for the references in it. -/
  | raw (v : HostValue) : Written (.value v) v []
  /-- One entry for a reference, which claims the class that is stored. -/
  | reference {v : Managed} {o : Object} (h : Represents o v) (handle : Handle) :
      Written v (.object ⟨o.className, handle⟩) [(handle, o)]
  | array {e : ManagedType} {items : List Managed} {cells : List HostValue} {stored : Stored}
      (h : ItemsWritten items cells stored) :
      Written (.array e items) (.array (HostGrid.ofRow cells)) stored
  | table {e : ManagedType} {rows : List Managed} {cells : List (List HostValue)} {stored : Stored}
      (h : RowsWritten rows cells stored) :
      Written (.array e rows) (.array (HostGrid.ofRows cells)) stored

/-- Items are written place by place, null as an empty cell. -/
inductive ItemsWritten : List Managed → List HostValue → Stored → Prop
  | nil : ItemsWritten [] [] []
  | null {items : List Managed} {cells : List HostValue} {stored : Stored}
      (h : ItemsWritten items cells stored) : ItemsWritten (.null :: items) (.nil :: cells) stored
  | cons {item : Managed} {items : List Managed} {cell : HostValue} {cells : List HostValue}
      {stored more : Stored} (hitem : Written item cell stored) (h : ItemsWritten items cells more) :
      ItemsWritten (item :: items) (cell :: cells) (stored ++ more)

/-- Rows are written place by place, null as an empty row. -/
inductive RowsWritten : List Managed → List (List HostValue) → Stored → Prop
  | nil : RowsWritten [] [] []
  | null {rows : List Managed} {cells : List (List HostValue)} {stored : Stored}
      (h : RowsWritten rows cells stored) : RowsWritten (.null :: rows) ([] :: cells) stored
  | cons {e : ManagedType} {items rows : List Managed} {row : List HostValue}
      {cells : List (List HostValue)} {stored more : Stored} (hrow : ItemsWritten items row stored)
      (h : RowsWritten rows cells more) :
      RowsWritten (.array e items :: rows) (row :: cells) (stored ++ more)

end

mutual

/-- The value cannot be encoded; the list holds what was stored before that was found. -/
inductive Broken (r : Registry) : Managed → Stored → Prop
  /-- It fails at once, on any heap. -/
  | refused {v : Managed} {e : CallError} (h : ∀ heap, onHeap (encode r v) heap = (.error e, heap)) :
      Broken r v []
  | part {v : Managed} {stored : Stored} (h : PartBroken r v stored) : Broken r v stored

/-- A part of an array cannot be encoded; what comes before the part was stored. -/
inductive PartBroken (r : Registry) : Managed → Stored → Prop
  | item {e : ManagedType} {items : List Managed} {stored : Stored}
      (h : ItemsBroken r items stored) : PartBroken r (.array e items) stored
  | row {e : ManagedType} {rows : List Managed} {stored : Stored} (h : RowsBroken r rows stored) :
      PartBroken r (.array e rows) stored

/-- One of the items cannot be encoded. -/
inductive ItemsBroken (r : Registry) : List Managed → Stored → Prop
  | head {item : Managed} {items : List Managed} {stored : Stored} (h : Broken r item stored) :
      ItemsBroken r (item :: items) stored
  | null {items : List Managed} {stored : Stored} (h : ItemsBroken r items stored) :
      ItemsBroken r (.null :: items) stored
  | tail {item : Managed} {items : List Managed} {cell : HostValue} {stored more : Stored}
      (hitem : Written item cell stored) (h : ItemsBroken r items more) :
      ItemsBroken r (item :: items) (stored ++ more)

/-- One of the rows cannot be encoded. -/
inductive RowsBroken (r : Registry) : List Managed → Stored → Prop
  /-- A row that is neither null nor an array. -/
  | shape {row : Managed} {rows : List Managed} (hnull : row ≠ .null)
      (harray : ∀ e items, row ≠ .array e items) : RowsBroken r (row :: rows) []
  | head {e : ManagedType} {items rows : List Managed} {stored : Stored}
      (h : ItemsBroken r items stored) : RowsBroken r (.array e items :: rows) stored
  | null {rows : List Managed} {stored : Stored} (h : RowsBroken r rows stored) :
      RowsBroken r (.null :: rows) stored
  | tail {e : ManagedType} {items rows : List Managed} {row : List HostValue} {stored more : Stored}
      (hrow : ItemsWritten items row stored) (h : RowsBroken r rows more) :
      RowsBroken r (.array e items :: rows) (stored ++ more)

end

/-- Only arrays have parts that could have been stored before it failed. -/
theorem Broken.eq_nil {v : Managed} {stored : Stored} (h : Broken r v stored)
    (hv : ∀ e items, v ≠ .array e items) : stored = [] := by
  cases h with
  | refused => rfl
  | part h =>
    cases h with
    | item _ => exact absurd rfl (hv _ _)
    | row _ => exact absurd rfl (hv _ _)

/-! ## Computations that only give out handles -/

/-- Run on `heap`, `act` only gives out handles. What it stores satisfies `P`, together with its
answer, and `Q` if it fails. -/
def HeapM.Mints (act : HeapM α) (heap : Heap) (P : α → Stored → Prop) (Q : Stored → Prop) : Prop :=
  ∃ answer stored heap', act heap = (answer, heap') ∧ heap.Mints stored heap' ∧
    (∀ a, answer = .ok a → P a stored) ∧ ∀ e, answer = .error e → Q stored

namespace HeapM.Mints

variable {act : HeapM α} {P : α → Stored → Prop} {Q : Stored → Prop} {P' : β → Stored → Prop}
  {Q' : Stored → Prop}

theorem answer {a : α} (hact : act heap = (.ok a, heap)) (h : P a []) : Mints act heap P Q := by
  refine ⟨.ok a, [], heap, hact, .refl, ?_, ?_⟩
  · rintro b hb
    obtain rfl : a = b := Except.ok.inj hb
    exact h
  · rintro e he
    cases he

theorem failure {e : CallError} (hact : act heap = (.error e, heap)) (h : Q []) :
    Mints act heap P Q := by
  refine ⟨.error e, [], heap, hact, .refl, ?_, ?_⟩
  · rintro a ha
    cases ha
  · rintro e' -
    exact h

theorem bind {k : α → HeapM β} (hact : Mints act heap P Q) (hfail : ∀ stored, Q stored → Q' stored)
    (hk : ∀ a stored, P a stored → ∀ heap', Mints (k a) heap' (fun b more => P' b (stored ++ more))
      fun more => Q' (stored ++ more)) : Mints (act >>= k) heap P' Q' := by
  obtain ⟨x, stored, heap₁, hrun, hm, hP, hQ⟩ := hact
  cases x with
  | ok a =>
    obtain ⟨y, more, heap₂, hrun', hm', hP', hQ'⟩ := hk a stored (hP a rfl) heap₁
    refine ⟨y, stored ++ more, heap₂, ?_, hm.trans hm', hP', hQ'⟩
    rw [bind_of_ok hrun, hrun']
  | error e =>
    refine ⟨.error e, stored, heap₁, bind_of_error hrun, hm, ?_, ?_⟩
    · rintro b hb
      cases hb
    · rintro e' -
      exact hfail stored (hQ e rfl)

theorem imp {Q' : Stored → Prop} (hact : Mints act heap P Q) (h : ∀ stored, Q stored → Q' stored) :
    Mints act heap P Q' := by
  obtain ⟨x, stored, heap', hrun, hm, hP, hQ⟩ := hact
  exact ⟨x, stored, heap', hrun, hm, hP, fun e he => h stored (hQ e he)⟩

/-- What follows only changes the answer. -/
theorem map {f : α → β} (hact : Mints act heap P Q) (hP : ∀ a stored, P a stored → P' (f a) stored)
    (hQ : ∀ stored, Q stored → Q' stored) :
    Mints (act >>= fun a => Pure.pure (f a)) heap P' Q' := by
  refine hact.bind hQ fun a stored ha heap' => answer rfl ?_
  rw [List.append_nil]
  exact hP a stored ha

end HeapM.Mints

/-! ## Items and rows -/

theorem mints_writeItems {items : List Managed}
    (hitems : ∀ item ∈ items, ∀ heap,
      (onHeap (encode r item)).Mints heap (Written item) (Broken r item)) (heap : Heap) :
    (items.mapM (writeItem r)).Mints heap (ItemsWritten items) (ItemsBroken r items) := by
  induction items generalizing heap with
  | nil => exact .answer rfl .nil
  | cons item items ih =>
    have hrest := ih fun item hitem => hitems item (List.mem_cons_of_mem _ hitem)
    rw [List.mapM_cons, writeItem]
    by_cases hnull : item = .null
    · subst hnull
      rw [Managed.isNull, if_pos rfl, pure_bind]
      exact (hrest heap).map (fun cells stored h => .null h) fun stored h => .null h
    · rw [Managed.isNull_of_ne hnull]
      refine (hitems item List.mem_cons_self heap).bind (fun stored h => .head h) ?_
      intro cell stored hcell heap'
      exact (hrest heap').map (fun cells more h => .cons hcell h) fun more h => .tail hcell h

theorem mints_writeRows {element : ManagedType} {rows : List Managed}
    (hitems : ∀ e items, .array e items ∈ rows → ∀ item ∈ items, ∀ heap,
      (onHeap (encode r item)).Mints heap (Written item) (Broken r item)) (heap : Heap) :
    (rows.mapM (writeRow r element)).Mints heap (RowsWritten rows) (RowsBroken r rows) := by
  induction rows generalizing heap with
  | nil => exact .answer rfl .nil
  | cons row rows ih =>
    have hrest := ih fun e items hmem => hitems e items (List.mem_cons_of_mem _ hmem)
    rw [List.mapM_cons]
    cases row with
    | null =>
      rw [writeRow, pure_bind]
      exact (hrest heap).map (fun rest stored h => .null h) fun stored h => .null h
    | array e items =>
      refine (mints_writeItems (hitems e items List.mem_cons_self) heap).bind
        (fun stored h => .head h) ?_
      intro cells stored hcells heap'
      exact (hrest heap').map (fun rest more h => .cons hcells h) fun more h => .tail hcells h
    | _ => exact .failure rfl (.shape (by simp) (by simp))

/-! ## Converters -/

/-- The object or the box is stored, and that is all. -/
theorem mints_mintValue {v : Managed} (hnull : v ≠ .null) (heap : Heap) (Q : Stored → Prop) :
    (onHeap (mintValue v)).Mints heap (Written v) Q := by
  by_cases hobject : ∃ o, v = .object o
  · obtain ⟨o, rfl⟩ := hobject
    refine ⟨_, _, _, rfl, .mint .refl o, ?_, ?_⟩
    · rintro host hhost
      obtain rfl := Except.ok.inj hhost
      exact .reference (.object o) _
    · rintro e he
      cases he
  · have hbox : ∀ o, v ≠ .object o := fun o h => hobject ⟨o, h⟩
    obtain ⟨o, heap₁, hcreate⟩ : ∃ o heap₁, heap.create v.typeName (.boxed v) = (o, heap₁) := ⟨_, _, rfl⟩
    have hrun : onHeap (mintValue v) heap =
        (.ok (.object ⟨o.className, (heap₁.mint o).1⟩), (heap₁.mint o).2) := by
      cases v with
      | object o => exact absurd rfl (hbox o)
      | _ =>
        cases hcreate
        rfl
    have hm : heap.Mints [] heap₁ := by
      rw [show heap₁ = (heap.create v.typeName (.boxed v)).2 by rw [hcreate]]
      exact .create .refl _ _
    have hrepresents : Represents o v := by
      cases hcreate
      exact .box hnull hbox rfl rfl
    refine ⟨_, _, _, hrun, hm.mint o, ?_, ?_⟩
    · rintro host hhost
      obtain rfl := Except.ok.inj hhost
      exact .reference hrepresents _
    · rintro e he
      cases he

/-- A converter cannot encode the value: it fails at once, or a part of the value is broken. -/
def Fails (r : Registry) (c : Converter) (wanted : Option HostType) (v : Managed) (stored : Stored) :
    Prop :=
  (stored = [] ∧ ∃ e, ∀ heap, onHeap (encodeUsing r c wanted v) heap = (.error e, heap)) ∨
    PartBroken r v stored

section Converters

variable {c : Converter} {wanted : Option HostType} {v : Managed}

theorem mints_of_throw {e : CallError} (h : encodeUsing r c wanted v = throw e) (heap : Heap) :
    (onHeap (encodeUsing r c wanted v)).Mints heap (Written v) (Fails r c wanted v) := by
  have hrun : ∀ heap, onHeap (encodeUsing r c wanted v) heap = (.error e, heap) := by
    intro heap
    rw [h]
    rfl
  exact .failure (hrun heap) (Or.inl ⟨rfl, e, hrun⟩)

theorem mints_of_refuse {type : ManagedType} (h : encodeUsing r c wanted v = refuse type v)
    (heap : Heap) :
    (onHeap (encodeUsing r c wanted v)).Mints heap (Written v) (Fails r c wanted v) := by
  unfold refuse at h
  split at h
  · exact mints_of_throw h heap
  · exact mints_of_throw h heap

theorem mints_of_pure {host : HostValue} (h : encodeUsing r c wanted v = pure host)
    (hwritten : Written v host []) (heap : Heap) :
    (onHeap (encodeUsing r c wanted v)).Mints heap (Written v) (Fails r c wanted v) := by
  rw [h]
  exact .answer rfl hwritten

end Converters

theorem mints_encode_of (hr : r.BuiltIn) {v : Managed}
    (hv : ∀ c, c.isBuiltIn →
      (onHeap (encodeUsing r c none v)).Mints heap (Written v) (Fails r c none v)) :
    (onHeap (encode r v)).Mints heap (Written v) (Broken r v) := by
  by_cases hnull : v = .null
  · subst hnull
    exact .failure rfl (.refused fun _ => rfl)
  · obtain ⟨type, htype⟩ : ∃ type, v.runtimeType? = some type := by
      cases v with
      | null => exact absurd rfl hnull
      | _ => exact ⟨_, rfl⟩
    have hpick := onHeap_encode hr.blind htype
    cases hscan : r.scan (.encoding type) with
    | none =>
      rw [hpick, hscan]
      exact mints_mintValue hnull heap _
    | some c =>
      rw [hscan] at hpick
      rw [hpick]
      refine (hv _ (hr _ (Registry.mem_of_scan hscan))).imp fun stored hfails => ?_
      rcases hfails with ⟨rfl, e, he⟩ | hpart
      · refine .refused (e := e) fun heap => ?_
        rw [hpick]
        exact he heap
      · exact .part hpart

theorem mints_encodeUsing (hr : r.BuiltIn) {c : Converter} (hc : c.isBuiltIn)
    (wanted : Option HostType) (v : Managed) (heap : Heap) :
    (onHeap (encodeUsing r c wanted v)).Mints heap (Written v) (Fails r c wanted v) := by
  induction hsize : sizeOf v using Nat.strongRecOn generalizing c wanted v heap with
  | ind size ih =>
    have hless : ∀ item : Managed, sizeOf item < size → ∀ heap,
        (onHeap (encode r item)).Mints heap (Written item) (Broken r item) :=
      fun item hlt heap => mints_encode_of hr fun c hc => ih _ hlt hc none item heap rfl
    cases c with
    | client c => cases hc
    | array element =>
      rcases v.eq_array_or with ⟨e, items, rfl⟩ | hv
      · rw [onHeap_encodeUsing_array hr.blind]
        refine (mints_writeItems (fun item hitem => hless item ?_) heap).map
          (fun cells stored h => .array h) fun stored h => Or.inr (.item h)
        rw [← hsize]
        exact Managed.sizeOf_lt_of_mem_items hitem
      · exact mints_of_refuse (Outside.encodeUsing_array_of_ne hv) heap
    | table element priority =>
      rcases v.eq_array_or with ⟨e, rows, rfl⟩ | hv
      · rw [onHeap_encodeUsing_table hr.blind]
        refine (mints_writeRows (fun e' items hrow item hitem => hless item ?_) heap).map
          (fun cells stored h => .table h) fun stored h => Or.inr (.row h)
        rw [← hsize]
        exact Nat.lt_trans (Managed.sizeOf_lt_of_mem_items hitem) (Managed.sizeOf_lt_of_mem_items hrow)
      · exact mints_of_refuse (Outside.encodeUsing_table_of_ne hv) heap
    | number type =>
      cases hx : v.toDouble? with
      | some x => exact mints_of_pure (by rw [encodeUsing, Outside.encodeUsing, hx]) (.number hx) heap
      | none => exact mints_of_refuse (by rw [encodeUsing, Outside.encodeUsing, hx]) heap
    | numericText type =>
      cases hs : numberText? v with
      | some s => exact mints_of_pure (by rw [encodeUsing, Outside.encodeUsing, hs]) (.numericText hs) heap
      | none => exact mints_of_refuse (by rw [encodeUsing, Outside.encodeUsing, hs]) heap
    | object =>
      by_cases hnull : v = .null
      · subst hnull
        exact mints_of_throw (by rw [encodeUsing, Outside.encodeUsing]; rfl) heap
      · have hmint : encodeUsing r .object wanted v = mintValue v := by
          rw [encodeUsing, Outside.encodeUsing, Managed.isNull_of_ne hnull]
          rfl
        rw [hmint]
        exact mints_mintValue hnull heap _
    | nil => exact mints_of_throw (by rw [encodeUsing, Outside.encodeUsing]) heap
    | boolean =>
      cases v with
      | boolean b => exact mints_of_pure (by rw [encodeUsing, Outside.encodeUsing]) (.boolean b) heap
      | _ => exact mints_of_refuse (by unfold encodeUsing Outside.encodeUsing; rfl) heap
    | string =>
      cases v with
      | string s => exact mints_of_pure (by rw [encodeUsing, Outside.encodeUsing]) (.string s) heap
      | _ => exact mints_of_refuse (by unfold encodeUsing Outside.encodeUsing; rfl) heap
    | char =>
      cases v with
      | char c => exact mints_of_pure (by rw [encodeUsing, Outside.encodeUsing]) (.char c) heap
      | _ => exact mints_of_refuse (by unfold encodeUsing Outside.encodeUsing; rfl) heap
    | raw =>
      cases v with
      | value host => exact mints_of_pure (by rw [encodeUsing, Outside.encodeUsing]) (.raw host) heap
      | _ => exact mints_of_refuse (by unfold encodeUsing Outside.encodeUsing; rfl) heap

/-! ## Whole conversions -/

theorem mints_encode (hr : r.BuiltIn) (v : Managed) (heap : Heap) :
    (onHeap (encode r v)).Mints heap (Written v) (Broken r v) :=
  mints_encode_of hr fun _ hc => mints_encodeUsing hr hc none v heap

/-- On a heap that a bridge can have, whatever is remembered, encoding adds what it stores. -/
theorem exists_adds_of_encode (hr : r.BuiltIn) {past : List HeapEvent} {s s' : MarshalState}
    (hreached : Heap.Reached past s.store.heap) (hs : s.memo.Truthful r) {v : Managed}
    {answer : Except CallError HostValue} (hrun : encode r v s = (answer, s'))
    (hroom : s'.store.heap.minted ≤ 2 ^ 63 - 1) :
    ∃ stored, Heap.Adds past s.store.heap stored s'.store.heap ∧
      (∀ host, answer = .ok host → Written v host stored) ∧
      ∀ e, answer = .error e → Broken r v stored := by
  obtain ⟨s₁, hact, hheap, -⟩ := oblivious_encode hr.blind v s hs
  obtain ⟨x, stored, heap', hplain, hm, hwritten, hbroken⟩ := mints_encode hr v s.store.heap
  rw [hplain] at hact hheap
  obtain ⟨rfl, rfl⟩ := Prod.mk.inj (hrun.symm.trans hact)
  rw [hheap] at hroom ⊢
  exact ⟨stored, hm.adds hreached hroom, hwritten, hbroken⟩

/-- **Encoding only adds entries, one for each reference that it writes, and decoding adds none.** With
the converters of the library, on any heap that a bridge can have: what a successful encoding adds
stands under handles of its own, in the order of the references, and each of them finds the object
that was encoded at its place, or the box around the value there. -/
theorem encode_adds (hr : r.BuiltIn) {past : List HeapEvent} {s : MarshalState}
    (hreached : Heap.Reached past s.store.heap) (hs : s.memo.Truthful r) :
    (∀ v host s', encode r v s = (.ok host, s') → s'.store.heap.minted ≤ 2 ^ 63 - 1 →
      ∃ stored, Written v host stored ∧ Heap.Adds past s.store.heap stored s'.store.heap) ∧
      ∀ host required, (decode r host required s).2.store.heap = s.store.heap := by
  refine ⟨?_, fun host required => (still_decode hr host required s).heap⟩
  intro v host s' hrun hroom
  obtain ⟨stored, hadds, hwritten, -⟩ := exists_adds_of_encode hr hreached hs hrun hroom
  exact ⟨stored, hwritten host rfl, hadds⟩

/-- A row of an object, a table of truth values and an empty place, after a handle was released. The
table has no host form of its own and is put into a box. -/
theorem encode_adds_row :
    let ada : Object := ⟨⟨0⟩, "Person", .text "Ada"⟩
    let table : Managed := .array (.array .boolean) []
    let row : Managed := .array .object [.object ada, table, .null]
    let first := (Heap.empty.mint ada).2
    let s : MarshalState := ⟨⟨(first.release ⟨1⟩).2, []⟩, .empty⟩
    let host : HostValue := .array ⟨1, 3, [.object ⟨"Person", ⟨2⟩⟩, .object ⟨"boolean[][]", ⟨3⟩⟩, .nil]⟩
    let s' := (encode Converter.defaults row s).2
    let past : List HeapEvent := [.minted ada ⟨1⟩, .released ⟨1⟩ true]
    encode Converter.defaults row s = (.ok host, s') ∧ s'.store.heap.minted ≤ 2 ^ 63 - 1 ∧
      (∃ stored, Written row host stored ∧ Heap.Adds past s.store.heap stored s'.store.heap) ∧
      (decode Converter.defaults host (.array .object) s).2.store.heap = s.store.heap := by
  intro ada table row first s host s' past
  have hreached : Heap.Reached past s.store.heap :=
    .release (.mint (.start 0) ada) ⟨1⟩
  have hs : s.memo.Truthful Converter.defaults := Memo.truthful_empty _
  have hanswer : (encode Converter.defaults row s).1 = .ok host := by
    simp only [row, table, s, first]
    cbv
  have hrun : encode Converter.defaults row s = (.ok host, s') := Prod.ext hanswer rfl
  have hroom : s'.store.heap.minted ≤ 2 ^ 63 - 1 := by
    simp only [s', row, table, s, first]
    cbv
  have hboth := encode_adds Registry.builtIn_defaults hreached hs
  exact ⟨hrun, hroom, hboth.1 row host s' hrun hroom, hboth.2 host _⟩

end Gridcall
