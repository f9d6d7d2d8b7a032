import Gridcall.Call.Binding
import Gridcall.Proofs.Host.Sameness
import Gridcall.Proofs.Marshal.Cells

/-!
# Claimed classes are not trusted

A reference claims a class, and nothing in the library acts on that claim: values that are the same up
to claimed classes are decoded alike, and refer to the same receiver.

* `Managed.Same` : managed values that differ at most in classes that raw host values claim;
* `AnswersAgree R` : the same error, or values in the relation `R`;
* `HeapM.Agree R heap act act'` : run on `heap`, neither computation changes it, and their answers
  agree. The rules for composition are below it;
* `agree_decodeUsing` : every converter of the library, by induction on the size of the value;
* `resolveReceiver_eq_of_same` : the receiver of an instance call;
* `decode_agree_of_same` : both together, for any state of the memo.
-/

namespace Gridcall

open HostValue (Same)

variable {α β γ δ : Type} {r : Registry} {heap : Heap}

/-- Managed values that differ at most in classes that the host values in them claim. -/
inductive Managed.Same : Managed → Managed → Prop
  | refl (m : Managed) : Same m m
  | value {v v' : HostValue} (h : v.Same v') : Same (.value v) (.value v')
  | array (element : ManagedType) {items items' : List Managed} (h : List.Forall₂ Same items items') :
      Same (.array element items) (.array element items')

/-- Two answers are the same error, or values in a relation. -/
inductive AnswersAgree (R : α → β → Prop) : Except CallError α → Except CallError β → Prop
  | ok {a : α} {b : β} (h : R a b) : AnswersAgree R (.ok a) (.ok b)
  | error (e : CallError) : AnswersAgree R (.error e) (.error e)

theorem AnswersAgree.of_eq {R : α → α → Prop} (hR : ∀ a, R a a) {x y : Except CallError α}
    (h : x = y) : AnswersAgree R x y := by
  subst h
  cases x with
  | ok a => exact .ok (hR a)
  | error e => exact .error e

/-- Neither computation changes the heap, and their answers agree. -/
def HeapM.Agree (R : α → β → Prop) (heap : Heap) (act : HeapM α) (act' : HeapM β) : Prop :=
  ∃ x y, act heap = (x, heap) ∧ act' heap = (y, heap) ∧ AnswersAgree R x y

namespace HeapM.Agree

variable {R : α → β → Prop} {S : γ → δ → Prop} {act : HeapM α} {act' : HeapM β}

theorem pure {a : α} {b : β} (h : R a b) : Agree R heap (Pure.pure a) (Pure.pure b) :=
  ⟨.ok a, .ok b, rfl, rfl, .ok h⟩

theorem throw (e : CallError) :
    Agree R heap (MonadExcept.throw e : HeapM α) (MonadExcept.throw e : HeapM β) :=
  ⟨.error e, .error e, rfl, rfl, .error e⟩

theorem read {f : Heap → Except CallError α} {f' : Heap → Except CallError β}
    (h : AnswersAgree R (f heap) (f' heap)) :
    Agree R heap (fun heap => (f heap, heap)) (fun heap => (f' heap, heap)) :=
  ⟨f heap, f' heap, rfl, rfl, h⟩

theorem bind {k : α → HeapM γ} {k' : β → HeapM δ} (hact : Agree R heap act act')
    (hk : ∀ a b, R a b → Agree S heap (k a) (k' b)) : Agree S heap (act >>= k) (act' >>= k') := by
  obtain ⟨x, y, hrun, hrun', hxy⟩ := hact
  cases hxy with
  | ok h =>
    unfold Agree
    rw [bind_of_ok hrun, bind_of_ok hrun']
    exact hk _ _ h
  | error e => exact ⟨.error e, .error e, bind_of_error hrun, bind_of_error hrun', .error e⟩

theorem mapM {f : α → HeapM γ} {f' : β → HeapM δ} {as : List α} {bs : List β}
    (h : List.Forall₂ (fun a b => Agree S heap (f a) (f' b)) as bs) :
    Agree (List.Forall₂ S) heap (as.mapM f) (bs.mapM f') := by
  induction h with
  | nil => exact pure .nil
  | cons hab _ ih =>
    rw [List.mapM_cons, List.mapM_cons]
    exact hab.bind fun c d hcd => ih.bind fun cs ds hcds => pure (.cons hcd hcds)

end HeapM.Agree

/-! ## Single values -/

/-- The class that a reference claims does not say which object it refers to, nor whether the slot may
hold that object. -/
theorem objectBehind_eq_of_same {required : Option ManagedType} {v v' : HostValue} (h : Same v v') :
    objectBehind heap required v = objectBehind heap required v' := by
  rcases HostValue.cases_of_same h with ⟨rfl, -⟩ | ⟨a, b, rfl, rfl, hab⟩ | ⟨g, g', rfl, rfl, -⟩
  · rfl
  · simp only [objectBehind, HostValue.asObject?, hab]
  · rfl

theorem decodeNil_eq_of_same {v v' : HostValue} (h : Same v v') : decodeNil v = decodeNil v' := by
  rcases HostValue.cases_of_same h with ⟨rfl, -⟩ | ⟨a, b, rfl, rfl, -⟩ | ⟨g, g', rfl, rfl, -⟩ <;> rfl

/-- A visitor that refuses references and grids cannot tell values that are the same apart. -/
theorem accept_eq_of_same {visitor : Visitor α}
    (hobject : ∀ a b, visitor.object a = visitor.object b)
    (harray : ∀ g g', visitor.array g = visitor.array g') {v v' : HostValue} (h : Same v v') :
    v.accept visitor = v'.accept visitor := by
  rcases HostValue.cases_of_same h with ⟨rfl, -⟩ | ⟨a, b, rfl, rfl, -⟩ | ⟨g, g', rfl, rfl, -⟩
  · rfl
  · exact hobject a b
  · exact harray g g'

theorem agree_readSingle? {c : Converter} {required : Option ManagedType} {v v' : HostValue}
    (h : Same v v') {f f' : Heap → Except CallError Managed}
    (hf : ∀ heap, readSingle? heap required v c = some (f heap))
    (hf' : ∀ heap, readSingle? heap required v' c = some (f' heap)) :
    AnswersAgree Managed.Same (f heap) (f' heap) := by
  have hnumber : v.accept .numeric = v'.accept .numeric :=
    accept_eq_of_same (fun _ _ => rfl) (fun _ _ => rfl) h
  have htext : v.accept .text = v'.accept .text :=
    accept_eq_of_same (fun _ _ => rfl) (fun _ _ => rfl) h
  have hlogical : v.accept .logical = v'.accept .logical :=
    accept_eq_of_same (fun _ _ => rfl) (fun _ _ => rfl) h
  have hv := hf heap
  have hv' := hf' heap
  by_cases hraw : c = .raw
  · subst hraw
    rw [← Option.some.inj hv, ← Option.some.inj hv']
    exact .ok (.value h)
  · refine .of_eq Managed.Same.refl (Option.some.inj ?_)
    rw [← hv, ← hv']
    cases c with
    | raw => exact absurd rfl hraw
    | object => simp only [readSingle?, objectBehind_eq_of_same h]
    | nil => simp only [readSingle?, decodeNil_eq_of_same h]
    | _ => simp only [readSingle?, hnumber, htext, hlogical]

theorem agree_single {c : Converter} {required : Option ManagedType} {v v' : HostValue}
    (h : Same v v') {f f' : Heap → Except CallError Managed}
    (hf : ∀ heap, readSingle? heap required v c = some (f heap))
    (hf' : ∀ heap, readSingle? heap required v' c = some (f' heap)) :
    HeapM.Agree Managed.Same heap (onHeap (decodeUsing r c required v))
      (onHeap (decodeUsing r c required v')) := by
  rw [decodeUsing_single hf, decodeUsing_single hf']
  exact .read (agree_readSingle? h hf hf')

/-! ## Grids -/

/-- The kind of a value is not a matter of claimed classes, so the same converter is picked. -/
theorem agree_decode_of {required : ManagedType} (hr : r.BuiltIn) {v v' : HostValue} (h : Same v v')
    (hv : ∀ c, c.isBuiltIn → HeapM.Agree Managed.Same heap
      (onHeap (decodeUsing r c (some required) v)) (onHeap (decodeUsing r c (some required) v'))) :
    HeapM.Agree Managed.Same heap (onHeap (decode r v required)) (onHeap (decode r v' required)) := by
  rw [onHeap_decode hr.blind, onHeap_decode hr.blind, ← HostValue.hostType_eq_of_same h]
  cases hc : r.decoder v.hostType required with
  | error e => exact .throw e
  | ok c => exact hv c (hr c (Registry.mem_of_decoder hc))

theorem agree_readCell {element : ManagedType} {cell cell' : HostValue} (h : Same cell cell')
    (hcell : HeapM.Agree Managed.Same heap
      (onHeap (decode r cell element)) (onHeap (decode r cell' element))) :
    HeapM.Agree Managed.Same heap (readCell r element cell) (readCell r element cell') := by
  have hraw : keptRaw element cell = keptRaw element cell' := by
    rw [keptRaw, keptRaw, HostValue.hostType_eq_of_same h]
  unfold readCell
  rw [← hraw]
  split
  · exact .pure (.value h)
  · exact hcell

/-- The converters of the library, grids by induction on the size of the value. -/
theorem agree_decodeUsing (hr : r.BuiltIn) {c : Converter} (hc : c.isBuiltIn)
    (required : Option ManagedType) {v v' : HostValue} (h : Same v v') :
    HeapM.Agree Managed.Same heap (onHeap (decodeUsing r c required v))
      (onHeap (decodeUsing r c required v')) := by
  induction hsize : sizeOf v using Nat.strongRecOn generalizing c required v v' with
  | ind size ih =>
    have hcells : ∀ g : HostGrid, v = .array g → ∀ element, ∀ cell ∈ g.cells, ∀ cell',
        Same cell cell' →
          HeapM.Agree Managed.Same heap (readCell r element cell) (readCell r element cell') := by
      rintro g rfl element cell hcell cell' hsame
      have hlt := HostValue.sizeOf_lt_of_mem_cells hcell
      refine agree_readCell hsame (agree_decode_of hr hsame fun c hc => ?_)
      exact ih (sizeOf cell) (by omega) hc _ hsame rfl
    cases c with
    | client c => cases hc
    | array element =>
      rcases HostValue.cases_of_same h with ⟨rfl, hv⟩ | ⟨a, b, rfl, rfl, -⟩ | ⟨g, g', rfl, rfl, hg⟩
      · rw [decodeUsing_array_of_ne (by rintro g rfl; exact hv rfl)]
        exact .throw _
      · rw [decodeUsing_array_of_ne (by simp), decodeUsing_array_of_ne (by simp)]
        exact .throw _
      · rw [onHeap_decodeUsing_array hr.blind, onHeap_decodeUsing_array hr.blind]
        have hread := (List.forall₂_and_left _ _).mpr ⟨fun cell hcell =>
          hcells g rfl element cell (Grid.mem_cells_of_mem_vector hcell), hg.vector⟩
        exact (HeapM.Agree.mapM (hread.imp fun cell cell' hcell => hcell.1 cell' hcell.2)).bind
          fun items items' hitems => .pure (.array element hitems)
    | table element priority =>
      rcases HostValue.cases_of_same h with ⟨rfl, hv⟩ | ⟨a, b, rfl, rfl, -⟩ | ⟨g, g', rfl, rfl, hg⟩
      · rw [decodeUsing_table_of_ne (by rintro g rfl; exact hv rfl)]
        exact .throw _
      · rw [decodeUsing_table_of_ne (by simp), decodeUsing_table_of_ne (by simp)]
        exact .throw _
      · rw [onHeap_decodeUsing_table hr.blind, onHeap_decodeUsing_table hr.blind]
        have hrows := (List.forall₂_and_left _ _).mpr ⟨fun row hrow cell hcell =>
          hcells g rfl element cell (Grid.mem_cells_of_mem_toRows hrow hcell), hg.toRows⟩
        have hread : List.Forall₂ (fun row row' => HeapM.Agree Managed.Same heap
            (readRow r element row) (readRow r element row')) g.toRows g'.toRows := by
          refine hrows.imp fun row row' hrow => ?_
          have hread := (List.forall₂_and_left _ _).mpr hrow
          exact (HeapM.Agree.mapM (hread.imp fun cell cell' hcell => hcell.1 cell' hcell.2)).bind
            fun items items' hitems => .pure (.array element hitems)
        exact (HeapM.Agree.mapM hread).bind fun rows rows' hrows => .pure (.array _ hrows)
    | _ => exact agree_single h (fun _ => rfl) (fun _ => rfl)

/-! ## Receivers -/

theorem resolveReceiver_eq_of_same (d : Descriptor) (heap : Heap) {v v' : HostValue} (h : Same v v') :
    d.resolveReceiver heap (some v) = d.resolveReceiver heap (some v') := by
  rcases HostValue.cases_of_same h with ⟨rfl, -⟩ | ⟨a, b, rfl, rfl, hab⟩ | ⟨g, g', rfl, rfl, -⟩
  · rfl
  · simp only [Descriptor.resolveReceiver, hab]
  · rfl

/-- **The claimed class of a reference is never trusted.** Two host values that are the same up to the
classes that references in them claim are decoded alike by the converters of the library: into managed
values that are the same, or with one error. Nor does a receiver depend on its claimed class. -/
theorem decode_agree_of_same (hr : r.BuiltIn) {v v' : HostValue} (h : (v == v') = true) :
    (∀ (required : ManagedType) (s s' : MarshalState), s.memo.Truthful r → s'.memo.Truthful r →
      s.store.heap = s'.store.heap →
        AnswersAgree Managed.Same (decode r v required s).1 (decode r v' required s').1) ∧
      ∀ (d : Descriptor) (heap : Heap),
        d.resolveReceiver heap (some v) = d.resolveReceiver heap (some v') := by
  refine ⟨fun required s s' hs hs' hheap => ?_, fun d heap => resolveReceiver_eq_of_same d heap h⟩
  obtain ⟨t, hrun, -⟩ := oblivious_decode hr.blind v required s hs
  obtain ⟨t', hrun', -⟩ := oblivious_decode hr.blind v' required s' hs'
  have hagree : HeapM.Agree Managed.Same s.store.heap (onHeap (decode r v required))
      (onHeap (decode r v' required)) := agree_decode_of hr h fun c hc => agree_decodeUsing hr hc _ h
  obtain ⟨x, y, hx, hy, hxy⟩ := hagree
  rw [hrun, hrun', ← hheap, hx, hy]
  exact hxy

/-- A row of a live reference and a grid with a dead one, once with their own classes and once with
forged ones, the second time after the registry was asked something. -/
theorem decode_agree_of_forged_row :
    let heap := (Heap.empty.mint ⟨⟨0⟩, "Person", .text "Ada"⟩).2
    let s : MarshalState := ⟨⟨heap, []⟩, .empty⟩
    let s' := afterQueries Converter.defaults s [.decoding .object (.ofClass "Account")]
    let row (claimed : ClassName) : HostValue :=
      .array ⟨1, 2, [.object ⟨claimed, ⟨1⟩⟩, .array ⟨1, 1, [.object ⟨claimed, ⟨7⟩⟩]⟩]⟩
    let get := Descriptor.method "Get" "Person" [] (some .string)
    (row "Person" == row "Account") = true ∧
      AnswersAgree Managed.Same (decode Converter.defaults (row "Person") (.array .object) s).1
        (decode Converter.defaults (row "Account") (.array .object) s').1 ∧
      get.resolveReceiver heap (some (row "Person")) = get.resolveReceiver heap (some (row "Account")) := by
  intro heap s s' row get
  have hrow : (row "Person" == row "Account") = true := rfl
  have hs : s.memo.Truthful Converter.defaults := Memo.truthful_empty _
  have hboth := decode_agree_of_same Registry.builtIn_defaults hrow
  exact ⟨hrow, hboth.1 _ s s' hs (truthful_afterQueries hs _) rfl, hboth.2 get heap⟩

end Gridcall
