import Gridcall.Proofs.Marshal.Soundness

/-!
# Decoding strings

The converters of the library read strings as text, and never look whether they spell handles.

* `FromText text m` : what a string may become;
* `StaysText r text act` : `act` answers the same on every heap, with a value that the string may become;
* `decode_string` : so does decoding, whatever the slot is.
-/

namespace Gridcall

variable {r : Registry} {text : String} {m : Managed} {heap : Heap}

theorem isNumeric_of_narrow {target : ManagedType} {x : Double} (h : narrow target x = .ok m) :
    target.isNumeric := by
  cases target <;> first | rfl | cases h

theorem isNumeric_of_readNumber {target : ManagedType} (h : readNumber target text = .ok m) :
    target.isNumeric := by
  unfold readNumber at h
  dsimp only at h
  split at h
  · next k _ hk _ =>
    rw [IntegerKind.ofManagedType?_eq_some_iff.mp hk]
    cases k <;> rfl
  · split at h
    · exact isNumeric_of_narrow h
    · cases h

/-- A managed value that may come from a string: it is no object, and if it is a host value, then the
string itself. -/
def FromText (text : String) (m : Managed) : Prop :=
  (∀ o, m ≠ .object o) ∧ ∀ w, m = .value w → w = .string text

theorem fromText_of_runtimeType? {type : ManagedType} (htype : type.isPrimitive ∨ type = .string)
    (h : m.runtimeType? = some type) : FromText text m := by
  refine ⟨?_, ?_⟩
  · rintro o rfl
    obtain rfl : ManagedType.ofClass o.className = type := Option.some.inj h
    simp [ManagedType.isPrimitive] at htype
  · rintro w rfl
    obtain rfl : ManagedType.value = type := Option.some.inj h
    simp [ManagedType.isPrimitive] at htype

theorem fromText_of_readSingle? {required : Option ManagedType} {c : Converter}
    (h : readSingle? heap required (.string text) c = some (.ok m)) : FromText text m := by
  have hscalar : c.isScalar → FromText text m := fun hc =>
    fromText_of_runtimeType? (Converter.managedType_of_isScalar hc) (runtimeType?_of_readSingle? hc h)
  cases c with
  | numericText type =>
    obtain ⟨read, ⟨⟩, hread⟩ := exists_of_bind_eq_ok (Option.some.inj h)
    exact hscalar (isNumeric_of_readNumber hread)
  | boolean => exact hscalar rfl
  | string => exact hscalar rfl
  | char => exact hscalar rfl
  | raw =>
    obtain rfl := Except.ok.inj (Option.some.inj h)
    refine ⟨by simp, ?_⟩
    rintro w ⟨⟩
    rfl
  | _ => cases h

/-- `act` makes of a string what it would make of it on any other heap, and this is no object. -/
def StaysText (r : Registry) (text : String) (act : MarshalM Managed) : Prop :=
  ∃ answer : Except CallError Managed, (∀ m, answer = .ok m → FromText text m) ∧
    ∀ s : MarshalState, s.memo.Truthful r → ∃ s', act s = (answer, s') ∧ s'.store.heap = s.store.heap

/-- The converters of the library do not look at the heap for a string. -/
theorem decodeUsing_string {c : Converter} (hc : c.isBuiltIn) (required : Option ManagedType)
    (text : String) : ∃ answer : Except CallError Managed, (∀ m, answer = .ok m → FromText text m) ∧
      decodeUsing r c required (.string text) = fun s => (answer, s) := by
  have hsingle : ∀ answer : Except CallError Managed,
      (∀ heap, readSingle? heap required (.string text) c = some answer) →
        ∃ answer : Except CallError Managed, (∀ m, answer = .ok m → FromText text m) ∧
          decodeUsing r c required (.string text) = fun s => (answer, s) := by
    intro answer hread
    refine ⟨answer, ?_, decodeUsing_single hread⟩
    rintro m rfl
    exact fromText_of_readSingle? (hread .empty)
  cases c with
  | client c => cases hc
  | array element =>
    refine ⟨.error _, ?_, decodeUsing_array_of_ne (by simp)⟩
    rintro m ⟨⟩
  | table element priority =>
    refine ⟨.error _, ?_, decodeUsing_table_of_ne (by simp)⟩
    rintro m ⟨⟩
  | _ => exact hsingle _ fun heap => rfl

/-- With converters of the library no string is taken for an object, whatever slot it is decoded for. -/
theorem decode_string (hr : r.BuiltIn) (text : String) (required : ManagedType) :
    StaysText r text (decode r (.string text) required) := by
  obtain ⟨answer, hanswer, hheap⟩ : ∃ answer : Except CallError Managed,
      (∀ m, answer = .ok m → FromText text m) ∧
        onHeap (decode r (.string text) required) = fun heap => (answer, heap) := by
    rw [onHeap_decode hr.blind]
    cases hpick : r.decoder (HostValue.string text).hostType required with
    | error e =>
      refine ⟨.error e, ?_, rfl⟩
      rintro m ⟨⟩
    | ok c =>
      obtain ⟨answer, hanswer, hrun⟩ := decodeUsing_string (r := r) (hr c (Registry.mem_of_decoder hpick))
        (some required) text
      refine ⟨answer, hanswer, ?_⟩
      show onHeap (decodeUsing r c (some required) (.string text)) = _
      rw [hrun]
      rfl
  refine ⟨answer, hanswer, fun s hs => ?_⟩
  obtain ⟨s', hrun, hsame, -⟩ := oblivious_decode hr.blind (.string text) required s hs
  rw [hheap] at hrun hsame
  exact ⟨s', hrun, hsame⟩

end Gridcall
