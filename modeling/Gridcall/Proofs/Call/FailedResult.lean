import Gridcall.Call.Run
import Gridcall.Proofs.Marshal.Written

/-!
# Results that cannot be encoded

A result is encoded part by part, and each object in it gets its handle at once. If a later part cannot
be encoded the call fails, but the handles that were given out stay live, although the host never
learns of them.

* `encodeResult_error_adds` : what a result that cannot be encoded leaves in the heap;
* `encodeResult_error_live` : a call whose result leaves an object that nobody asked for.
-/

namespace Gridcall

variable {r : Registry}

/-- Only null and values that are encoded like any other can fail as results. -/
theorem encodeResult_error_cases {d : Descriptor} {v : Managed} {s s' : MarshalState} {e : CallError}
    (hrun : encodeResult r d v s = (.error e, s')) :
    (v = .null ∧ s' = s) ∨ encode r v s = (.error e, s') := by
  unfold encodeResult at hrun
  cases hreturns : d.returns with
  | none =>
    rw [hreturns] at hrun
    cases hrun
  | some type =>
    rw [hreturns] at hrun
    cases v with
    | value host => cases hrun
    | null =>
      cases hrun
      exact Or.inl ⟨rfl, rfl⟩
    | _ => exact Or.inr hrun

/-- **A result that cannot be encoded leaves behind what was stored before it failed.** Nothing that
was live is lost and nothing is released, but the objects in the parts before the one that failed stay
live, each under a new handle. Only an array has such parts. -/
theorem encodeResult_error_adds (hr : r.BuiltIn) {past : List HeapEvent} {s s' : MarshalState}
    (hreached : Heap.Reached past s.store.heap) (hs : s.memo.Truthful r) {d : Descriptor}
    {v : Managed} {e : CallError} (hrun : encodeResult r d v s = (.error e, s'))
    (hroom : s'.store.heap.minted ≤ 2 ^ 63 - 1) :
    ∃ stored, Broken r v stored ∧ Heap.Adds past s.store.heap stored s'.store.heap ∧
      (∀ handle, (s'.store.heap.get? handle).isSome ↔
        (s.store.heap.get? handle).isSome ∨ handle ∈ stored.map Prod.fst) ∧
      ((∀ e items, v ≠ .array e items) → stored = []) := by
  obtain ⟨stored, hadds, hbroken⟩ : ∃ stored, Heap.Adds past s.store.heap stored s'.store.heap ∧
      Broken r v stored := by
    rcases encodeResult_error_cases hrun with ⟨rfl, rfl⟩ | hencode
    · exact ⟨[], Heap.Mints.refl.adds hreached hroom, .refused fun _ => rfl⟩
    · obtain ⟨stored, hadds, -, hbroken⟩ := exists_adds_of_encode hr hreached hs hencode hroom
      exact ⟨stored, hadds, hbroken e rfl⟩
  exact ⟨stored, hbroken, hadds, hadds.isSome_get?_iff, hbroken.eq_nil⟩

/-- A table whose second row is a truth value: the first row is stored, then the call fails. -/
theorem encodeResult_error_adds_table :
    let ada : Object := ⟨⟨0⟩, "Person", .text "Ada"⟩
    let v : Managed := .array (.array .object) [.array .object [.object ada], .boolean true]
    let d := Descriptor.function "Rows" "Demo" [] (some (.array (.array .object)))
    let s := MarshalState.empty
    let s' := (encodeResult Converter.defaults d v s).2
    encodeResult Converter.defaults d v s = (.error (.typeMismatch "Object[]" "boolean"), s') ∧
      s'.store.heap.minted ≤ 2 ^ 63 - 1 ∧
      ∃ stored, Broken Converter.defaults v stored ∧ Heap.Adds [] s.store.heap stored s'.store.heap ∧
        (∀ handle, (s'.store.heap.get? handle).isSome ↔
          (s.store.heap.get? handle).isSome ∨ handle ∈ stored.map Prod.fst) ∧
        ((∀ e items, v ≠ .array e items) → stored = []) := by
  intro ada v d s s'
  have hencode : encodeResult Converter.defaults d v s = encode Converter.defaults v s := rfl
  have hanswer : (encodeResult Converter.defaults d v s).1 =
      .error (.typeMismatch "Object[]" "boolean") := by
    rw [hencode]
    simp only [v, s]
    cbv
  have hrun : encodeResult Converter.defaults d v s =
      (.error (.typeMismatch "Object[]" "boolean"), s') := Prod.ext hanswer rfl
  have hroom : s'.store.heap.minted ≤ 2 ^ 63 - 1 := by
    simp only [s', hencode]
    simp only [v, s]
    cbv
  exact ⟨hrun, hroom, encodeResult_error_adds Registry.builtIn_defaults (.start 0)
    (Memo.truthful_empty _) hrun hroom⟩

/-- The callable leaves an empty heap, the host is shown an error, and then the object can be found
under a handle that nobody was told of. -/
theorem encodeResult_error_live :
    let ada : Object := ⟨⟨0⟩, "Person", .text "Ada"⟩
    let v : Managed := .array (.array .object) [.array .object [.object ada], .boolean true]
    let rows : Export :=
      ⟨⟨1⟩, .function "Rows" "Demo" [] (some (.array (.array .object))), fun _ => .done v⟩
    let b : Bridge := ⟨{}, Converter.defaults, .empty⟩
    let nested : Nested := fun _ _ _ => none
    (∀ frame s, (rows.callable frame).run b.registry nested s = some (.ok v, s)) ∧
      MarshalState.empty.store.heap.get? ⟨1⟩ = none ∧
      (b.runExport nested rows [] .empty).map (fun p => (p.1, p.2.store.heap.get? ⟨1⟩)) =
        some (.error .value, some ada) := by
  refine ⟨fun _ _ => rfl, rfl, ?_⟩
  cbv

end Gridcall
