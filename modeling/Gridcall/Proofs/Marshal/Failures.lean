import Gridcall.Proofs.Marshal.LastConverter

/-!
# How decoding fails

* `CallError.isCount` : the failure that the number of arguments is wrong;
* `FailsIn P act` : wherever it starts, `act` fails with failures in `P` only;
* `Registry.NeverCounts` : no converter from outside fails for the number of arguments;
* `failsIn_decode` : then decoding does not either.
-/

namespace Gridcall

variable {α β : Type} {r : Registry} {heap : Heap} {e : CallError}

/-- Whether a failure is that the number of arguments is wrong. -/
def CallError.isCount : CallError → Bool
  | argumentCount _ _ => true
  | _ => false

def FailsIn (P : CallError → Prop) (act : MarshalM α) : Prop :=
  ∀ s e s', act s = (.error e, s') → P e

namespace FailsIn

variable {P : CallError → Prop} {act : MarshalM α}

theorem pure (a : α) : FailsIn P (Pure.pure a : MarshalM α) := by
  rintro s e s' h
  cases h

theorem throw (he : P e) : FailsIn P (MonadExcept.throw e : MarshalM α) := by
  rintro s e' s' h
  cases h
  exact he

/-- What follows may use that it follows an answer. -/
theorem bind {k : α → MarshalM β} (hact : FailsIn P act)
    (hk : ∀ s a s', act s = (.ok a, s') → FailsIn P (k a)) : FailsIn P (act >>= k) := by
  rintro s e s' h
  rcases bind_eq_error_iff.mp h with h | ⟨a, s₁, hrun, h⟩
  · exact hact s e s' h
  · exact hk s a s₁ hrun s₁ e s' h

theorem map (f : α → β) (hact : FailsIn P act) : FailsIn P (act >>= fun a => Pure.pure (f a)) :=
  hact.bind fun _ _ _ _ => pure _

theorem mapM {f : α → MarshalM β} {as : List α} (hf : ∀ a ∈ as, FailsIn P (f a)) :
    FailsIn P (as.mapM f) := by
  rintro s e s' h
  obtain ⟨before, a, after, -, s₁, rfl, -, hfail⟩ := mapM_eq_error_iff.mp h
  exact hf a (List.mem_append_right _ List.mem_cons_self) s₁ e s' hfail

end FailsIn

/-! ## Converters -/

/-- No converter from outside fails for the number of arguments. -/
def Registry.NeverCounts (r : Registry) : Prop :=
  ∀ c, .client c ∈ r → ∀ required v, FailsIn (fun e => e.isCount = false) (r.outside.decoding c required v)

theorem isCount_of_narrow {target : ManagedType} {x : Double} (h : narrow target x = .error e) :
    e.isCount = false := by
  unfold narrow at h
  split at h
  · cases h
  · cases h
  · unfold narrowDouble at h
    split at h
    · cases h
      rfl
    · split at h
      · cases h
      · split at h
        · cases h
        · cases h
          rfl
  · cases h
    rfl

theorem isCount_of_readNumber {target : ManagedType} {text : String}
    (h : readNumber target text = .error e) : e.isCount = false := by
  unfold readNumber at h
  dsimp only at h
  split at h
  · unfold narrowInteger at h
    split at h
    · cases h
    · cases h
      rfl
  · split at h
    · exact isCount_of_narrow h
    · cases h
      rfl

theorem isCount_of_readSingle? {required : Option ManagedType} {v : HostValue} {c : Converter}
    (h : readSingle? heap required v c = some (.error e)) : e.isCount = false := by
  cases c with
  | number type =>
    replace h := Option.some.inj h
    cases v with
    | number x => exact isCount_of_narrow h
    | _ =>
      cases h
      rfl
  | numericText type =>
    replace h := Option.some.inj h
    cases v with
    | string s => exact isCount_of_readNumber h
    | _ =>
      cases h
      rfl
  | char =>
    replace h := Option.some.inj h
    cases v with
    | string s =>
      replace h : decodeChar s = .error e := h
      unfold decodeChar at h
      split at h
      · cases h
      · cases h
        rfl
    | _ =>
      cases h
      rfl
  | object =>
    replace h := Option.some.inj h
    unfold objectBehind at h
    split at h
    · cases h
      rfl
    · split at h
      · cases h
        rfl
      · split at h
        · split at h
          · cases h
          · cases h
            rfl
        · cases h
  | _ =>
    cases v <;> cases h
    all_goals rfl

theorem failsIn_decoderFor (host : HostType) (required : ManagedType) :
    FailsIn (fun e => e.isCount = false) (decoderFor r host required) := by
  rintro s e s' h
  rw [decoderFor_run] at h
  split at h
  · cases h
  · cases h
    rfl

theorem failsIn_single {c : Converter} {required : Option ManagedType} {v : HostValue}
    {f : Heap → Except CallError Managed} (h : ∀ heap, readSingle? heap required v c = some (f heap)) :
    FailsIn (fun e => e.isCount = false) (decodeUsing r c required v) := by
  rw [decodeUsing, Outside.decodeUsing_single h]
  rintro s e s' hrun
  have herror : f s.store.heap = .error e := congrArg Prod.fst hrun
  exact isCount_of_readSingle? ((h s.store.heap).trans (congrArg some herror))

section Decode

variable (hr : r.NeverCounts)

include hr

/-- Grids by induction on the size of the value. -/
theorem failsIn_decodeUsing {c : Converter} (hc : c ∈ r) (required : Option ManagedType)
    (v : HostValue) : FailsIn (fun e => e.isCount = false) (decodeUsing r c required v) := by
  induction hsize : sizeOf v using Nat.strongRecOn generalizing c required v with
  | ind size ih =>
    have hcells : ∀ grid, v = .array grid → ∀ element, ∀ cell ∈ grid.cells,
        FailsIn (fun e => e.isCount = false) (decodeAlone r element cell) := by
      rintro grid rfl element cell hcell
      have hlt := HostValue.sizeOf_lt_of_mem_cells hcell
      unfold decodeAlone
      split
      · exact .pure _
      · refine (failsIn_decoderFor _ _).bind fun s c s' hlookup => ?_
        exact ih _ (by omega) (mem_of_decoderFor hlookup) _ cell rfl
    cases c with
    | client c =>
      rw [decodeUsing, Outside.decodeUsing]
      exact hr c hc required v
    | array element =>
      cases v with
      | array grid =>
        rw [decodeUsing_array_eq_alone]
        refine (FailsIn.mapM fun cell hcell => ?_).map _
        exact hcells grid rfl element cell (Grid.mem_cells_of_mem_vector hcell)
      | _ =>
        rw [decodeUsing, Outside.decodeUsing_array_of_ne (by simp)]
        exact .throw rfl
    | table element priority =>
      cases v with
      | array grid =>
        rw [decodeUsing_table_eq_alone]
        refine (FailsIn.mapM fun row hrow => (FailsIn.mapM fun cell hcell => ?_).map _).map _
        exact hcells grid rfl element cell (Grid.mem_cells_of_mem_toRows hrow hcell)
      | _ =>
        rw [decodeUsing, Outside.decodeUsing_table_of_ne (by simp)]
        exact .throw rfl
    | _ => exact failsIn_single fun _ => rfl

theorem failsIn_decode (v : HostValue) (required : ManagedType) :
    FailsIn (fun e => e.isCount = false) (decode r v required) := by
  refine (failsIn_decoderFor _ _).bind fun s c s' hlookup => ?_
  exact failsIn_decodeUsing hr (mem_of_decoderFor hlookup) _ v

end Decode

theorem Registry.BuiltIn.neverCounts (hr : r.BuiltIn) : r.NeverCounts := by
  rintro c hc
  cases hr (.client c) hc

end Gridcall
