import Gridcall.Proofs.Marshal.Cells
import Gridcall.Proofs.Marshal.OneByOne
import Gridcall.Proofs.Marshal.Steps

/-!
# The converter of the cell before

A grid is decoded with one converter in hand: the one of the cell before, which is used again if the
next cell is of the same kind. This saves look-ups and changes nothing, whatever the registry is: what
was looked up once is remembered from then on, so a look-up would give that converter again, and would
leave no trace.

* `decodeAlone` : a cell as if it stood alone, with a look-up of its own;
* `Keeps s s'` : from `s` to `s'` nothing that was remembered is forgotten or changed
  (`keeps_decodeUsing`);
* `Ready r element last s` : a look-up for a cell of the kind in hand gives the converter in hand at once,
  the invariant of `decodeCells`; `decodeCells_bind` is the row and `decodeRows_run` the whole grid;
* `decodeUsing_cells_alone` : arrays and tables are decoded cell by cell, each as if it stood alone.
-/

namespace Gridcall

open Relation (ReflTransGen)

variable {r : Registry} {element : ManagedType} {s s' s'' : MarshalState}

/-- Decodes a cell as if it stood alone: a grid is handed over as it is, unless the items are arrays
themselves, and for any other cell a converter is looked up. -/
def decodeAlone (r : Registry) (element : ManagedType) (cell : HostValue) : MarshalM Managed :=
  if keptRaw element cell then return .value cell else decode r cell element

theorem decodeAlone_of_raw {cell : HostValue} (h : keptRaw element cell = true) :
    decodeAlone r element cell = pure (.value cell) := by
  rw [decodeAlone, if_pos h]

theorem decode_eq_bind (v : HostValue) (required : ManagedType) : decode r v required =
    (decoderFor r v.hostType required >>= fun c => decodeUsing r c (some required) v) := rfl

theorem decodeAlone_of_not_raw {cell : HostValue} (h : keptRaw element cell = false) :
    decodeAlone r element cell = decode r cell element := by
  rw [decodeAlone, h]
  exact if_neg Bool.false_ne_true

def decodeRowAlone (r : Registry) (element : ManagedType) (row : List HostValue) :
    MarshalM Managed := do
  return .array element (← row.mapM (decodeAlone r element))

theorem decoderFor_run (host : HostType) (s : MarshalState) :
    decoderFor r host element s = match resolve r (.decoding host element) s with
      | (some found, s') => (.ok found.converter, s')
      | (none, s') => (.error (.noConverter host.text element.text), s') := by
  unfold decoderFor resolveOr
  rw [bind_assoc, bind_of_ok (liftM_resolve_run _ s)]
  obtain ⟨found, s'⟩ := resolve r (.decoding host element) s
  cases found <;> rfl

theorem mem_of_decoderFor {host : HostType} {c : Converter}
    (h : decoderFor r host element s = (.ok c, s')) : c ∈ r := by
  rw [decoderFor_run] at h
  obtain ⟨found, s₁, hresolve⟩ : ∃ found s₁, resolve r (.decoding host element) s = (found, s₁) :=
    ⟨_, _, rfl⟩
  rw [hresolve] at h
  cases found with
  | none => cases h
  | some found =>
    cases h
    exact mem_of_resolve (congrArg Prod.fst hresolve)

/-- A cell that stands alone: what is looked up for its kind decodes it, if there is something. -/
theorem decodeAlone_run (cell : HostValue) (s : MarshalState) :
    decodeAlone r element cell s = if keptRaw element cell then (.ok (.value cell), s)
      else match resolve r (.decoding cell.hostType element) s with
        | (some found, s') => decodeUsing r found.converter (some element) cell s'
        | (none, s') => (.error (.noConverter cell.hostType.text element.text), s') := by
  cases hraw : keptRaw element cell with
  | true =>
    rw [decodeAlone_of_raw hraw]
    rfl
  | false =>
    have hlookup : decoderFor r cell.hostType element s = _ := decoderFor_run _ s
    rw [decodeAlone_of_not_raw hraw, decode_eq_bind, if_neg Bool.false_ne_true]
    generalize resolve r (.decoding cell.hostType element) s = looked at hlookup ⊢
    obtain ⟨found, s'⟩ := looked
    cases found with
    | some found => rw [bind_of_ok hlookup]
    | none => rw [bind_of_error hlookup]

/-! ## What is remembered stays -/

/-- What is remembered in `s` is remembered in `s'`. -/
def Keeps (s s' : MarshalState) : Prop :=
  ∀ m answer, s.memo.find? m = some answer → s'.memo.find? m = some answer

theorem Keeps.refl (s : MarshalState) : Keeps s s := fun _ _ h => h

theorem Keeps.trans (h : Keeps s s') (h' : Keeps s' s'') : Keeps s s'' :=
  fun m answer hm => h' m answer (h m answer hm)

theorem keeps_of_steps (h : ReflTransGen Keeps s s') : Keeps s s' := by
  induction h with
  | refl => exact .refl s
  | tail _ hstep ih => exact ih.trans hstep

/-- Only a mapping that is not remembered yet is scanned for. -/
theorem keeps_resolve (m : Mapping) (s : MarshalState) : Keeps s (resolve r m s).2 := by
  intro m' answer hm'
  unfold resolve
  cases hfind : s.memo.find? m with
  | some found => exact hm'
  | none =>
    have hne : m' ≠ m := by
      rintro rfl
      rw [hfind] at hm'
      cases hm'
    have hremembered := Memo.find?_remember s.memo m m' ((r.scan m).map Registered.index)
    rw [if_neg hne, hm'] at hremembered
    exact hremembered

/-- Nothing is ever forgotten, whatever converters from outside ask for. -/
theorem conversionSteps_keeps (r : Registry) : ConversionSteps r Keeps where
  look := keeps_resolve
  create _ _ := Keeps.refl
  mint _ := Keeps.refl
  release _ := Keeps.refl

theorem keeps_decodeUsing (c : Converter) (required : Option ManagedType) (v : HostValue)
    (s : MarshalState) : Keeps s (decodeUsing r c required v s).2 :=
  keeps_of_steps (moves_decodeUsing (conversionSteps_keeps r) c required v s)

/-! ## The converter in hand -/

/-- If there is a converter in hand, a look-up for its kind of cells gives it at once. -/
def Ready (r : Registry) (element : ManagedType) (last : Option (HostType × Converter))
    (s : MarshalState) : Prop :=
  ∀ host c, last = some (host, c) → ∃ answer, s.memo.find? (.decoding host element) = some answer ∧
    (answer.bind r.at?).map Registered.converter = some c

theorem ready_none (s : MarshalState) : Ready r element none s := by
  rintro host c ⟨⟩

theorem Ready.mono {last : Option (HostType × Converter)} (h : Ready r element last s)
    (hkeeps : Keeps s s') : Ready r element last s' := by
  intro host c hlast
  obtain ⟨answer, hfind, hanswer⟩ := h host c hlast
  exact ⟨answer, hkeeps _ _ hfind, hanswer⟩

/-- The converter in hand is the one that a look-up gives, and the look-up leaves no trace. -/
theorem Ready.decoderFor_eq {last : Option (HostType × Converter)} (h : Ready r element last s)
    {host seen : HostType} {c : Converter}
    (hfilter : last.filter (fun l => l.1 == host) = some (seen, c)) :
    decoderFor r host element s = (.ok c, s) := by
  obtain ⟨hlast, hhost⟩ := Option.filter_eq_some_iff.mp hfilter
  obtain rfl : seen = host := beq_iff_eq.mp hhost
  obtain ⟨answer, hfind, hanswer⟩ := h seen c hlast
  obtain ⟨found, hfound, rfl⟩ := Option.map_eq_some_iff.mp hanswer
  have hresolve : resolve r (.decoding seen element) s = (some found, s) := by
    unfold resolve
    rw [hfind, ← hfound]
  rw [decoderFor_run, hresolve]

theorem ready_of_decoderFor {host : HostType} {c : Converter}
    (h : decoderFor r host element s = (.ok c, s')) : Ready r element (some (host, c)) s' := by
  rw [decoderFor_run] at h
  obtain ⟨found, s₁, hresolve⟩ : ∃ found s₁, resolve r (.decoding host element) s = (found, s₁) :=
    ⟨_, _, rfl⟩
  rw [hresolve] at h
  cases found with
  | none => cases h
  | some found =>
    obtain ⟨⟨⟩, rfl⟩ := Prod.mk.inj h
    rintro _ _ ⟨⟩
    unfold resolve at hresolve
    cases hfind : s.memo.find? (.decoding host element) with
    | some answer =>
      rw [hfind] at hresolve
      obtain ⟨hanswer, rfl⟩ := Prod.mk.inj hresolve
      exact ⟨answer, hfind, congrArg (Option.map Registered.converter) hanswer⟩
    | none =>
      rw [hfind] at hresolve
      obtain ⟨hscan, rfl⟩ := Prod.mk.inj hresolve
      refine ⟨(r.scan (.decoding host element)).map Registered.index, ?_, ?_⟩
      · exact (Memo.find?_remember _ _ _ _).trans (if_pos rfl)
      · rw [Registry.at?_scan, hscan]
        rfl

/-! ## Cells and rows -/

section Grid

variable {α : Type} {last : Option (HostType × Converter)}

/-- The cells of a row are decoded each as if it stood alone, whatever is done with the items then. -/
theorem decodeCells_bind (hready : Ready r element last s) (cells : List HostValue)
    {k : List Managed × Option (HostType × Converter) → MarshalM α} {k' : List Managed → MarshalM α}
    (hk : ∀ items last s, Ready r element last s → k (items, last) s = k' items s) :
    (decodeCells r element cells last (fun c cell _ => decodeUsing r c (some element) cell) >>= k) s =
      (cells.mapM (decodeAlone r element) >>= k') s := by
  induction cells generalizing last s k k' with
  | nil =>
    rw [List.mapM_nil, pure_bind, decodeCells, pure_bind]
    exact hk [] last s hready
  | cons cell cells ih =>
    have hnext : ∀ c s, Ready r element (some (cell.hostType, c)) s →
        (decodeUsing r c (some element) cell >>= fun item =>
          decodeCells r element cells (some (cell.hostType, c))
            (fun c cell _ => decodeUsing r c (some element) cell) >>= fun p =>
              k (item :: p.1, p.2)) s =
        (decodeUsing r c (some element) cell >>= fun item =>
          cells.mapM (decodeAlone r element) >>= fun items => k' (item :: items)) s := by
      intro c s hready
      refine bind_congr_run rfl fun item s' hrun => ?_
      have hkeeps := keeps_decodeUsing (r := r) c (some element) cell s
      rw [hrun] at hkeeps
      exact ih (hready.mono hkeeps) fun items last s hready => hk _ _ _ hready
    simp only [List.mapM_cons, decodeCells, decodeAlone, bind_assoc, pure_bind]
    by_cases hraw : keptRaw element cell
    · have hraw' := hraw
      unfold keptRaw at hraw'
      simp only [hraw, hraw', if_true, bind_assoc, pure_bind]
      exact ih hready fun items last s hready => hk _ _ _ hready
    · have hraw' := hraw
      unfold keptRaw at hraw'
      simp only [hraw, hraw', Bool.false_eq_true, if_false, decode_eq_bind, bind_assoc]
      cases hfilter : last.filter fun l => l.1 == cell.hostType with
      | some l =>
        have hlookup := hready.decoderFor_eq hfilter
        simp only [bind_assoc, pure_bind]
        rw [bind_of_ok hlookup]
        exact hnext l.2 s (ready_of_decoderFor hlookup)
      | none =>
        simp only [bind_assoc, pure_bind]
        exact bind_congr_run rfl fun c s' hlookup => hnext c s' (ready_of_decoderFor hlookup)

theorem decodeRows_run (hready : Ready r element last s) (rows : List (List HostValue)) :
    decodeRows r element rows last (fun c cell _ => decodeUsing r c (some element) cell) s =
      rows.mapM (decodeRowAlone r element) s := by
  induction rows generalizing last s with
  | nil => rfl
  | cons row rows ih =>
    simp only [List.mapM_cons, decodeRows, decodeRowAlone, bind_assoc, pure_bind]
    refine decodeCells_bind hready row fun items last s hready => ?_
    exact bind_congr_run (ih hready) fun _ _ _ => rfl

end Grid

/-! ## Grids -/

variable {required : Option ManagedType} {priority : Int} {grid : HostGrid}

theorem decodeUsing_array_eq_alone : decodeUsing r (.array element) required (.array grid) =
    (do return .array element (← grid.vector.mapM (decodeAlone r element))) := by
  funext s
  rw [decodeUsing, Outside.decodeUsing]
  exact decodeCells_bind (ready_none s) grid.vector fun _ _ _ _ => rfl

theorem decodeUsing_table_eq_alone : decodeUsing r (.table element priority) required (.array grid) =
    (do return .array (.array element) (← grid.toRows.mapM (decodeRowAlone r element))) := by
  funext s
  rw [decodeUsing, Outside.decodeUsing]
  exact bind_congr_run (decodeRows_run (ready_none s) grid.toRows) fun _ _ _ => rfl

theorem mapM_decodeRowAlone_eq_error_iff {rows : List (List HostValue)} {e : CallError} :
    rows.mapM (decodeRowAlone r element) s = (.error e, s') ↔
      rows.flatten.mapM (decodeAlone r element) s = (.error e, s') := by
  have hitems : rows.mapM (decodeRowAlone r element) =
      (do return (← rows.mapM fun row => row.mapM (decodeAlone r element)).map (.array element)) := by
    induction rows with
    | nil => rfl
    | cons row rows ih =>
      simp only [List.mapM_cons, ih, decodeRowAlone, bind_assoc, pure_bind, List.map_cons]
  rw [hitems, mapM_flatten, map_eq_error_iff, map_eq_error_iff]

variable (r element required priority grid)

/-- **Decoding with the converter of the cell before is decoding each cell as if it stood alone.** For
any registry, a grid is decoded into an array from the cells of its vector and into an array of arrays
from its rows, where each cell is taken on its own, in that order: a grid in it is handed over as it is
unless the items are arrays, and for any other cell a converter is looked up for its own kind. If a cell
fails, the first to do so gives the error, in the state that those before it left. -/
theorem decodeUsing_cells_alone :
    (∀ cell s, decodeAlone r element cell s = if keptRaw element cell then (.ok (.value cell), s)
      else match resolve r (.decoding cell.hostType element) s with
        | (some found, s') => decodeUsing r found.converter (some element) cell s'
        | (none, s') => (.error (.noConverter cell.hostType.text element.text), s')) ∧
      decodeUsing r (.array element) required (.array grid) =
        (do return .array element (← grid.vector.mapM (decodeAlone r element))) ∧
      decodeUsing r (.table element priority) required (.array grid) =
        (do return .array (.array element) (← grid.toRows.mapM (decodeRowAlone r element))) ∧
      ∀ s e s',
        (decodeUsing r (.array element) required (.array grid) s = (.error e, s') ↔
          FirstFails (decodeAlone r element) grid.vector s e s') ∧
        (decodeUsing r (.table element priority) required (.array grid) s = (.error e, s') ↔
          FirstFails (decodeAlone r element) grid.toRows.flatten s e s') := by
  refine ⟨decodeAlone_run, decodeUsing_array_eq_alone, decodeUsing_table_eq_alone,
    fun s e s' => ⟨?_, ?_⟩⟩
  · rw [decodeUsing_array_eq_alone, map_eq_error_iff, mapM_eq_error_iff]
  · rw [decodeUsing_table_eq_alone, map_eq_error_iff, mapM_decodeRowAlone_eq_error_iff,
      mapM_eq_error_iff]

end Gridcall
