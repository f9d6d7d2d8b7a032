import Gridcall.Proofs.Marshal.OnHeap

/-!
# Conversions step by step

A conversion moves the state by look-ups of converters, and by changes of the heap for which requests are
made. Nothing else happens, so a fact that each of these steps keeps is kept by the whole conversion.

* `MarshalM.Moves R act` : wherever it starts, `act` moves the state by steps of `R`;
* `ConversionSteps r R` : the steps of `R` suffice for conversions with the registry `r`, whatever its
  converters from outside ask for;
* `moves_decodeUsing`, `moves_encodeUsing`, `moves_request` : each conversion is made of its steps;
* `MarshalState.callees` : the callables that were entered. `Quiet` says that none was entered in
  between, `Still` that the heap stayed as it was as well;
* `conversionSteps_quiet`, `still_decode` : no conversion enters a callable, and decoding with the
  converters of the library leaves the heap alone.
-/

namespace Gridcall

open Relation (ReflTransGen)

variable {α : Type} {r : Registry} {R : MarshalState → MarshalState → Prop}

/-- Wherever it starts, `act` moves the state by steps of `R`. -/
def MarshalM.Moves (R : MarshalState → MarshalState → Prop) (act : MarshalM α) : Prop :=
  ∀ s, ReflTransGen R s (act s).2

theorem composes_marshalMoves : MarshalM.Composes fun _ => MarshalM.Moves R where
  read f s := .refl
  bind {_ _ act k} hact hk s := by
    obtain ⟨answer, s₁, hrun⟩ : ∃ answer s₁, act s = (answer, s₁) := ⟨_, _, rfl⟩
    have hfirst := hact s
    rw [hrun] at hfirst
    cases answer with
    | ok a =>
      rw [bind_of_ok hrun]
      exact hfirst.trans (hk s a s₁ hrun s₁)
    | error e =>
      rw [bind_of_error hrun]
      exact hfirst

/-! ## The steps of a conversion -/

/-- The steps of `R` suffice for conversions: looking a converter up, making an object, giving out a
handle, and releasing one. -/
structure ConversionSteps (r : Registry) (R : MarshalState → MarshalState → Prop) : Prop where
  look : ∀ m s, R s (resolve r m s).2
  create : ∀ className contents (s : MarshalState),
    R s { s with store := (s.store.create className contents).2 }
  mint : ∀ o (s : MarshalState), R s { s with store := (s.store.mint o).2 }
  release : ∀ handle (s : MarshalState), R s { s with store := (s.store.release handle).2 }

section Steps

variable (hR : ConversionSteps r R)

include hR

theorem moves_mintValue (v : Managed) : MarshalM.Moves R (mintValue v) := by
  intro s
  have hboxed : ReflTransGen R s
      { s with store := ((s.store.create v.typeName (.boxed v)).2.mint
        (s.store.create v.typeName (.boxed v)).1).2 } :=
    .tail (.single (hR.create v.typeName (.boxed v) s))
      (hR.mint _ { s with store := (s.store.create v.typeName (.boxed v)).2 })
  cases v with
  | object o => exact .single (hR.mint o s)
  | _ => exact hboxed

/-- No answer needs any other step, whatever is asked for. -/
theorem converses_marshalMoves : Converses (fun _ => MarshalM.Moves R) r fun _ => True where
  toComposes := composes_marshalMoves
  look m s := .single (hR.look m s)
  mint := moves_mintValue hR
  capture h := h
  answer o request _ hnested := by
    cases request with
    | create className contents => exact fun s => .single (hR.create className contents s)
    | mint object => exact fun s => .single (hR.mint object s)
    | release handle => exact fun s => .single (hR.release handle s)
    | decoder host required => exact fun s => .single (hR.look _ s)
    | encoder runtime => exact fun s => .single (hR.look _ s)
    | lookup | heapStats | converters | accepts | registryStats => exact fun s => .refl
    | decode | encode | decodeAt | encodeAt => cases hnested

omit hR in
/-- Any requests will do. -/
theorem Converter.meets_only_true (c : Converter) :
    c.Meets (ClientConverter.Only fun _ => True) := by
  cases c with
  | client c => exact ⟨fun _ _ => Dialogue.only_true _, fun _ _ => Dialogue.only_true _⟩
  | _ => exact trivial

theorem ConversionSteps.decodes :
    Decodes (fun _ => MarshalM.Moves R) r r.outside (ClientConverter.Only fun _ => True) :=
  (converses_marshalMoves hR).decodes fun c _ => c.meets_only_true

theorem ConversionSteps.encodes :
    Encodes (fun _ => MarshalM.Moves R) r r.outside (ClientConverter.Only fun _ => True) :=
  (converses_marshalMoves hR).encodes fun c _ => c.meets_only_true

theorem moves_decodeUsing (c : Converter) (required : Option ManagedType) (v : HostValue) :
    MarshalM.Moves R (decodeUsing r c required v) := hR.decodes.decodeUsing c.meets_only_true required v

theorem moves_encodeUsing (c : Converter) (wanted : Option HostType) (v : Managed) :
    MarshalM.Moves R (encodeUsing r c wanted v) := hR.encodes.encodeUsing c.meets_only_true wanted v

theorem moves_encode (v : Managed) : MarshalM.Moves R (encode r v) := hR.encodes.encode v

theorem moves_request (request : Conversion.Request) :
    MarshalM.Moves R (liftM (request.answer r r.outside)) :=
  (converses_marshalMoves hR).answers hR.decodes hR.encodes trivial

end Steps

/-! ## Callables are not entered -/

/-- The callables that were entered, the latest first, each with its receiver and its arguments. -/
def MarshalState.callees (s : MarshalState) : List (String × Option Object × List Managed) :=
  s.store.journal.filterMap Event.callee?

/-- From `s` to `s'` no callable was entered. -/
def Quiet (s s' : MarshalState) : Prop := s'.callees = s.callees

/-- From `s` to `s'` no callable was entered, and the heap is as it was. -/
structure Still (s s' : MarshalState) : Prop where
  heap : s'.store.heap = s.store.heap
  quiet : Quiet s s'

variable {s s' s'' : MarshalState}

theorem Quiet.trans (h : Quiet s s') (h' : Quiet s' s'') : Quiet s s'' := Eq.trans h' h

theorem Still.refl (s : MarshalState) : Still s s := ⟨rfl, rfl⟩

theorem Still.trans (h : Still s s') (h' : Still s' s'') : Still s s'' :=
  ⟨h'.heap.trans h.heap, h.quiet.trans h'.quiet⟩

theorem still_note (s : MarshalState) {e : Event} (he : e.callee? = none) : Still s (s.note e) := by
  refine ⟨rfl, ?_⟩
  show (e :: s.store.journal).filterMap Event.callee? = _
  rw [List.filterMap_cons_none he]
  rfl

theorem still_of_steps (h : ReflTransGen Still s s') : Still s s' := by
  induction h with
  | refl => exact .refl s
  | tail _ hstep ih => exact ih.trans hstep

theorem quiet_of_steps (h : ReflTransGen Quiet s s') : Quiet s s' := by
  induction h with
  | refl => exact rfl
  | tail _ hstep ih => exact ih.trans hstep

theorem still_resolve (m : Mapping) (s : MarshalState) : Still s (resolve r m s).2 := by
  unfold resolve
  split
  · exact .refl s
  · obtain ⟨hheap, hquiet⟩ := still_note s (e := .resolved m _) rfl
    exact ⟨hheap, hquiet⟩

theorem quiet_release (handle : Handle) (s : MarshalState) :
    Quiet s { s with store := (s.store.release handle).2 } := by
  unfold Quiet MarshalState.callees Store.release
  split <;> rfl

theorem conversionSteps_quiet (r : Registry) : ConversionSteps r Quiet where
  look m s := (still_resolve m s).quiet
  create _ _ _ := rfl
  mint _ _ := rfl
  release := quiet_release

/-- Without converters from outside, decoding only looks converters up. -/
theorem decodes_still (hr : r.BuiltIn) :
    Decodes (fun _ => MarshalM.Moves Still) r r.outside fun _ => False where
  toComposes := composes_marshalMoves
  look m s := .single (still_resolve m s)
  meets c hc := Converter.meets_of_isBuiltIn (hr c hc)
  decoding _ hc := hc.elim

/-- Decoding leaves the heap as it is, whatever is remembered, and whether it fails or not. -/
theorem still_decode (hr : r.BuiltIn) (v : HostValue) (required : ManagedType) (s : MarshalState) :
    Still s (decode r v required s).2 := still_of_steps ((decodes_still hr).decode v required s)

end Gridcall
