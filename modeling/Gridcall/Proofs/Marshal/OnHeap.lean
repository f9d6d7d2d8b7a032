import Gridcall.Marshal.RoundTrip
import Gridcall.Proofs.Marshal.Composition

/-!
# Conversions on the heap alone

A conversion reads and writes the memo of the registry and notes events, but neither shows in what it
answers or in what it does to the heap. So every conversion can be read as a computation on the heap.

* `HeapM` : computations on the heap alone;
* `Realizes r act plain` : from any truthful memo and any journal, `act` answers and changes the heap
  like `plain`, and the memo stays truthful;
* `onHeap act` : what `act` does from an empty memo and an empty journal. `Oblivious r act` says that
  this is what it always does;
* `Realizes.bind` : the relation is kept by composition;
* `realizes_resolve`, `realizes_decoderFor` : look-ups through the memo are look-ups without it;
* `Registry.Blind` : no converter from outside asks for the counters of the registry. In a registry that
  is `Registry.BuiltIn` there is none from outside;
* `oblivious_decode`, `oblivious_encode` : then conversions are oblivious.
-/

namespace Gridcall

variable {α β : Type} {r : Registry}

abbrev HeapM := ExceptT CallError (StateM Heap)

/-- What a computation does to a heap when nothing was remembered or noted before. -/
def onHeap (act : MarshalM α) : HeapM α := fun heap =>
  let (result, s) := act ⟨⟨heap, []⟩, .empty⟩
  (result, s.store.heap)

/-- A conversion that answers and changes nothing. -/
theorem onHeap_eq_pure {act : MarshalM α} {a : α} (h : ∀ s, act s = (.ok a, s)) :
    onHeap act = pure a := by
  funext heap
  unfold onHeap
  rw [h]
  rfl

/-- From any truthful memo and any journal, `act` answers and changes the heap like `plain`, and the
memo stays truthful. -/
def Realizes (r : Registry) (act : MarshalM α) (plain : HeapM α) : Prop :=
  ∀ s : MarshalState, s.memo.Truthful r → ∃ s' : MarshalState,
    act s = ((plain s.store.heap).1, s') ∧ s'.store.heap = (plain s.store.heap).2 ∧
      s'.memo.Truthful r

/-- Neither the journal nor what is remembered makes a difference to `act`. -/
def Oblivious (r : Registry) (act : MarshalM α) : Prop := Realizes r act (onHeap act)

/-! ## Composition -/

namespace Realizes

variable {act : MarshalM α} {plain : HeapM α}

theorem onHeap_eq (h : Realizes r act plain) : onHeap act = plain := by
  funext heap
  obtain ⟨s', hrun, hheap, -⟩ := h ⟨⟨heap, []⟩, .empty⟩ (Memo.truthful_empty r)
  have hunfold : onHeap act heap =
      ((act ⟨⟨heap, []⟩, .empty⟩).1, (act ⟨⟨heap, []⟩, .empty⟩).2.store.heap) := rfl
  rw [hunfold, hrun, hheap]
  rfl

theorem oblivious (h : Realizes r act plain) : Oblivious r act := by
  rw [Oblivious, h.onHeap_eq]
  exact h

theorem pure (a : α) : Realizes r (Pure.pure a) (Pure.pure a) := fun s hs => ⟨s, rfl, rfl, hs⟩

theorem throw (e : CallError) :
    Realizes r (MonadExcept.throw e : MarshalM α) (MonadExcept.throw e : HeapM α) :=
  fun s hs => ⟨s, rfl, rfl, hs⟩

/-- A computation may look at the heap. -/
theorem read (f : Heap → Except CallError α) :
    Realizes r (fun s => (f s.store.heap, s)) (fun heap => (f heap, heap)) :=
  fun s hs => ⟨s, rfl, rfl, hs⟩

/-- What follows an answer may use that it was given. -/
theorem bind_run {k : α → MarshalM β} {plainK : α → HeapM β} (hact : Realizes r act plain)
    (hk : ∀ s a s', s.memo.Truthful r → act s = (.ok a, s') → Realizes r (k a) (plainK a)) :
    Realizes r (act >>= k) (plain >>= plainK) := by
  intro s hs
  obtain ⟨s₁, hrun, hheap, hs₁⟩ := hact s hs
  obtain ⟨answer, heap₁, hplain⟩ : ∃ answer heap₁, plain s.store.heap = (answer, heap₁) := ⟨_, _, rfl⟩
  rw [hplain] at hrun hheap
  obtain rfl : s₁.store.heap = heap₁ := hheap
  cases answer with
  | ok a =>
    rw [bind_of_ok hrun, bind_of_ok hplain]
    exact hk s a s₁ hs hrun s₁ hs₁
  | error e =>
    rw [bind_of_error hrun, bind_of_error hplain]
    exact ⟨s₁, rfl, rfl, hs₁⟩

theorem bind {k : α → MarshalM β} {plainK : α → HeapM β} (hact : Realizes r act plain)
    (hk : ∀ a, Realizes r (k a) (plainK a)) : Realizes r (act >>= k) (plain >>= plainK) :=
  hact.bind_run fun _ a _ _ _ => hk a

theorem bind_lift {e : Except CallError α} {k : α → MarshalM β} {plainK : α → HeapM β}
    (hact : Realizes r act (liftM e)) (hk : ∀ a, e = .ok a → Realizes r (k a) (plainK a)) :
    Realizes r (act >>= k) (liftM e >>= plainK) := by
  refine hact.bind_run fun s a s' hs hrun => hk a ?_
  obtain ⟨s₁, hact, -, -⟩ := hact s hs
  exact (congrArg Prod.fst (hact.symm.trans hrun))

/-- A failure that is kept as a value. -/
theorem capture (h : Realizes r act plain) : Realizes r (liftM act.run) (liftM plain.run) := by
  intro s hs
  obtain ⟨s', hrun, hheap, hs'⟩ := h s hs
  have hkept : (liftM act.run : MarshalM _) s = (.ok (act s).1, (act s).2) := rfl
  rw [hrun] at hkept
  exact ⟨s', hkept, hheap, hs'⟩

end Realizes

/-! ## The pick of the registry -/

theorem realizes_resolve (m : Mapping) :
    Realizes r (liftM (resolve r m)) (pure (r.scan m)) := by
  intro s hs
  obtain ⟨s', hrun, hheap, hs'⟩ := resolve_of_truthful hs m
  refine ⟨s', ?_, hheap, hs'⟩
  rw [liftM_resolve_run, hrun]
  rfl

theorem realizes_decoderFor (host : HostType) (required : ManagedType) :
    Realizes r (decoderFor r host required) (liftM (r.decoder host required)) := by
  have hplain : (liftM (r.decoder host required) : HeapM Converter) =
      (pure (r.scan (.decoding host required)) >>= fun found =>
        found.elim (throw (.noConverter host.text required.text)) fun c => pure c.converter) := by
    rw [pure_bind, Registry.decoder]
    cases r.scan (.decoding host required) <;> rfl
  have hact : decoderFor r host required =
      (liftM (resolve r (.decoding host required)) >>= fun found =>
        found.elim (throw (.noConverter host.text required.text)) fun c => pure c.converter) := by
    simp only [decoderFor, resolveOr, bind_assoc]
    congr 1
    funext found
    cases found <;> rfl
  rw [hplain, hact]
  refine (realizes_resolve _).bind fun found => ?_
  cases found with
  | none => exact .throw _
  | some c => exact .pure _

/-! ## Converters from outside -/

def Conversion.Request.isForCounters : Conversion.Request → Bool
  | registryStats => true
  | _ => false

/-- A converter from outside does not ask for the counters of the registry. -/
def ClientConverter.Blind (c : ClientConverter) : Prop :=
  c.Only fun request => request.isForCounters = false

def Converter.Blind (c : Converter) : Prop := c.Meets ClientConverter.Blind

/-- No converter of the registry asks for its counters. -/
def Registry.Blind (r : Registry) : Prop := ∀ c ∈ r, c.Blind

def Converter.isBuiltIn : Converter → Bool
  | client _ => false
  | _ => true

/-- All converters of the registry are of the library. -/
def Registry.BuiltIn (r : Registry) : Prop := ∀ c ∈ r, c.isBuiltIn

theorem Converter.meets_of_isBuiltIn {K : ClientConverter → Prop} {c : Converter}
    (h : c.isBuiltIn) : c.Meets K := by
  cases c with
  | client c => cases h
  | _ => exact trivial

theorem Registry.BuiltIn.blind (h : r.BuiltIn) : r.Blind := fun c hc =>
  Converter.meets_of_isBuiltIn (h c hc)

theorem Registry.builtIn_defaults : Registry.BuiltIn Converter.defaults := by
  have hall : Converter.defaults.all Converter.isBuiltIn = true := rfl
  exact fun c hc => List.all_eq_true.mp hall c hc

theorem Registry.blind_defaults : Registry.Blind Converter.defaults := Registry.builtIn_defaults.blind

/-! ## Conversions -/

theorem composes_oblivious : MarshalM.Composes fun _ => Oblivious r where
  read f := (Realizes.read f).oblivious
  bind {_ _ act k} hact hk := by
    have hboth : Realizes r (act >>= k) (onHeap act >>= fun a => onHeap (k a)) :=
      hact.bind_run fun s a s' _ hrun => hk s a s' hrun
    exact hboth.oblivious

/-- A change of the store that does not depend on the journal. -/
theorem oblivious_onStore (change : Store → α × Store)
    (h : ∀ heap journal, (change ⟨heap, journal⟩).1 = (change ⟨heap, []⟩).1 ∧
      (change ⟨heap, journal⟩).2.heap = (change ⟨heap, []⟩).2.heap) :
    Oblivious r (liftM (onStore change : StateM MarshalState α)) := by
  intro s hs
  obtain ⟨hanswer, hheap⟩ := h s.store.heap s.store.journal
  have hrun : (liftM (onStore change : StateM MarshalState α) : MarshalM α) s =
      (.ok (change s.store).1, { s with store := (change s.store).2 }) := rfl
  rw [hanswer] at hrun
  exact ⟨_, hrun, hheap, hs⟩

theorem oblivious_mintValue (v : Managed) : Oblivious r (mintValue v) :=
  oblivious_onStore (fun s => s.mintValue v) fun heap journal => by cases v <;> exact ⟨rfl, rfl⟩

/-- No answer shows what is remembered, those aside that tell the counters of the registry. -/
theorem converses_oblivious (r : Registry) :
    Converses (fun _ => Oblivious r) r fun request => request.isForCounters = false where
  toComposes := composes_oblivious
  look m := (realizes_resolve m).oblivious
  mint := oblivious_mintValue
  capture h := (Realizes.capture h).oblivious
  answer o request hrequest hnested := by
    cases request with
    | create className contents =>
      exact oblivious_onStore (fun s => s.create className contents) fun _ _ => ⟨rfl, rfl⟩
    | lookup handle => exact (Realizes.read fun heap => .ok (heap.get? handle)).oblivious
    | mint object => exact oblivious_onStore (fun s => s.mint object) fun _ _ => ⟨rfl, rfl⟩
    | release handle =>
      refine oblivious_onStore (fun s => s.release handle) fun heap journal => ?_
      unfold Store.release
      dsimp only
      split <;> exact ⟨rfl, rfl⟩
    | heapStats => exact (Realizes.read fun heap => .ok heap.stats).oblivious
    | decoder host required => exact composes_oblivious.map (realizes_resolve _).oblivious _
    | encoder runtime => exact composes_oblivious.map (realizes_resolve _).oblivious _
    | converters => exact composes_oblivious.pure _
    | accepts place m => exact composes_oblivious.pure _
    | registryStats => cases hrequest
    | decode | encode | decodeAt | encodeAt => cases hnested

section Blind

variable (hr : r.Blind)

include hr

theorem oblivious_decode (v : HostValue) (required : ManagedType) :
    Oblivious r (decode r v required) :=
  ((converses_oblivious r).decodes hr).decode v required

theorem oblivious_encode (v : Managed) : Oblivious r (encode r v) :=
  ((converses_oblivious r).encodes hr).encode v

theorem oblivious_decodeUsing {c : Converter} (hc : c.Blind) (required : Option ManagedType)
    (v : HostValue) : Oblivious r (decodeUsing r c required v) :=
  ((converses_oblivious r).decodes hr).decodeUsing hc required v

theorem oblivious_encodeUsing {c : Converter} (hc : c.Blind) (wanted : Option HostType)
    (v : Managed) : Oblivious r (encodeUsing r c wanted v) :=
  ((converses_oblivious r).encodes hr).encodeUsing hc wanted v

end Blind

end Gridcall
