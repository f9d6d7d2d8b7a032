import Gridcall.Proofs.Call.Outcomes

/-!
# Calls step by step

Whatever a call does, and whatever the calls do that it makes in turn, it moves the state by the steps
of `Bridge.Step`. What every step keeps is kept by every call.

* `Descriptor.Receives` : the receiver that the arguments of a call demand, on a given heap;
* `prepare_of_some`, `prepare_of_none` : what comes before the callable, one stage after the other;
* `receives_of_prepare` : a callable is entered with the receiver that its arguments demand;
* `Bridge.Step` : looking a converter up, changing the heap, noting an event, and entering a callable;
* `MarshalState.visits` : the exports that were opened and the callables that were entered. `Away` says
  that there were no further ones, as in every conversion (`conversionSteps_away`);
* `CallM.Moves R act` : wherever it starts, `act` moves the state by steps of `R`;
* `moves_call?` : every call is made of steps.
-/

namespace Gridcall

open Relation (ReflTransGen)

variable {α β : Type} {r : Registry} {R : MarshalState → MarshalState → Prop}

/-! ## What comes before the callable -/

/-- For an instance call the first argument is a reference, and its handle finds the receiver, which is
of the declaring class. Other calls have no receiver. -/
def Descriptor.Receives (d : Descriptor) (heap : Heap) (args : List HostValue) :
    Option Object → Prop
  | some o => d.kind = .method ∧ ∃ reference, args.head? = some (.object reference) ∧
      heap.get? reference.handle = some o ∧ o.className = d.declaring
  | none => d.kind ≠ .method

/-- The last stage: the receiver is resolved on the heap as the arguments left it. -/
def Descriptor.frame (d : Descriptor) (args : List HostValue) (decoded : List Managed) :
    MarshalM CallFrame := do
  let receiver ← d.resolveReceiver (← get).store.heap (d.receiverArg? args)
  return { descriptor := d, receiver, args := decoded }

theorem frame_eq (d : Descriptor) (args : List HostValue) (decoded : List Managed) (s : MarshalState) :
    d.frame args decoded s = ((d.resolveReceiver s.store.heap (d.receiverArg? args)).map
      fun receiver => { descriptor := d, receiver, args := decoded }, s) := by
  have hget : d.frame args decoded s = ((liftM (d.resolveReceiver s.store.heap (d.receiverArg? args)) >>=
      fun receiver => pure { descriptor := d, receiver, args := decoded } : MarshalM CallFrame) s) := rfl
  rw [hget]
  cases d.resolveReceiver s.store.heap (d.receiverArg? args) <;> rfl

theorem prepare_of_some {settings : Settings} {d : Descriptor} {args : List HostValue} {err : CallError}
    (h : d.receiverFailure? args = some err) (s : MarshalState) :
    prepare r settings d args s = (.error err, s) := by
  unfold prepare
  rw [splitReceiver_eq, h]
  rfl

theorem prepare_of_none {d : Descriptor} {args : List HostValue} (h : d.receiverFailure? args = none)
    (settings : Settings) (s : MarshalState) :
    prepare r settings d args s = (bindArguments r d (d.ownArgs args) >>= d.frame args)
      (s.note (.decoding d.name (d.ownArgs args) settings.logArguments)) := by
  unfold prepare
  rw [splitReceiver_eq, h]
  rfl

theorem getOfClass?_eq_ok {heap : Heap} {handle : Handle} {className : ClassName} {o : Object}
    (h : heap.getOfClass? handle className = some (.ok o)) :
    heap.get? handle = some o ∧ o.className = className := by
  obtain ⟨found, hfound, hclass⟩ := Option.map_eq_some_iff.mp h
  split at hclass
  · next hname =>
    obtain rfl := Except.ok.inj hclass
    exact ⟨hfound, hname⟩
  · cases hclass

/-- A receiver that resolves is the one that the arguments demand. -/
theorem receives_of_resolveReceiver {d : Descriptor} {heap : Heap} {args : List HostValue}
    {receiver : Option Object} (hfirst : d.receiverFailure? args = none)
    (h : d.resolveReceiver heap (d.receiverArg? args) = .ok receiver) : d.Receives heap args receiver := by
  unfold Descriptor.receiverArg? at h
  unfold Descriptor.receiverFailure? at hfirst
  by_cases hmethod : d.kind = .method
  · rw [if_pos hmethod] at h
    cases args with
    | nil => simp [hmethod] at hfirst
    | cons first rest =>
      rw [List.head?_cons] at h
      cases first with
      | object reference =>
        unfold Descriptor.resolveReceiver at h
        dsimp only at h
        split at h
        · next o hfound =>
          obtain rfl := Except.ok.inj h
          exact ⟨hmethod, reference, rfl, getOfClass?_eq_ok hfound⟩
        · cases h
        · cases h
      | _ => cases h
  · rw [if_neg hmethod] at h
    obtain rfl := Except.ok.inj h
    exact hmethod

/-- A callable is entered with the receiver that the arguments demand, on the heap as it is then. -/
theorem receives_of_prepare {settings : Settings} {d : Descriptor} {args : List HostValue}
    {frame : CallFrame} {s s' : MarshalState} (h : prepare r settings d args s = (.ok frame, s')) :
    d.Receives s'.store.heap args frame.receiver := by
  cases hfirst : d.receiverFailure? args with
  | some err =>
    rw [prepare_of_some hfirst] at h
    cases h
  | none =>
    rw [prepare_of_none hfirst] at h
    obtain ⟨answer, s₁, hbind⟩ : ∃ answer s₁, bindArguments r d (d.ownArgs args)
      (s.note (.decoding d.name (d.ownArgs args) settings.logArguments)) = (answer, s₁) := ⟨_, _, rfl⟩
    cases answer with
    | error err =>
      rw [bind_of_error hbind] at h
      cases h
    | ok decoded =>
      rw [bind_of_ok hbind, frame_eq] at h
      cases hreceiver : d.resolveReceiver s₁.store.heap (d.receiverArg? args) with
      | error err =>
        rw [hreceiver] at h
        cases h
      | ok receiver =>
        rw [hreceiver] at h
        cases h
        exact receives_of_resolveReceiver hfirst hreceiver

/-! ## Conversions before the callable -/

/-- Whatever holds of decoding and of noting what is decoded holds of what comes before the callable. -/
theorem Decodes.prepare {P : ∀ α : Type, MarshalM α → Prop} {K : ClientConverter → Prop}
    (h : Decodes P r r.outside K)
    (hnote : ∀ callable args shown, P _ (modify fun s => s.note (.decoding callable args shown)))
    (settings : Settings) (d : Descriptor) (args : List HostValue) :
    P _ (prepare r settings d args) := by
  have hframe : ∀ decoded, P _ (d.frame args decoded) := by
    intro decoded
    have hread : d.frame args decoded = _ := funext (frame_eq d args decoded)
    rw [hread]
    exact h.read fun heap => (d.resolveReceiver heap (d.receiverArg? args)).map fun receiver =>
      (⟨d, receiver, decoded⟩ : CallFrame)
  unfold Gridcall.prepare
  rw [splitReceiver_eq]
  cases d.receiverFailure? args with
  | some e => exact h.throw e
  | none =>
    have hbound : P _ (Gridcall.bindArguments r d (d.ownArgs args) >>= d.frame args) :=
      h.bind (h.bindArguments d _) fun _ decoded _ _ => hframe decoded
    have hnoted := h.bind (hnote d.name (d.ownArgs args) settings.logArguments) fun _ _ _ _ => hbound
    exact hnoted

theorem moves_prepare (hR : ConversionSteps r R)
    (hnote : ∀ callable args shown s, R s (s.note (.decoding callable args shown)))
    (settings : Settings) (d : Descriptor) (args : List HostValue) :
    MarshalM.Moves R (prepare r settings d args) :=
  hR.decodes.prepare (fun callable args shown s => .single (hnote callable args shown s)) settings d args

theorem moves_encodeResult (hR : ConversionSteps r R) (d : Descriptor) (v : Managed) :
    MarshalM.Moves R (encodeResult r d v) := hR.encodes.encodeResult d v

/-! ## The steps of a call -/

inductive Bridge.Step (b : Bridge) : MarshalState → MarshalState → Prop
  | look (m : Mapping) (s : MarshalState) : Step b s (resolve b.registry m s).2
  | create (className : ClassName) (contents : Contents Managed) (s : MarshalState) :
      Step b s { s with store := (s.store.create className contents).2 }
  | mint (o : Object) (s : MarshalState) : Step b s { s with store := (s.store.mint o).2 }
  | release (handle : Handle) (s : MarshalState) :
      Step b s { s with store := (s.store.release handle).2 }
  | note (event : Event) (h : event.callee? = none) (s : MarshalState) : Step b s (s.note event)
  /-- A callable is entered, with the receiver that the arguments of its call demand. -/
  | enter (e : Export) (he : e ∈ b.exports.table) (args : List HostValue) (frame : CallFrame)
      (s : MarshalState)
      (hreceiver : e.descriptor.Receives s.store.heap (coerceHandles b.settings args) frame.receiver) :
      Step b s (s.note (frame.entry e.descriptor))

theorem Bridge.conversionSteps (b : Bridge) : ConversionSteps b.registry b.Step where
  look := .look
  create := .create
  mint := .mint
  release := .release

/-! ## Conversions stay away from callables -/

/-- What a call does about callables: an export is opened by its number, and a callable is entered with
its receiver and its arguments. -/
inductive Visit where
  | opened (id : ExportId)
  | entered (callable : String) (receiver : Option Object) (args : List Managed)

/-- The callable that was entered, with its receiver and its arguments. -/
def Visit.callee? : Visit → Option (String × Option Object × List Managed)
  | entered callable receiver args => some (callable, receiver, args)
  | opened _ => none

def Event.visit? : Event → Option Visit
  | opened id _ => some (.opened id)
  | entered callable receiver args => some (.entered callable receiver args)
  | _ => none

def MarshalState.visits (s : MarshalState) : List Visit := s.store.journal.filterMap Event.visit?

/-- From `s` to `s'` nothing was done about callables. -/
def Away (s s' : MarshalState) : Prop := s'.visits = s.visits

theorem callees_eq (s : MarshalState) : s.callees = s.visits.filterMap Visit.callee? := by
  unfold MarshalState.callees MarshalState.visits
  rw [List.filterMap_filterMap]
  congr 1
  funext e
  cases e <;> rfl

theorem Away.quiet {s s' : MarshalState} (h : Away s s') : Quiet s s' := by
  unfold Quiet
  rw [callees_eq, callees_eq, h]

theorem away_of_steps {s s' : MarshalState} (h : ReflTransGen Away s s') : Away s s' := by
  induction h with
  | refl => exact rfl
  | tail _ hstep ih => exact Eq.trans hstep ih

theorem away_note {e : Event} (he : e.visit? = none) (s : MarshalState) : Away s (s.note e) :=
  List.filterMap_cons_none he

theorem away_resolve (m : Mapping) (s : MarshalState) : Away s (resolve r m s).2 := by
  unfold resolve
  split
  · exact rfl
  · exact List.filterMap_cons_none rfl

theorem away_release (handle : Handle) (s : MarshalState) :
    Away s { s with store := (s.store.release handle).2 } := by
  unfold Away MarshalState.visits Store.release
  split <;> rfl

theorem conversionSteps_away (r : Registry) : ConversionSteps r Away where
  look := away_resolve
  create _ _ _ := rfl
  mint _ _ := rfl
  release := away_release

/-! ## Computations of calls -/

/-- Wherever it starts, `act` moves the state by steps of `R`, if it has an outcome. -/
def CallM.Moves (R : MarshalState → MarshalState → Prop) (act : CallM α) : Prop :=
  ∀ s p, act s = some p → ReflTransGen R s p.2

namespace CallM.Moves

theorem step {act : CallM α} (h : ∀ s p, act s = some p → R s p.2) : Moves R act :=
  fun s p hp => .single (h s p hp)

theorem toCall {act : MarshalM α} (h : MarshalM.Moves R act) : Moves R act.toCall := by
  rintro s p hp
  obtain rfl := Option.some.inj hp
  exact h s

end CallM.Moves

theorem composes_moves : CallM.Composes fun _ => CallM.Moves R where
  pure a s p hp := by
    obtain rfl := Option.some.inj hp
    exact .refl
  bind hact hk s p hp := by
    rw [callM_bind] at hp
    obtain ⟨q, hq, hrest⟩ := Option.bind_eq_some_iff.mp hp
    exact (hact s q hq).trans (hk q.1 q.2 p hrest)

section Call

variable {b : Bridge} {nested : Nested} (hnested : ∀ target args, CallM.Moves b.Step (nested target args))

include hnested

theorem moves_answer (request : Request) :
    CallM.Moves b.Step (request.answer b.registry nested) := by
  cases request with
  | convert request =>
    rintro s p hp
    obtain rfl := Option.some.inj hp
    exact moves_request b.conversionSteps request s
  | call target args => exact hnested target args

omit hnested in
theorem moves_finish (d : Descriptor) (answer : Except Breakdown Managed) :
    CallM.Moves b.Step (b.finish d answer) := by
  rintro s p hp
  cases answer with
  | error reason =>
    obtain rfl := Option.some.inj hp
    exact .single (.note _ rfl s)
  | ok v =>
    obtain ⟨result, s', hencode⟩ : ∃ result s', encodeResult b.registry d v s = (result, s') :=
      ⟨_, _, rfl⟩
    have hsteps := moves_encodeResult b.conversionSteps d v s
    unfold Bridge.finish at hp
    simp only [hencode] at hp hsteps
    cases result with
    | ok host =>
      obtain rfl := Option.some.inj hp
      exact hsteps
    | error err =>
      obtain rfl := Option.some.inj hp
      exact hsteps.tail (.note _ rfl s')

theorem moves_runExport {e : Export} (he : e ∈ b.exports.table) (args : List HostValue) :
    CallM.Moves b.Step (b.runExport nested e (coerceHandles b.settings args)) := by
  rintro s p hp
  obtain ⟨answer, s₁, hprepare⟩ : ∃ answer s₁,
    prepare b.registry b.settings e.descriptor (coerceHandles b.settings args) s = (answer, s₁) :=
      ⟨_, _, rfl⟩
  have hbefore := moves_prepare b.conversionSteps (fun _ _ _ s => .note _ rfl s) b.settings
    e.descriptor (coerceHandles b.settings args) s
  rw [hprepare] at hbefore
  cases answer with
  | error err =>
    rw [runExport_of_error hprepare] at hp
    obtain rfl := Option.some.inj hp
    exact hbefore.tail (.note _ rfl s₁)
  | ok frame =>
    rw [runExport_of_ok hprepare] at hp
    have hentered := hbefore.tail (.enter e he args frame s₁ (receives_of_prepare hprepare))
    have hcallable := composes_moves.run (fun request _ => moves_answer hnested request)
      (e.callable frame).only_true
    exact hentered.trans (composes_moves.bind hcallable (moves_finish e.descriptor) _ p hp)

theorem moves_callTarget (target : Target) (args : List HostValue) :
    CallM.Moves b.Step (b.callTarget nested target args) := by
  refine composes_moves.callTarget (fun event hevent => .step fun s p hp => ?_)
    (fun e he _ args => moves_runExport hnested he args) (b.leads_true target) args
  obtain rfl := Option.some.inj hp
  exact .note event hevent s

end Call

theorem moves_call? (b : Bridge) (depth : Nat) (target : Target) (args : List HostValue) :
    CallM.Moves b.Step (b.call? depth target args) := by
  induction depth generalizing target args with
  | zero =>
    rintro s p hp
    cases hp
  | succ depth ih => exact moves_callTarget ih target args

end Gridcall
