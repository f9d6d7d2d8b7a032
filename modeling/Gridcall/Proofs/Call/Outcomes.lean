import Gridcall.Proofs.Call.Stages

/-!
# Outcomes of calls

A call has no outcome if calls nest too deep. Otherwise it answers with a value, or says that its target
is not registered.

* `callId_of_some`, `callId_of_none` : a call by number, for a number that is registered and for one
  that is not;
* `CallFrame.only_arg` : reading an argument takes no request;
* `CallM.Composes P` : composition keeps the property `P` of computations. What then has to be shown of
  a call is shown of its requests (`Composes.run`), of its stages (`Composes.runExport`) and of the
  exports that it may reach (`Composes.callTarget`);
* `CallM.Ends act` : from every state, `act` has an outcome;
* `Bridge.ends_callTarget` : a call has an outcome if the calls that it makes have one.
-/

namespace Gridcall

variable {α β : Type} {b : Bridge} {nested : Nested} {args : List HostValue} {s s' : MarshalState}

theorem callM_bind (act : CallM α) (k : α → CallM β) (s : MarshalState) :
    (act >>= k) s = (act s).bind fun p => k p.1 p.2 := rfl

/-! ## Calls by number -/

theorem callId_of_some {id : ExportId} {e : Export} (h : b.exports.find? id = some e) :
    b.callId nested id args s =
      (b.runExport nested e (coerceHandles b.settings args) (s.note (.opened id e.descriptor.name))).map
        fun p => (.ok p.1, p.2.note .closed) := by
  unfold Bridge.callId
  rw [h]
  show (b.runExport nested e (coerceHandles b.settings args)
    (s.note (.opened id e.descriptor.name))).bind _ = _
  cases b.runExport nested e (coerceHandles b.settings args)
    (s.note (.opened id e.descriptor.name)) <;> rfl

theorem callId_of_none {id : ExportId} (h : b.exports.find? id = none) :
    b.callId nested id args s = some (.error (.id id), s.note (.unknownId id)) := by
  unfold Bridge.callId
  rw [h]
  rfl

/-! ## Properties that composition keeps -/

section Only

variable {W : Request → Prop}

theorem Action.only_convert {request : Conversion.Request} (h : W (.convert request)) :
    (Action.convert request).Only W := .ask _ _ h fun answer => .done answer

/-- Reading an argument or the receiver takes no request. -/
theorem CallFrame.only_arg (frame : CallFrame) (kind : ReadKind) (index : Nat) :
    (frame.arg kind index).Only W := by
  unfold CallFrame.arg
  split
  · exact .stop _
  · split
    · exact .done _
    · exact .stop _

theorem CallFrame.only_receiverAs (frame : CallFrame) (read : Contents Managed → Option α) :
    (frame.receiverAs read).Only W := by
  unfold CallFrame.receiverAs
  split
  · exact .stop _
  · split
    · exact .done _
    · exact .stop _

end Only

/-- Every export that a call to the target may reach is in `S`. -/
def Bridge.Leads (b : Bridge) (S : ExportId → Prop) : Target → Prop
  | .id id => S id
  | .overloads ids => ∀ id ∈ ids, S id
  | .name name => ∀ id ∈ b.exports.overloads name, S id

theorem Bridge.leads_true (b : Bridge) (target : Target) : b.Leads (fun _ => True) target := by
  cases target with
  | id id => exact trivial
  | overloads ids => exact fun _ _ => trivial
  | name name => exact fun _ _ => trivial

/-- A property of computations that is kept by composition. -/
structure CallM.Composes (P : ∀ α : Type, CallM α → Prop) : Prop where
  pure : ∀ {α : Type} (a : α), P α (Pure.pure a)
  bind : ∀ {α β : Type} {act : CallM α} {k : α → CallM β}, P α act → (∀ a, P β (k a)) →
    P β (act >>= k)

namespace CallM.Composes

variable {P : ∀ α : Type, CallM α → Prop} (h : Composes P)

include h

theorem run {r : Registry} {W : Request → Prop}
    (hanswer : ∀ request, W request → P _ (request.answer r nested)) {a : Action α} (ha : a.Only W) :
    P _ (a.run r nested) := by
  induction ha with
  | done value => exact h.pure _
  | stop reason => exact h.pure _
  | ask request next hrequest _ ih => exact h.bind (hanswer request hrequest) ih

/-- One call of one export, stage by stage. -/
theorem runExport {e : Export} (args : List HostValue) (hnote : ∀ event, P _ (note event))
    (hprepare : P _ (prepare b.registry b.settings e.descriptor args).toCall)
    (hrun : ∀ frame, P _ ((e.callable frame).run b.registry nested))
    (hencode : ∀ v, P _ (encodeResult b.registry e.descriptor v).toCall) :
    P _ (b.runExport nested e args) := by
  have hcallable : ∀ frame, P _ (b.runCallable nested e frame) := by
    intro frame
    refine h.bind (hnote _) fun _ => h.bind (hrun frame) fun answer => ?_
    cases answer with
    | error reason => exact h.pure _
    | ok v => exact hencode v
  have htry : P _ (b.tryExport nested e args) := by
    refine h.bind hprepare fun answer => ?_
    cases answer with
    | error err => exact h.pure _
    | ok frame => exact hcallable frame
  refine h.bind htry fun answer => ?_
  cases answer with
  | ok v => exact h.pure _
  | error err => exact h.bind (hnote _) fun _ => h.pure _

section Targets

variable {S : ExportId → Prop} (hnote : ∀ event, event.callee? = none → P _ (note event))
  (hexport : ∀ e ∈ b.exports.table, S e.id → ∀ args,
    P _ (b.runExport nested e (coerceHandles b.settings args)))

include hnote hexport

theorem callId {id : ExportId} (hid : S id) (args : List HostValue) : P _ (b.callId nested id args) := by
  unfold Bridge.callId
  cases hfind : b.exports.find? id with
  | none => exact h.bind (hnote _ rfl) fun _ => h.pure _
  | some e =>
    have he : e ∈ b.exports.table := List.mem_of_find?_eq_some hfind
    have heid : e.id = id := by simpa using List.find?_some hfind
    refine h.bind (hnote _ rfl) fun _ => h.bind (hexport e he (heid ▸ hid) args) fun v => ?_
    exact h.bind (hnote _ rfl) fun _ => h.pure _

theorem callOverloads {ids : List ExportId} (hids : ∀ id ∈ ids, S id) (args : List HostValue)
    (last : HostValue) : P _ (b.callOverloads nested args ids last) := by
  induction ids generalizing last with
  | nil => exact h.pure _
  | cons id ids ih =>
    have hrest := ih fun id hid => hids id (List.mem_cons_of_mem _ hid)
    refine h.bind (h.callId hnote hexport (hids id List.mem_cons_self) args) fun answer => ?_
    cases answer with
    | error unknown => exact h.pure _
    | ok v =>
      dsimp only
      split
      · exact hrest v
      · exact h.pure _

/-- A call reaches the exports that its target leads to, and no others. -/
theorem callTarget {target : Target} (hleads : b.Leads S target) (args : List HostValue) :
    P _ (b.callTarget nested target args) := by
  cases target with
  | id id => exact h.callId hnote hexport hleads args
  | overloads ids => exact h.callOverloads hnote hexport hleads args _
  | name name =>
    have hleads : ∀ id ∈ (b.exports.idsOf? name).getD [], S id := hleads
    unfold Bridge.callTarget
    dsimp only
    cases hids : b.exports.idsOf? name with
    | none => exact h.bind (hnote _ rfl) fun _ => h.pure _
    | some ids =>
      rw [hids] at hleads
      exact h.callOverloads hnote hexport hleads args _

end Targets

end CallM.Composes

/-! ## Calls that end -/

def CallM.Ends (act : CallM α) : Prop := ∀ s, (act s).isSome

/-- Calls that are made this way have an outcome, whatever they go to. -/
def Nested.Ends (nested : Nested) : Prop := ∀ target args, CallM.Ends (nested target args)

theorem composes_ends : CallM.Composes fun _ => CallM.Ends where
  pure _ _ := rfl
  bind hact hk s := by
    obtain ⟨p, hp⟩ := Option.isSome_iff_exists.mp (hact s)
    rw [callM_bind, hp]
    exact hk p.1 p.2

theorem ends_answer {r : Registry} (hnested : nested.Ends) (request : Request) :
    CallM.Ends (request.answer r nested) := by
  cases request with
  | call target args => exact hnested target args
  | _ => exact fun _ => rfl

theorem ends_runExport (hnested : nested.Ends) (e : Export) (args : List HostValue) :
    CallM.Ends (b.runExport nested e args) :=
  composes_ends.runExport args (fun _ _ => rfl) (fun _ => rfl)
    (fun frame => composes_ends.run (fun request _ => ends_answer hnested request)
      (e.callable frame).only_true) (fun _ _ => rfl)

/-- A call has an outcome if the calls that it makes have one. -/
theorem Bridge.ends_callTarget (hnested : nested.Ends) : Nested.Ends (b.callTarget nested) :=
  fun target args => composes_ends.callTarget (fun _ _ _ => rfl)
    (fun e _ _ _ => ends_runExport hnested e _) (b.leads_true target) args

end Gridcall
