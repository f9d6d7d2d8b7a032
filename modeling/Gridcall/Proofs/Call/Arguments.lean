import Gridcall.Proofs.Call.Binding
import Gridcall.Proofs.Call.Registration
import Gridcall.Proofs.Call.Steps
import Gridcall.Proofs.Marshal.Failures

/-!
# Arguments of calls

A callable is entered with one argument for each of its parameters, however many values came in, or the
call is refused.

* `Exports.Faultless` : the descriptors of a table are without fault. Registration keeps this, so it holds
  of every table (`faultless_run`);
* `Bridge.Refuses` : why a call ends before its callable is run;
* `prepare_cases` : what comes before the callable binds the arguments and finds the receiver, or refuses;
* `Bridge.BindsArguments` : what the values that come in decide about a call;
* `CallM.EntersAllBound b act` : every callable that `act` enters has arguments that were bound to its
  parameters. Calls do so, however deep they nest (`entersAllBound_call?`);
* `call?_arguments` : both for every callable that was registered.
-/

namespace Gridcall

variable {d : Descriptor} {args : List HostValue} {s s' : MarshalState} {err : CallError}

/-! ## Descriptors of a table -/

namespace Exports

variable {x : Exports}

def Faultless (x : Exports) : Prop := ∀ e ∈ x.table, e.descriptor.fault? = none

theorem Faultless.register (h : x.Faultless) (e : Export) : (x.register e).1.Faultless := by
  unfold Exports.register
  split
  · exact h
  · next hfault =>
    split
    · exact h
    · intro d hd
      rcases List.mem_append.mp hd with hd | hd
      · exact h d hd
      · rw [List.mem_singleton.mp hd]
        exact hfault

theorem Faultless.registerAll (h : x.Faultless) (es : List Export) : (x.registerAll es).1.Faultless := by
  induction es generalizing x with
  | nil => exact h
  | cons e es ih =>
    have hfirst := h.register e
    unfold Exports.registerAll
    rcases x.register_cases e with ⟨x', hregister⟩ | ⟨err, hregister⟩
    · rw [hregister] at hfirst ⊢
      exact ih hfirst
    · rw [hregister]
      exact h

theorem faultless_run (requests : List RegistrationRequest) : (run requests).2.Faultless := by
  induction requests using List.reverseRecOn with
  | nil => exact fun e he => by cases he
  | append_singleton requests request ih =>
    rw [run, List.foldl_append, List.foldl_cons, List.foldl_nil, extend, perform_eq_registerAll]
    exact ih.registerAll request.exports

end Exports

/-! ## One call -/

section Call

variable {b : Bridge} {nested : Nested} {e : Export}

def Bridge.bindingState (b : Bridge) (d : Descriptor) (args : List HostValue) (s : MarshalState) :
    MarshalState :=
  s.note (.decoding d.name (d.ownArgs args) b.settings.logArguments)

/-- The callable is run, with arguments that were bound to its parameters. -/
def Bridge.EntersBound (b : Bridge) (nested : Nested) (e : Export) (args : List HostValue)
    (s : MarshalState) : Prop :=
  ∃ frame s₁, e.descriptor.Binds b.registry (e.descriptor.ownArgs args)
      (b.bindingState e.descriptor args s) frame.args s₁ ∧
    e.descriptor.Receives s₁.store.heap args frame.receiver ∧
    b.runExport nested e args s = ((e.callable frame).run b.registry nested >>=
      b.finish e.descriptor) (s₁.note (frame.entry e.descriptor))

/-- The arguments of a call are rejected, or they are bound and then the receiver does not resolve. -/
def Bridge.Refuses (b : Bridge) (d : Descriptor) (args : List HostValue) (s : MarshalState)
    (err : CallError) (s₁ : MarshalState) : Prop :=
  d.Rejects b.registry (d.ownArgs args) (b.bindingState d args s) err s₁ ∨
    ∃ values, d.Binds b.registry (d.ownArgs args) (b.bindingState d args s) values s₁ ∧
      d.resolveReceiver s₁.store.heap (d.receiverArg? args) = .error err

/-- The call ends with the code of the failure for which it is refused, and the callable is not run. -/
def Bridge.Stops (b : Bridge) (nested : Nested) (e : Export) (args : List HostValue)
    (s : MarshalState) : Prop :=
  ∃ err s₁, b.Refuses e.descriptor args s err s₁ ∧
    b.runExport nested e args s = some (.error err.code, s₁.note (.failed e.descriptor.name err))

/-- What the arguments of a call decide. -/
structure Bridge.BindsArguments (b : Bridge) (e : Export) : Prop where
  /-- An instance call without any value has no receiver. -/
  absent : ∀ nested s, e.descriptor.kind = .method → b.runExport nested e [] s =
    some (.error .null, s.note (.failed e.descriptor.name missingReceiver))
  /-- Any other call runs its callable with arguments that were bound, or stops. -/
  outcome : ∀ nested args s, (e.descriptor.kind = .method → args ≠ []) →
    b.EntersBound nested e args s ∨ b.Stops nested e args s
  /-- A call with more values than parameters is rejected at once, unless the callable is variadic. -/
  tooMany : ∀ nested args s, e.descriptor.variadic = false →
    e.descriptor.params.length < (e.descriptor.ownArgs args).length →
    b.runExport nested e args s = some (.error .value, (b.bindingState e.descriptor args s).note
      (.failed e.descriptor.name
        (.argumentCount e.descriptor.params.length (e.descriptor.ownArgs args).length)))
  /-- No other call is rejected for the number of its values. -/
  count_iff : b.registry.NeverCounts → ∀ args s,
    (∃ expected actual, (prepare b.registry b.settings e.descriptor args s).1 =
      .error (.argumentCount expected actual)) ↔
    e.descriptor.variadic = false ∧ e.descriptor.params.length < (e.descriptor.ownArgs args).length
  /-- The values for a tail make no difference to whether a call is rejected, and to what is done then. -/
  tail_irrelevant : e.descriptor.variadic = true → ∀ own own' s err s',
    own.take (e.descriptor.params.length - 1) = own'.take (e.descriptor.params.length - 1) →
    (e.descriptor.Rejects b.registry own s err s' ↔ e.descriptor.Rejects b.registry own' s err s')
  /-- The values of a variadic call can be cut at the last parameter, however many there are. -/
  cut : e.descriptor.variadic = true → ∀ own, ∃ params element head tail,
    e.descriptor.cut? own = some (params, head, tail) ∧ e.descriptor.params = params ++ [.array element] ∧
    own = head ++ tail ∧ bindArguments b.registry e.descriptor own = (do
      let values ← bindPositional b.registry params head
      return values ++ [.array element (tail.map .value)])

theorem receiverFailure?_eq_none (h : d.kind = .method → args ≠ []) : d.receiverFailure? args = none :=
  if_neg fun ⟨hmethod, hargs⟩ => h hmethod hargs

theorem receiverFailure?_of_tooMany (h : d.params.length < (d.ownArgs args).length) :
    d.receiverFailure? args = none := by
  refine receiverFailure?_eq_none fun hmethod hargs => ?_
  rw [Descriptor.ownArgs, if_pos hmethod, hargs] at h
  exact absurd h (Nat.not_lt_zero _)

theorem prepare_of_bind_error (hfirst : d.receiverFailure? args = none)
    (h : bindArguments b.registry d (d.ownArgs args) (b.bindingState d args s) =
      (.error err, s')) : prepare b.registry b.settings d args s = (.error err, s') := by
  rw [prepare_of_none hfirst]
  exact bind_of_error h

theorem prepare_of_tooMany (hd : d.variadic = false)
    (hcount : d.params.length < (d.ownArgs args).length) (s : MarshalState) :
    prepare b.registry b.settings d args s =
      (.error (.argumentCount d.params.length (d.ownArgs args).length),
        b.bindingState d args s) := by
  refine prepare_of_bind_error (receiverFailure?_of_tooMany hcount) ?_
  rw [bindArguments_of_tooMany hd hcount]
  rfl

/-- What comes before the callable either binds the arguments and finds the receiver, or refuses. -/
theorem prepare_cases (b : Bridge) (hfault : d.fault? = none)
    (hfirst : d.receiverFailure? args = none) (s : MarshalState) :
    (∃ frame s₁, prepare b.registry b.settings d args s = (.ok frame, s₁) ∧
      d.Binds b.registry (d.ownArgs args) (b.bindingState d args s) frame.args s₁ ∧
      d.Receives s₁.store.heap args frame.receiver) ∨
    ∃ err s₁, prepare b.registry b.settings d args s = (.error err, s₁) ∧
      b.Refuses d args s err s₁ := by
  obtain ⟨answer, s₁, hbind⟩ : ∃ answer s₁, bindArguments b.registry d
    (d.ownArgs args) (b.bindingState d args s) = (answer, s₁) := ⟨_, _, rfl⟩
  cases answer with
  | error err =>
    exact .inr ⟨err, s₁, prepare_of_bind_error hfirst hbind,
      .inl ((bindArguments_eq_error_iff hfault).mp hbind)⟩
  | ok values =>
    have hbinds := (bindArguments_eq_ok_iff hfault).mp hbind
    have hprepare : prepare b.registry b.settings d args s =
        d.frame args values s₁ := by
      rw [prepare_of_none hfirst]
      exact bind_of_ok hbind
    rw [frame_eq] at hprepare
    cases hreceiver : d.resolveReceiver s₁.store.heap (d.receiverArg? args) with
    | error err =>
      rw [hreceiver] at hprepare
      exact .inr ⟨err, s₁, hprepare, .inr ⟨values, hbinds, hreceiver⟩⟩
    | ok receiver =>
      rw [hreceiver] at hprepare
      exact .inl ⟨_, s₁, hprepare, hbinds, receives_of_resolveReceiver hfirst hreceiver⟩

theorem binds_of_prepare (hfault : d.fault? = none) {frame : CallFrame}
    (h : prepare b.registry b.settings d args s = (.ok frame, s')) :
    d.Binds b.registry (d.ownArgs args) (b.bindingState d args s) frame.args s' := by
  cases hfirst : d.receiverFailure? args with
  | some err =>
    rw [prepare_of_some hfirst] at h
    cases h
  | none =>
    rcases prepare_cases b hfault hfirst s with
      ⟨frame', s₁, hprepare, hbinds, -⟩ | ⟨err, s₁, hprepare, -⟩
    · rw [hprepare] at h
      cases h
      exact hbinds
    · rw [hprepare] at h
      cases h

theorem resolveReceiver_ne_argumentCount {heap : Heap} {receiver : Option HostValue}
    {expected actual : Nat} :
    d.resolveReceiver heap receiver ≠ .error (.argumentCount expected actual) := by
  intro h
  unfold Descriptor.resolveReceiver at h
  split at h
  · cases h
  · split at h <;> cases h
  · cases h
  · cases h
  · cases h

/-- Only too many values are refused for their number. -/
theorem tooMany_of_refuses (hr : b.registry.NeverCounts) {expected actual : Nat}
    (h : b.Refuses d args s (.argumentCount expected actual) s') :
    d.variadic = false ∧ d.params.length < (d.ownArgs args).length := by
  rcases h with hrejects | ⟨values, -, hreceiver⟩
  · cases hrejects with
    | tooMany hd hcount => exact ⟨hd, hcount⟩
    | argument _ hfails =>
      obtain ⟨param, arg, values, s₁, -, -, -, -, hdecode⟩ := hfails.fails
      cases failsIn_decode hr arg param _ _ _ hdecode
  · exact absurd hreceiver resolveReceiver_ne_argumentCount

theorem tooMany_of_prepare (hfault : d.fault? = none) (hr : b.registry.NeverCounts)
    {expected actual : Nat} (h : prepare b.registry b.settings d args s =
      (.error (.argumentCount expected actual), s')) :
    d.variadic = false ∧ d.params.length < (d.ownArgs args).length := by
  cases hfirst : d.receiverFailure? args with
  | some err =>
    rw [prepare_of_some hfirst] at h
    cases h
    unfold Descriptor.receiverFailure? at hfirst
    split at hfirst <;> cases hfirst
  | none =>
    rcases prepare_cases b hfault hfirst s with
      ⟨frame, s₁, hprepare, -⟩ | ⟨err, s₁, hprepare, hrefuses⟩
    · rw [hprepare] at h
      cases h
    · rw [hprepare] at h
      cases h
      exact tooMany_of_refuses hr hrefuses

theorem Bridge.bindsArguments (b : Bridge) (hfault : e.descriptor.fault? = none) : b.BindsArguments e where
  absent nested s hmethod := by
    have hfirst : e.descriptor.receiverFailure? [] = some missingReceiver := if_pos ⟨hmethod, rfl⟩
    exact runExport_of_error (prepare_of_some hfirst s)
  outcome nested args s hargs := by
    rcases prepare_cases b hfault (receiverFailure?_eq_none hargs) s with
      ⟨frame, s₁, hprepare, hbinds, hreceives⟩ | ⟨err, s₁, hprepare, hrefuses⟩
    · exact .inl ⟨frame, s₁, hbinds, hreceives, runExport_of_ok hprepare⟩
    · exact .inr ⟨err, s₁, hrefuses, runExport_of_error hprepare⟩
  tooMany nested args s hd hcount := runExport_of_error (prepare_of_tooMany hd hcount s)
  count_iff hr args s := by
    constructor
    · rintro ⟨expected, actual, h⟩
      exact tooMany_of_prepare hfault hr (Prod.ext h rfl)
    · rintro ⟨hd, hcount⟩
      exact ⟨_, _, congrArg Prod.fst (prepare_of_tooMany hd hcount s)⟩
  tail_irrelevant hd own own' s err s' hown := by
    obtain ⟨init, element, hparams, htail⟩ := e.descriptor.exists_tail hfault hd
    have hlast : e.descriptor.params.length - 1 = init.length := by simp [hparams]
    have hsame : bindPositional b.registry init own = bindPositional b.registry init own' := by
      rw [bindPositional_eq, bindPositional_eq, ← places_take, ← hlast, hown, hlast, places_take]
    rw [← bindArguments_eq_error_iff hfault, ← bindArguments_eq_error_iff hfault,
      bindArguments_of_tail hparams htail, bindArguments_of_tail hparams htail, map_eq_error_iff,
      map_eq_error_iff, hsame]
  cut hd own := by
    obtain ⟨init, element, hparams, htail⟩ := e.descriptor.exists_tail hfault hd
    refine ⟨init, element, _, _, cut?_eq hparams own, hparams, (List.take_append_drop _ own).symm, ?_⟩
    rw [bindArguments_of_tail hparams htail, bindPositional_eq, bindPositional_eq, places_take]

end Call

/-! ## Every entry of a run -/

/-- A callable that was registered was entered with arguments that were bound to its parameters. -/
def Bridge.EnteredBound (b : Bridge) (callee : String × Option Object × List Managed) : Prop :=
  ∃ e ∈ b.exports.table, ∃ args s s', callee.1 = e.descriptor.name ∧ e.descriptor.Binds b.registry
    (e.descriptor.ownArgs (coerceHandles b.settings args)) s callee.2.2 s'

/-- Every callable that `act` enters is entered with arguments that were bound to its parameters. -/
def CallM.EntersAllBound {α : Type} (b : Bridge) (act : CallM α) : Prop :=
  ∀ s p, act s = some p →
    ∃ entered, p.2.callees = entered ++ s.callees ∧ ∀ callee ∈ entered, b.EnteredBound callee

theorem composes_entersAllBound (b : Bridge) : CallM.Composes fun _ => CallM.EntersAllBound b where
  pure a s p hp := by
    obtain rfl := Option.some.inj hp
    exact ⟨[], rfl, by simp⟩
  bind hact hk s p hp := by
    rw [callM_bind] at hp
    obtain ⟨q, hq, hrest⟩ := Option.bind_eq_some_iff.mp hp
    obtain ⟨before, hbefore, hboundBefore⟩ := hact s q hq
    obtain ⟨after, hafter, hboundAfter⟩ := hk q.1 q.2 p hrest
    refine ⟨after ++ before, by rw [hafter, hbefore, List.append_assoc], fun callee hcallee => ?_⟩
    rcases List.mem_append.mp hcallee with hcallee | hcallee
    · exact hboundAfter callee hcallee
    · exact hboundBefore callee hcallee

section Run

variable {α : Type} {b : Bridge} {nested : Nested} {e : Export}

theorem CallM.EntersAllBound.of_quiet {act : CallM α} (h : ∀ s p, act s = some p → Quiet s p.2) :
    CallM.EntersAllBound b act :=
  fun s p hp => ⟨[], h s p hp, by simp⟩

theorem entersAllBound_note {event : Event} (h : event.callee? = none) :
    CallM.EntersAllBound b (note event) := by
  refine .of_quiet fun s p hp => ?_
  obtain rfl := Option.some.inj hp
  exact (still_note s h).quiet

theorem quiet_prepare {s s' : MarshalState} {answer : Except CallError CallFrame}
    (h : prepare b.registry b.settings e.descriptor args s = (answer, s')) : Quiet s s' := by
  have hsteps := moves_prepare (conversionSteps_quiet b.registry)
    (fun _ _ _ s => (still_note s rfl).quiet) b.settings e.descriptor args s
  rw [h] at hsteps
  exact quiet_of_steps hsteps

theorem entersAllBound_finish (d : Descriptor) (answer : Except Breakdown Managed) :
    CallM.EntersAllBound b (b.finish d answer) := by
  refine .of_quiet fun s p hp => ?_
  obtain ⟨host, s', hfinish, hquiet, -⟩ := exists_finish (b := b) d answer s
  rw [hfinish] at hp
  obtain rfl := Option.some.inj hp
  exact hquiet

variable (hnested : ∀ target args, CallM.EntersAllBound b (nested target args))

include hnested

theorem entersAllBound_answer (request : Request) :
    CallM.EntersAllBound b (request.answer b.registry nested) := by
  cases request with
  | convert request =>
    refine .of_quiet fun s p hp => ?_
    obtain rfl := Option.some.inj hp
    exact quiet_of_steps (moves_request (conversionSteps_quiet b.registry) request s)
  | call target args => exact hnested target args

/-- A call enters its callable with bound arguments, and then only what its callable calls in turn. -/
theorem entersAllBound_runExport (he : e ∈ b.exports.table) (hfault : e.descriptor.fault? = none)
    (args : List HostValue) :
    CallM.EntersAllBound b (b.runExport nested e (coerceHandles b.settings args)) := by
  rintro s p hp
  obtain ⟨answer, s₁, hprepare⟩ : ∃ answer s₁,
    prepare b.registry b.settings e.descriptor (coerceHandles b.settings args) s = (answer, s₁) :=
      ⟨_, _, rfl⟩
  have hquiet := quiet_prepare hprepare
  cases answer with
  | error err =>
    rw [runExport_of_error hprepare] at hp
    obtain rfl := Option.some.inj hp
    exact ⟨[], hquiet.trans (still_note s₁ rfl).quiet, by simp⟩
  | ok frame =>
    rw [runExport_of_ok hprepare] at hp
    have hcallable := (composes_entersAllBound b).bind
      ((composes_entersAllBound b).run (fun request _ => entersAllBound_answer hnested request)
        (e.callable frame).only_true) (entersAllBound_finish e.descriptor)
    obtain ⟨entered, hcallees, hbound⟩ := hcallable _ p hp
    have hentry : (s₁.note (frame.entry e.descriptor)).callees =
        (e.descriptor.name, frame.receiver, frame.args) :: s.callees := by
      rw [← hquiet]
      rfl
    refine ⟨entered ++ [(e.descriptor.name, frame.receiver, frame.args)], ?_, fun callee hcallee => ?_⟩
    · rw [hcallees, hentry, List.append_assoc, List.singleton_append]
    · rcases List.mem_append.mp hcallee with hcallee | hcallee
      · exact hbound callee hcallee
      · obtain rfl := List.mem_singleton.mp hcallee
        exact ⟨e, he, args, _, s₁, rfl, binds_of_prepare hfault hprepare⟩

theorem entersAllBound_callTarget (hb : b.exports.Faultless) (target : Target) (args : List HostValue) :
    CallM.EntersAllBound b (b.callTarget nested target args) :=
  (composes_entersAllBound b).callTarget (fun _ => entersAllBound_note)
    (fun e he _ args => entersAllBound_runExport hnested he (hb e he) args) (b.leads_true target) args

omit hnested in
theorem entersAllBound_call? (hb : b.exports.Faultless) (depth : Nat) (target : Target)
    (args : List HostValue) : CallM.EntersAllBound b (b.call? depth target args) := by
  induction depth generalizing target args with
  | zero =>
    rintro s p hp
    cases hp
  | succ depth ih => exact entersAllBound_callTarget ih hb target args

end Run

/-- **A callable is entered with one argument for each of its parameters.** This holds for every callable
that was registered, with any converters. A parameter is given what the value at its place decodes to, a
grid as it is if the parameter is no array, and null without a value; a variadic tail is given all values
from its place on, as they are, in one array. If a callable is not variadic and there are more values than
parameters, the call is rejected with `#VALUE!` before any is decoded, and no other call is rejected for
their number; the values for a tail cannot make a call fail, and the bounds at which values are cut are
never violated. Every callable that is entered while a call runs, however deep, has such arguments. -/
theorem call?_arguments (requests : List RegistrationRequest) (settings : Settings) (r : Registry) :
    let b : Bridge := ⟨settings, r, (Exports.run requests).2⟩
    (∀ e ∈ b.exports.table, b.BindsArguments e) ∧
      ∀ depth target args, CallM.EntersAllBound b (b.call? depth target args) := by
  intro b
  have hb : b.exports.Faultless := Exports.faultless_run requests
  exact ⟨fun e he => b.bindsArguments (hb e he), entersAllBound_call? hb⟩

/-- Too many values for a callable with two parameters, and too few for a variadic one with three. -/
theorem call?_arguments_of_two_exports :
    let sum : Export := ⟨⟨1⟩, .function "Sum" "Demo" [.int, .int] (some .int), fun _ => Action.fail "never"⟩
    let tail : Export := ⟨⟨2⟩,
      (Descriptor.function "Tail" "Demo" [.int, .int, .array .object] none).asVariadic, fun _ => .done .null⟩
    let b : Bridge := ⟨{}, Converter.defaults, (Exports.run [.several [sum, tail]]).2⟩
    let three : List HostValue := [.string "1", .string "2", .string "3"]
    sum ∈ b.exports.table ∧ sum.descriptor.params.length < (sum.descriptor.ownArgs three).length ∧
      (∃ s', b.runExport (b.call? 0) sum three .empty = some (.error .value, s')) ∧
      b.registry.NeverCounts ∧
      (∃ expected actual, (prepare b.registry b.settings sum.descriptor three .empty).1 =
        .error (.argumentCount expected actual)) ∧
      ∃ s', b.call? 1 (.id ⟨2⟩) [.string "1"] .empty = some (.ok .nil, s') ∧
        s'.callees = [("Tail", none, [.int 1, .null, .array .object []])] ∧
        ∀ callee ∈ s'.callees, b.EnteredBound callee := by
  intro sum tail b three
  have hsum : sum ∈ b.exports.table := List.mem_cons_self
  have hfails : b.registry.NeverCounts := Registry.builtIn_defaults.neverCounts
  obtain ⟨hbinds, hrun⟩ := call?_arguments [.several [sum, tail]] {} Converter.defaults
  have hcount : sum.descriptor.params.length < (sum.descriptor.ownArgs three).length := by decide
  have htail : ∃ s', b.call? 1 (.id ⟨2⟩) [.string "1"] .empty = some (.ok .nil, s') ∧
      s'.callees = [("Tail", none, [.int 1, .null, .array .object []])] := by
    have heval : (b.call? 1 (.id ⟨2⟩) [.string "1"] .empty).map (fun p => (p.1, p.2.callees)) =
        some (.ok .nil, [("Tail", none, [.int 1, .null, .array .object []])]) := by
      simp only [b, sum, tail]
      cbv
    obtain ⟨p, hcall, hp⟩ := Option.map_eq_some_iff.mp heval
    obtain ⟨hanswer, hcallees⟩ := Prod.mk.inj hp
    exact ⟨p.2, hcall.trans (congrArg some (Prod.ext hanswer rfl)), hcallees⟩
  obtain ⟨s', hcall, hcallees⟩ := htail
  refine ⟨hsum, hcount, ⟨_, (hbinds sum hsum).tooMany (b.call? 0) three .empty rfl hcount⟩, hfails,
    ((hbinds sum hsum).count_iff hfails three .empty).mpr ⟨rfl, hcount⟩, s', hcall, hcallees, ?_⟩
  obtain ⟨entered, hentered, hall⟩ := hrun 1 (.id ⟨2⟩) [.string "1"] .empty _ hcall
  have hnone : MarshalState.empty.callees = [] := rfl
  rw [hnone, List.append_nil] at hentered
  rw [hentered]
  exact hall

end Gridcall
