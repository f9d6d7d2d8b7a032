import Gridcall.Call.Run
import Gridcall.Proofs.Marshal.Steps

/-!
# The stages of a call

Before a callable runs, a call goes through four stages: is there a receiver, are there too many
arguments, does each argument decode, does the receiver resolve. The first stage that fails decides the
error, whatever the later ones would find, and until then nothing has happened to the heap.

* `earliestFailure?` : the failure of the first stage that fails. Each stage is looked at on its own,
  on the heap as the call finds it;
* `Checks r heap act failure` : `act` fails with `failure`, if with any, and leaves the heap alone. The
  rules for composition are below it;
* `checks_prepare` : what comes before the callable checks the stages in their order;
* `Bridge.finish` : what comes after it;
* `runExport_stages` : a call either stops at its earliest failure, or runs its callable once.
-/

namespace Gridcall

variable {α β : Type} {r : Registry} {heap : Heap}

/-! ## Conversions of arguments and results -/

section Binding

variable {P : ∀ α : Type, MarshalM α → Prop} {K : ClientConverter → Prop}

namespace Decodes

variable (h : Decodes P r r.outside K)

include h

theorem bindArgument (param : ManagedType) (arg : HostValue) : P _ (bindArgument r param arg) := by
  unfold Gridcall.bindArgument
  split
  · split
    · exact h.decode _ _
    · exact h.pure _
  · exact h.decode _ _

theorem bindPositional (params : List ManagedType) (args : List HostValue) :
    P _ (bindPositional r params args) := by
  induction params generalizing args with
  | nil =>
    unfold Gridcall.bindPositional
    exact h.pure _
  | cons param params ih =>
    cases args with
    | nil => exact h.map (ih []) _
    | cons arg args => exact h.bind (h.bindArgument param arg) fun _ v _ _ => h.map (ih args) _

theorem bindArguments (d : Descriptor) (args : List HostValue) : P _ (bindArguments r d args) := by
  unfold Gridcall.bindArguments
  split
  · split
    · exact h.throw _
    · exact h.bindPositional _ _
  · exact h.map (h.bindPositional _ _) _

end Decodes

theorem Encodes.encodeResult (h : Encodes P r r.outside K) (d : Descriptor) (v : Managed) :
    P _ (encodeResult r d v) := by
  unfold Gridcall.encodeResult
  cases d.returns with
  | none => exact h.pure _
  | some type =>
    cases v with
    | value host => exact h.pure _
    | null => exact h.throw _
    | _ => exact h.encode _

end Binding

/-! ## The stages -/

def failure? : Except CallError α → Option CallError
  | .ok _ => none
  | .error e => some e

namespace Descriptor

variable (d : Descriptor) (args : List HostValue)

def receiverArg? : Option HostValue := if d.kind = .method then args.head? else none

def ownArgs : List HostValue := if d.kind = .method then args.tail else args

/-- The parameters that take one argument each. -/
def positional : List ManagedType := if d.tailElement?.isSome then d.params.dropLast else d.params

/-- An instance call needs an argument for its receiver. -/
def receiverFailure? : Option CallError :=
  if d.kind = .method ∧ args = [] then some missingReceiver else none

/-- Only a variadic callable takes more arguments than it has parameters. -/
def countFailure? : Option CallError :=
  if d.tailElement?.isNone ∧ d.params.length < (d.ownArgs args).length then
    some (.argumentCount d.params.length (d.ownArgs args).length)
  else none

end Descriptor

def argumentFailure? (r : Registry) (heap : Heap) (param : ManagedType) (arg : HostValue) :
    Option CallError :=
  failure? (onHeap (bindArgument r param arg) heap).1

/-- What each stage of a call finds wrong, stage by stage and argument by argument. -/
def stageFailures (r : Registry) (d : Descriptor) (heap : Heap) (args : List HostValue) :
    List (Option CallError) :=
  [d.receiverFailure? args, d.countFailure? args] ++
    (d.positional.zip (d.ownArgs args)).map (fun p => argumentFailure? r heap p.1 p.2) ++
    [failure? (d.resolveReceiver heap (d.receiverArg? args))]

/-- What the first stage that finds something wrong finds. -/
def earliestFailure? (r : Registry) (d : Descriptor) (heap : Heap) (args : List HostValue) :
    Option CallError :=
  (stageFailures r d heap args).findSome? id

/-! ## Checking -/

/-- Run on `heap` from any truthful memo, `act` leaves the heap alone and enters no callable, and it
fails with `failure` or not at all. -/
def Checks (r : Registry) (heap : Heap) (act : MarshalM α) (failure : Option CallError) : Prop :=
  ∀ s : MarshalState, s.memo.Truthful r → s.store.heap = heap → ∃ answer s',
    act s = (answer, s') ∧ failure? answer = failure ∧ Still s s' ∧ s'.memo.Truthful r

namespace Checks

variable {act : MarshalM α} {failure failure' : Option CallError}

theorem pure (a : α) : Checks r heap (Pure.pure a) none :=
  fun s hs _ => ⟨.ok a, s, rfl, rfl, .refl s, hs⟩

theorem throw (e : CallError) : Checks r heap (MonadExcept.throw e : MarshalM α) (some e) :=
  fun s hs _ => ⟨.error e, s, rfl, rfl, .refl s, hs⟩

theorem note {e : Event} (he : e.callee? = none) :
    Checks r heap (modify fun s => s.note e : MarshalM Unit) none :=
  fun s hs _ => ⟨.ok (), s.note e, rfl, rfl, still_note s he, hs⟩

theorem read (f : Heap → Except CallError α) :
    Checks r heap (fun s => (f s.store.heap, s)) (failure? (f heap)) := by
  rintro s hs rfl
  exact ⟨f s.store.heap, s, rfl, rfl, .refl s, hs⟩

theorem of_oblivious (hact : Oblivious r act) (hstill : ∀ s, Still s (act s).2) :
    Checks r heap act (failure? (onHeap act heap).1) := by
  rintro s hs rfl
  obtain ⟨s', hrun, -, hs'⟩ := hact s hs
  refine ⟨_, s', hrun, rfl, ?_, hs'⟩
  have hsame := hstill s
  rwa [hrun] at hsame

/-- The failure of a sequence is that of the first computation that fails. -/
theorem bind {k : α → MarshalM β} (hact : Checks r heap act failure)
    (hk : ∀ a, Checks r heap (k a) failure') : Checks r heap (act >>= k) (failure.or failure') := by
  intro s hs hheap
  obtain ⟨answer, s₁, hrun, rfl, hstill, hs₁⟩ := hact s hs hheap
  cases answer with
  | ok a =>
    obtain ⟨answer', s₂, hrun', hfailure, hstill', hs₂⟩ := hk a s₁ hs₁ (hstill.heap.trans hheap)
    refine ⟨answer', s₂, ?_, hfailure, hstill.trans hstill', hs₂⟩
    rw [bind_of_ok hrun, hrun']
  | error e => exact ⟨.error e, s₁, bind_of_error hrun, rfl, hstill, hs₁⟩

/-- What follows only changes the answer. -/
theorem map (f : α → β) (hact : Checks r heap act failure) :
    Checks r heap (act >>= fun a => Pure.pure (f a)) failure := by
  have hbind : Checks r heap (act >>= fun a => Pure.pure (f a)) (failure.or none) :=
    hact.bind fun a => .pure (f a)
  rwa [Option.or_none] at hbind

end Checks

/-! ## Arguments -/

theorem still_bindArgument (hr : r.BuiltIn) (param : ManagedType) (arg : HostValue)
    (s : MarshalState) : Still s (bindArgument r param arg s).2 :=
  still_of_steps ((decodes_still hr).bindArgument param arg s)

theorem checks_bindPositional (hr : r.BuiltIn) (params : List ManagedType) (args : List HostValue) :
    Checks r heap (bindPositional r params args)
      ((params.zip args).findSome? fun p => argumentFailure? r heap p.1 p.2) := by
  induction params generalizing args with
  | nil =>
    unfold bindPositional
    exact .pure []
  | cons param params ih =>
    cases args with
    | nil =>
      have hrest := ih []
      rw [List.zip_nil_right] at hrest ⊢
      exact hrest.map _
    | cons arg args =>
      have hfirst : Checks r heap (bindArgument r param arg) (argumentFailure? r heap param arg) :=
        .of_oblivious (((converses_oblivious r).decodes hr.blind).bindArgument param arg)
          (still_bindArgument hr param arg)
      have hboth := hfirst.bind fun v => (ih args).map fun rest => v :: rest
      have hfailure : ((param :: params).zip (arg :: args)).findSome?
          (fun p => argumentFailure? r heap p.1 p.2) = (argumentFailure? r heap param arg).or
            ((params.zip args).findSome? fun p => argumentFailure? r heap p.1 p.2) := by
        rw [List.zip_cons_cons, List.findSome?_cons]
        cases argumentFailure? r heap param arg <;> rfl
      rw [hfailure]
      exact hboth

theorem zip_take_length (as : List α) (bs : List β) : as.zip (bs.take as.length) = as.zip bs := by
  induction as generalizing bs with
  | nil => rfl
  | cons a as ih =>
    cases bs with
    | nil => rfl
    | cons b bs => rw [List.length_cons, List.take_succ_cons, List.zip_cons_cons, ih, List.zip_cons_cons]

/-- The arguments of a call: too many of them is found before any is decoded. -/
theorem checks_bindArguments (hr : r.BuiltIn) (d : Descriptor) {args own : List HostValue}
    (hown : d.ownArgs args = own) :
    Checks r heap (bindArguments r d own) ((d.countFailure? args).or
      ((d.positional.zip own).findSome? fun p => argumentFailure? r heap p.1 p.2)) := by
  unfold bindArguments Descriptor.countFailure? Descriptor.positional
  rw [hown]
  cases htail : d.tailElement? with
  | none =>
    simp only [Option.isNone_none, true_and, Option.isSome_none, Bool.false_eq_true, if_false]
    split
    · exact .throw _
    · exact checks_bindPositional hr d.params own
  | some element =>
    simp only [Option.isNone_some, Bool.false_eq_true, false_and, if_false, Option.isSome_some,
      if_true, Option.none_or]
    rw [← List.length_dropLast, ← zip_take_length d.params.dropLast own]
    exact (checks_bindPositional hr _ _).map _

/-! ## What comes before the callable -/

theorem splitReceiver_eq (d : Descriptor) (args : List HostValue) :
    d.splitReceiver args = match d.receiverFailure? args with
      | some e => .error e
      | none => .ok (d.receiverArg? args, d.ownArgs args) := by
  unfold Descriptor.splitReceiver Descriptor.receiverFailure? Descriptor.receiverArg?
    Descriptor.ownArgs
  cases d.kind with
  | method => cases args <;> rfl
  | _ => rfl

theorem earliestFailure?_eq (r : Registry) (d : Descriptor) (heap : Heap) (args : List HostValue) :
    earliestFailure? r d heap args = (d.receiverFailure? args).or (((d.countFailure? args).or
      ((d.positional.zip (d.ownArgs args)).findSome? fun p => argumentFailure? r heap p.1 p.2)).or
        (failure? (d.resolveReceiver heap (d.receiverArg? args)))) := by
  unfold earliestFailure? stageFailures
  rw [List.findSome?_append, List.findSome?_append, List.findSome?_map, List.findSome?_singleton]
  rw [List.findSome?_cons, List.findSome?_singleton, ← Option.or_assoc, ← Option.or_assoc]
  cases d.receiverFailure? args <;> rfl

/-- The stages after the first one. -/
theorem checks_frame (hr : r.BuiltIn) (settings : Settings) (d : Descriptor) (args : List HostValue) :
    Checks r heap (do
      modify fun s => s.note (.decoding d.name (d.ownArgs args) settings.logArguments)
      let decoded ← bindArguments r d (d.ownArgs args)
      let receiver ← d.resolveReceiver (← get).store.heap (d.receiverArg? args)
      return ({ descriptor := d, receiver, args := decoded } : CallFrame))
      (((d.countFailure? args).or ((d.positional.zip (d.ownArgs args)).findSome? fun p =>
        argumentFailure? r heap p.1 p.2)).or
          (failure? (d.resolveReceiver heap (d.receiverArg? args)))) := by
  have hresolve : ∀ decoded : List Managed, Checks r heap (do
      let receiver ← d.resolveReceiver (← get).store.heap (d.receiverArg? args)
      return ({ descriptor := d, receiver, args := decoded } : CallFrame))
      (failure? (d.resolveReceiver heap (d.receiverArg? args))) := by
    intro decoded
    exact (Checks.read fun heap => d.resolveReceiver heap (d.receiverArg? args)).map _
  have hnote : Checks r heap (modify fun s =>
      s.note (.decoding d.name (d.ownArgs args) settings.logArguments) : MarshalM Unit) none :=
    .note rfl
  exact hnote.bind fun _ => (checks_bindArguments hr d rfl).bind hresolve

/-- What comes before the callable checks the stages in their order. -/
theorem checks_prepare (hr : r.BuiltIn) (settings : Settings) (d : Descriptor)
    (args : List HostValue) :
    Checks r heap (prepare r settings d args) (earliestFailure? r d heap args) := by
  rw [earliestFailure?_eq]
  unfold prepare
  rw [splitReceiver_eq]
  cases d.receiverFailure? args with
  | some e => exact .throw e
  | none => exact checks_frame hr settings d args

/-! ## The call -/

def CallFrame.entry (frame : CallFrame) (d : Descriptor) : Event :=
  .entered d.name frame.receiver frame.args

/-- What comes after the callable: its result is encoded. A breakdown and a result that cannot be
encoded are noted and become an error code. -/
def Bridge.finish (b : Bridge) (d : Descriptor) : Except Breakdown Managed → CallM HostValue
  | .error reason => fun s =>
    some (.error .null, s.note (.failed d.name (.invocationFailure reason.message)))
  | .ok v => fun s =>
    match encodeResult b.registry d v s with
    | (.ok host, s) => some (host, s)
    | (.error err, s) => some (err.toHost, s.note (.failed d.name err))

section Bind

variable {act : CallM α} {k : α → CallM β} {s s' : MarshalState}

theorem callM_bind_of_some {a : α} (h : act s = some (a, s')) : (act >>= k) s = k a s' := by
  show (act s).bind (fun p => k p.1 p.2) = _
  rw [h]
  rfl

theorem callM_bind_of_none (h : act s = none) : (act >>= k) s = none := by
  show (act s).bind (fun p => k p.1 p.2) = _
  rw [h]
  rfl

end Bind

section Run

variable {b : Bridge} {nested : Nested} {e : Export} {args : List HostValue} {s s' : MarshalState}

/-- A call whose preparation fails shows the error code of the failure. -/
theorem runExport_of_error {err : CallError}
    (h : prepare b.registry b.settings e.descriptor args s = (.error err, s')) :
    b.runExport nested e args s =
      some (.error err.code, s'.note (.failed e.descriptor.name err)) := by
  have hprepare : (prepare b.registry b.settings e.descriptor args).toCall s =
      some (.error err, s') := congrArg some h
  have htry : b.tryExport nested e args s = some (.error err, s') := by
    unfold Bridge.tryExport
    rw [callM_bind_of_some hprepare]
    rfl
  unfold Bridge.runExport
  rw [callM_bind_of_some htry]
  rfl

/-- A call that is prepared runs its callable, and what follows depends on its answer only. -/
theorem runExport_of_ok {frame : CallFrame}
    (h : prepare b.registry b.settings e.descriptor args s = (.ok frame, s')) :
    b.runExport nested e args s = ((e.callable frame).run b.registry nested >>=
      b.finish e.descriptor) (s'.note (frame.entry e.descriptor)) := by
  have hprepare : (prepare b.registry b.settings e.descriptor args).toCall s =
      some (.ok frame, s') := congrArg some h
  have htry : b.tryExport nested e args s = b.runCallable nested e frame s' := by
    unfold Bridge.tryExport
    rw [callM_bind_of_some hprepare]
  have hentered : b.runCallable nested e frame s' =
      ((e.callable frame).run b.registry nested >>= fun answer => match answer with
        | .error reason => pure (.error (.invocationFailure reason.message))
        | .ok v => (encodeResult b.registry e.descriptor v).toCall)
        (s'.note (frame.entry e.descriptor)) := rfl
  unfold Bridge.runExport
  generalize s'.note (frame.entry e.descriptor) = s₁ at hentered
  cases hrun : (e.callable frame).run b.registry nested s₁ with
  | none =>
    rw [callM_bind_of_none hrun] at hentered ⊢
    exact callM_bind_of_none (htry.trans hentered)
  | some p =>
    obtain ⟨answer, s₂⟩ := p
    rw [callM_bind_of_some hrun] at hentered ⊢
    cases answer with
    | error reason =>
      rw [callM_bind_of_some (htry.trans hentered)]
      rfl
    | ok v =>
      obtain ⟨result, s₃, hencode⟩ : ∃ result s₃,
        encodeResult b.registry e.descriptor v s₂ = (result, s₃) := ⟨_, _, rfl⟩
      have htried : b.tryExport nested e args s = some (result, s₃) := by
        rw [htry, hentered, ← hencode]
        rfl
      rw [callM_bind_of_some htried]
      show _ = match encodeResult b.registry e.descriptor v s₂ with
        | (.ok host, s) => some (host, s)
        | (.error err, s) => some (err.toHost, s.note (.failed e.descriptor.name err))
      rw [hencode]
      cases result <;> rfl

theorem quiet_encodeResult (r : Registry) (d : Descriptor) (v : Managed) (s : MarshalState) :
    Quiet s (encodeResult r d v s).2 :=
  quiet_of_steps ((conversionSteps_quiet r).encodes.encodeResult d v s)

/-- A call whose callable has ended ends, and enters no further one. -/
theorem exists_finish (d : Descriptor) (answer : Except Breakdown Managed)
    (s : MarshalState) : ∃ host s', b.finish d answer s = some (host, s') ∧ Quiet s s' ∧
      ∀ reason, answer = .error reason → host = .error .null ∧ s'.store.heap = s.store.heap := by
  cases answer with
  | error reason =>
    obtain ⟨hheap, hquiet⟩ : Still s
      (s.note (.failed d.name (.invocationFailure reason.message))) := still_note s rfl
    exact ⟨_, _, rfl, hquiet, fun _ _ => ⟨rfl, hheap⟩⟩
  | ok v =>
    obtain ⟨result, s', hencode⟩ : ∃ result s', encodeResult b.registry d v s = (result, s') :=
      ⟨_, _, rfl⟩
    have hquiet : Quiet s (encodeResult b.registry d v s).2 := quiet_encodeResult _ d v s
    unfold Bridge.finish
    simp only [hencode] at hquiet ⊢
    cases result with
    | ok host => exact ⟨host, s', rfl, hquiet, by rintro reason ⟨⟩⟩
    | error err =>
      have hnoted : Still s' (s'.note (.failed d.name err)) := still_note s' rfl
      exact ⟨err.toHost, _, rfl, hquiet.trans hnoted.quiet, by rintro reason ⟨⟩⟩

end Run

/-- **A call stops at its earliest failure or runs its callable once.** If a stage fails, then whatever
the callable is: the call shows the code of the earliest failure, the heap is as it was and no callable
was entered. If no stage fails, the callable is run once on its frame, on the heap as it was, and what
follows enters no callable; if the callable breaks off, the call shows `#NULL!`. -/
theorem runExport_stages {b : Bridge} (hr : b.registry.BuiltIn) (nested : Nested) (e : Export)
    (args : List HostValue) {s : MarshalState} (hs : s.memo.Truthful b.registry) :
    (∀ err, earliestFailure? b.registry e.descriptor s.store.heap args = some err →
      ∃ s', Still s s' ∧ ∀ c : Callable,
        b.runExport nested { e with callable := c } args s = some (.error err.code, s')) ∧
      (earliestFailure? b.registry e.descriptor s.store.heap args = none →
        ∃ frame s₁, Still s s₁ ∧ ∀ c : Callable,
          b.runExport nested { e with callable := c } args s =
            ((c frame).run b.registry nested >>= b.finish e.descriptor)
              (s₁.note (frame.entry e.descriptor)) ∧
          ∀ answer s₂, (c frame).run b.registry nested (s₁.note (frame.entry e.descriptor)) =
              some (answer, s₂) →
            ∃ host s₃, b.runExport nested { e with callable := c } args s = some (host, s₃) ∧
              Quiet s₂ s₃ ∧ ∀ reason, answer = .error reason →
                host = .error .null ∧ s₃.store.heap = s₂.store.heap) := by
  obtain ⟨answer, s₁, hrun, hfailure, hstill, -⟩ :=
    checks_prepare hr b.settings e.descriptor args s hs rfl
  rw [← hfailure]
  cases answer with
  | error err =>
    refine ⟨?_, fun h => by cases h⟩
    intro err' herr
    obtain rfl : err = err' := Option.some.inj herr
    have hnoted : Still s₁ (s₁.note (.failed e.descriptor.name err)) := still_note s₁ rfl
    refine ⟨_, hstill.trans hnoted, fun c => ?_⟩
    exact runExport_of_error (e := { e with callable := c }) hrun
  | ok frame =>
    refine ⟨fun err h => ?_, fun _ => ⟨frame, s₁, hstill, fun c => ?_⟩⟩
    · cases h
    have hcall : b.runExport nested { e with callable := c } args s = _ :=
      runExport_of_ok (e := { e with callable := c }) hrun
    refine ⟨hcall, fun answer s₂ hended => ?_⟩
    rw [hcall, callM_bind_of_some hended]
    exact exists_finish e.descriptor answer s₂

/-- A receiver that is not live, together with an argument that does not decode: the argument decides
the error. With a live receiver and a truth value the callable is run. -/
theorem runExport_stages_stale :
    let b : Bridge := ⟨{}, Converter.defaults, .empty⟩
    let rename := Descriptor.method "Rename" "Person" [.boolean] (some .string)
    let e : Export := ⟨⟨1⟩, rename, fun _ => Action.fail "never"⟩
    let nested : Nested := fun _ _ _ => none
    let heap := (Heap.empty.mint ⟨⟨0⟩, "Person", .text "Ada"⟩).2
    let s : MarshalState := ⟨⟨heap, []⟩, .empty⟩
    let stale : List HostValue := [.object ⟨"Person", ⟨7⟩⟩, .string "yes"]
    let good : List HostValue := [.object ⟨"Person", ⟨1⟩⟩, .boolean true]
    earliestFailure? b.registry e.descriptor s.store.heap stale =
        some (.noConverter "String" "boolean") ∧
      (∃ s', Still s s' ∧ ∀ c : Callable,
        b.runExport nested { e with callable := c } stale s = some (.error .value, s')) ∧
      earliestFailure? b.registry e.descriptor s.store.heap good = none ∧
      ∃ frame s₁, Still s s₁ ∧ ∀ c : Callable,
        b.runExport nested { e with callable := c } good s =
          ((c frame).run b.registry nested >>= b.finish e.descriptor)
            (s₁.note (frame.entry rename)) := by
  intro b rename e nested heap s stale good
  have hs : s.memo.Truthful b.registry := Memo.truthful_empty _
  have hstale : earliestFailure? b.registry e.descriptor s.store.heap stale =
      some (.noConverter "String" "boolean") := by
    simp only [b, e, rename, s, heap, stale]
    cbv
  have hgood : earliestFailure? b.registry e.descriptor s.store.heap good = none := by
    simp only [b, e, rename, s, heap, good]
    cbv
  have hstopped := (runExport_stages Registry.builtIn_defaults nested e stale hs).1 _ hstale
  obtain ⟨frame, s₁, hstill, hcall⟩ :=
    (runExport_stages Registry.builtIn_defaults nested e good hs).2 hgood
  exact ⟨hstale, hstopped, hgood, frame, s₁, hstill, fun c => (hcall c).1⟩

end Gridcall
