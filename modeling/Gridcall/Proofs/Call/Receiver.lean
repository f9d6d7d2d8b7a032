import Gridcall.Proofs.Call.Steps

/-!
# Receivers

An instance call finds its receiver under the handle of its first argument, and the receiver is of the
class that declares the callable. Neither text that spells a handle nor the class that a reference claims
can bring another object in.

* `Bridge.EnteredSafely` : a callable was entered with the receiver that its arguments demand;
* `enteredSafely_of_steps` : so is every callable that a run enters, however deep calls nest;
* `Bridge.Shows` : a call by number shows an error code;
* `Descriptor.Verdict` : whether the first argument is a receiver, or else which error code is shown;
* `Bridge.BindsReceiver` : what the first argument of an instance call decides;
* `callId_receiver` : both for every bridge.
-/

namespace Gridcall

open Relation (ReflTransGen)

variable {b : Bridge} {nested : Nested} {id : ExportId} {e : Export} {args : List HostValue}
  {s s' s'' : MarshalState}

/-! ## Every entry of a run -/

/-- Between `s` and `s'` a callable was entered, with the receiver that the arguments of its call
demanded on the heap as it was then. -/
def Bridge.EnteredSafely (b : Bridge) (s s' : MarshalState)
    (callee : String × Option Object × List Managed) : Prop :=
  ∃ e ∈ b.exports.table, ∃ (args : List HostValue) (frame : CallFrame) (now : MarshalState),
    callee = (e.descriptor.name, frame.receiver, frame.args) ∧
      e.descriptor.Receives now.store.heap (coerceHandles b.settings args) frame.receiver ∧
        ReflTransGen b.Step s now ∧ ReflTransGen b.Step (now.note (frame.entry e.descriptor)) s'

theorem Bridge.EnteredSafely.tail {callee : String × Option Object × List Managed}
    (h : b.EnteredSafely s s' callee) (hstep : b.Step s' s'') : b.EnteredSafely s s'' callee := by
  obtain ⟨e, he, args, frame, now, hcallee, hreceiver, hbefore, hafter⟩ := h
  exact ⟨e, he, args, frame, now, hcallee, hreceiver, hbefore, hafter.tail hstep⟩

/-- One step enters no callable, or one with the receiver that the arguments demand. -/
theorem quiet_or_entry_of_step (hstep : b.Step s s') :
    Quiet s s' ∨ ∃ e ∈ b.exports.table, ∃ (args : List HostValue) (frame : CallFrame),
      s' = s.note (frame.entry e.descriptor) ∧
      e.descriptor.Receives s.store.heap (coerceHandles b.settings args) frame.receiver := by
  cases hstep with
  | look m => exact .inl (still_resolve m s).quiet
  | create className contents => exact .inl rfl
  | mint o => exact .inl rfl
  | release handle => exact .inl (quiet_release handle s)
  | note event h => exact .inl (still_note s h).quiet
  | enter e he args frame _ hreceiver => exact .inr ⟨e, he, args, frame, rfl, hreceiver⟩

theorem enteredSafely_of_steps (hsteps : ReflTransGen b.Step s s') :
    ∃ entered, s'.callees = entered ++ s.callees ∧ ∀ callee ∈ entered, b.EnteredSafely s s' callee := by
  induction hsteps with
  | refl => exact ⟨[], rfl, by simp⟩
  | tail hbefore hstep ih =>
    obtain ⟨entered, hcallees, hsafe⟩ := ih
    have hkept := fun callee hcallee => (hsafe callee hcallee).tail hstep
    rcases quiet_or_entry_of_step hstep with hquiet | ⟨e, he, args, frame, rfl, hreceiver⟩
    · exact ⟨entered, Eq.trans hquiet hcallees, hkept⟩
    · refine ⟨(e.descriptor.name, frame.receiver, frame.args) :: entered, ?_, ?_⟩
      · rw [List.cons_append, ← hcallees]
        rfl
      · rintro callee hcallee
        rcases List.mem_cons.mp hcallee with rfl | hcallee
        · exact ⟨e, he, args, frame, _, rfl, hreceiver, hbefore, .refl⟩
        · exact hkept callee hcallee

/-! ## Error codes -/

def Bridge.Shows (b : Bridge) (nested : Nested) (id : ExportId) (args : List HostValue)
    (s : MarshalState) (code : ErrorCode) : Prop :=
  ∃ s', b.callId nested id args s = some (.ok (.error code), s')

theorem callId_of_prepare_error (hfind : b.exports.find? id = some e) {err : CallError}
    (h : prepare b.registry b.settings e.descriptor (coerceHandles b.settings args)
      (s.note (.opened id e.descriptor.name)) = (.error err, s')) :
    b.callId nested id args s =
      some (.ok (.error err.code), (s'.note (.failed e.descriptor.name err)).note .closed) := by
  rw [callId_of_some hfind, runExport_of_error h]
  rfl

theorem callId_of_prepare_ok (hfind : b.exports.find? id = some e) {frame : CallFrame}
    (h : prepare b.registry b.settings e.descriptor (coerceHandles b.settings args)
      (s.note (.opened id e.descriptor.name)) = (.ok frame, s')) :
    b.callId nested id args s = (((e.callable frame).run b.registry nested >>= b.finish e.descriptor)
      (s'.note (frame.entry e.descriptor))).map fun p => (.ok p.1, p.2.note .closed) := by
  rw [callId_of_some hfind, runExport_of_ok h]

/-- If the arguments could be decoded, it remains to resolve the receiver. -/
theorem prepare_of_bind (hmethod : e.descriptor.kind = .method) {first : HostValue}
    {rest : List HostValue} (hargs : coerceHandles b.settings args = first :: rest)
    {decoded : List Managed} (hbind : bindArguments b.registry e.descriptor rest
      (s.note (.decoding e.descriptor.name rest b.settings.logArguments)) = (.ok decoded, s')) :
    prepare b.registry b.settings e.descriptor (coerceHandles b.settings args) s =
      ((e.descriptor.resolveReceiver s'.store.heap (some first)).map fun receiver =>
        { descriptor := e.descriptor, receiver, args := decoded }, s') := by
  have hreceiver : e.descriptor.receiverFailure? (first :: rest) = none := by
    simp [Descriptor.receiverFailure?]
  have hown : e.descriptor.ownArgs (first :: rest) = rest := if_pos hmethod
  have harg : e.descriptor.receiverArg? (first :: rest) = some first := if_pos hmethod
  rw [hargs, prepare_of_none hreceiver, hown, bind_of_ok hbind, frame_eq, harg]

/-- Without a receiver among the arguments there is nothing to decode first. -/
theorem shows_of_nil (hfind : b.exports.find? id = some e) (hmethod : e.descriptor.kind = .method)
    (hargs : coerceHandles b.settings args = []) : b.Shows nested id args s .null := by
  have hreceiver : e.descriptor.receiverFailure? [] = some missingReceiver := if_pos ⟨hmethod, rfl⟩
  have hprepare : prepare b.registry b.settings e.descriptor [] (s.note (.opened id e.descriptor.name)) =
      (.error missingReceiver, s.note (.opened id e.descriptor.name)) := prepare_of_some hreceiver _
  rw [← hargs] at hprepare
  exact ⟨_, callId_of_prepare_error hfind hprepare⟩

/-! ## One call -/

/-- Whether the first argument of an instance call is the handle of a live object of the declaring class,
or else which error code is shown. -/
def Descriptor.Verdict (d : Descriptor) (heap : Heap) (enters : Prop) (shows : ErrorCode → Prop) :
    HostValue → Prop
  | .nil => shows .null
  | .missing => shows .null
  | .object reference =>
    match heap.get? reference.handle with
    | none => shows .ref
    | some o => if o.className = d.declaring then enters else shows .value
  | _ => shows .value

theorem verdict_of_resolveReceiver {d : Descriptor} {heap : Heap} {enters : Prop}
    {shows : ErrorCode → Prop} {first : HostValue}
    (hok : ∀ receiver, d.resolveReceiver heap (some first) = .ok receiver → enters)
    (herror : ∀ err, d.resolveReceiver heap (some first) = .error err → shows err.code) :
    d.Verdict heap enters shows first := by
  cases first with
  | object reference =>
    unfold Descriptor.resolveReceiver Heap.getOfClass? at hok herror
    unfold Descriptor.Verdict
    cases hfound : heap.get? reference.handle with
    | none =>
      simp only [hfound] at herror ⊢
      exact herror _ rfl
    | some o =>
      simp only [hfound, Option.map_some] at hok herror ⊢
      split <;> rename_i hclass
      · simp only [if_pos hclass] at hok
        exact hok _ rfl
      · simp only [if_neg hclass] at herror
        exact herror _ rfl
  | _ => exact herror _ rfl

/-- The callable is run, on a frame whose receiver is the object under the handle of the first argument
once text that spells handles is replaced. The object is of the declaring class. -/
def Bridge.Enters (b : Bridge) (nested : Nested) (e : Export) (args : List HostValue)
    (s : MarshalState) : Prop :=
  ∃ frame s₁ reference o,
    prepare b.registry b.settings e.descriptor (coerceHandles b.settings args)
      (s.note (.opened e.id e.descriptor.name)) = (.ok frame, s₁) ∧
    b.callId nested e.id args s = (((e.callable frame).run b.registry nested >>= b.finish e.descriptor)
      (s₁.note (frame.entry e.descriptor))).map (fun p => (.ok p.1, p.2.note .closed)) ∧
    (coerceHandles b.settings args).head? = some (.object reference) ∧
    s₁.store.heap.get? reference.handle = some o ∧ frame.receiver = some o ∧
    o.className = e.descriptor.declaring

/-- The call fails with what comes before the callable. -/
def Bridge.FailsBefore (b : Bridge) (nested : Nested) (e : Export) (args : List HostValue)
    (s : MarshalState) : Prop :=
  ∃ err s₁, prepare b.registry b.settings e.descriptor (coerceHandles b.settings args)
      (s.note (.opened e.id e.descriptor.name)) = (.error err, s₁) ∧
    b.callId nested e.id args s =
      some (.ok (.error err.code), (s₁.note (.failed e.descriptor.name err)).note .closed)

/-- What the first argument of an instance call decides. -/
structure Bridge.BindsReceiver (b : Bridge) (nested : Nested) (e : Export) (args : List HostValue)
    (s : MarshalState) : Prop where
  entered : b.Enters nested e args s ∨ b.FailsBefore nested e args s
  absent : args = [] → b.Shows nested e.id args s .null
  /-- If all other arguments decode, the first one decides, on the heap as decoding left it. With the
  converters of the library this is the heap as the call found it. -/
  decided : ∀ first rest decoded s₁, coerceHandles b.settings args = first :: rest →
    bindArguments b.registry e.descriptor rest ((s.note (.opened e.id e.descriptor.name)).note
      (.decoding e.descriptor.name rest b.settings.logArguments)) = (.ok decoded, s₁) →
    e.descriptor.Verdict s₁.store.heap (b.Enters nested e args s) (b.Shows nested e.id args s) first ∧
      (b.registry.BuiltIn → s₁.store.heap = s.store.heap)

theorem enters_of_prepare (nested : Nested) (hfind : b.exports.find? e.id = some e)
    (hmethod : e.descriptor.kind = .method) {frame : CallFrame}
    (h : prepare b.registry b.settings e.descriptor (coerceHandles b.settings args)
      (s.note (.opened e.id e.descriptor.name)) = (.ok frame, s')) : b.Enters nested e args s := by
  have hreceives := receives_of_prepare h
  cases hreceiver : frame.receiver with
  | none =>
    rw [hreceiver] at hreceives
    exact absurd hmethod hreceives
  | some o =>
    rw [hreceiver] at hreceives
    obtain ⟨-, reference, hhead, hget, hclass⟩ := hreceives
    exact ⟨frame, s', reference, o, h, callId_of_prepare_ok hfind h, hhead, hget, hreceiver, hclass⟩

theorem bindsReceiver (nested : Nested) (hfind : b.exports.find? e.id = some e)
    (hmethod : e.descriptor.kind = .method) (args : List HostValue) (s : MarshalState) :
    b.BindsReceiver nested e args s where
  entered := by
    obtain ⟨answer, s₁, hprepare⟩ : ∃ answer s₁,
      prepare b.registry b.settings e.descriptor (coerceHandles b.settings args)
        (s.note (.opened e.id e.descriptor.name)) = (answer, s₁) := ⟨_, _, rfl⟩
    cases answer with
    | error err => exact .inr ⟨err, s₁, hprepare, callId_of_prepare_error hfind hprepare⟩
    | ok frame => exact .inl (enters_of_prepare nested hfind hmethod hprepare)
  absent := by
    rintro rfl
    refine shows_of_nil hfind hmethod ?_
    unfold coerceHandles
    split <;> rfl
  decided first rest decoded s₁ hargs hbind := by
    have hprepare := prepare_of_bind hmethod hargs hbind
    refine ⟨verdict_of_resolveReceiver (fun receiver hok => ?_) (fun err herror => ?_), fun hr => ?_⟩
    · rw [hok] at hprepare
      exact enters_of_prepare nested hfind hmethod hprepare
    · rw [herror] at hprepare
      exact ⟨_, callId_of_prepare_error hfind hprepare⟩
    · have hstill := still_of_steps ((decodes_still hr).bindArguments e.descriptor rest
        ((s.note (.opened e.id e.descriptor.name)).note
          (.decoding e.descriptor.name rest b.settings.logArguments)))
      rw [hbind] at hstill
      exact hstill.heap

/-- **Receivers are of the declaring class.** Whatever calls are made, every callable that is entered has
the receiver that the arguments of its call demand: for an instance call the live object under the handle
of the first argument, which is of the declaring class. And the first argument of an instance call decides
between the receiver and an error code. -/
theorem callId_receiver (b : Bridge) :
    (∀ depth target args s answer s', b.call? depth target args s = some (answer, s') →
        ∃ entered, s'.callees = entered ++ s.callees ∧
          ∀ callee ∈ entered, b.EnteredSafely s s' callee) ∧
      ∀ nested e args s, b.exports.find? e.id = some e → e.descriptor.kind = .method →
        b.BindsReceiver nested e args s := by
  refine ⟨fun depth target args s answer s' hcall => ?_, ?_⟩
  · exact enteredSafely_of_steps (moves_call? b depth target args s _ hcall)
  · intro nested e args s hfind hmethod
    exact bindsReceiver nested hfind hmethod args s

/-- A method of persons, called with texts that spell handles. The handle counts and not the class that
stands before it: the first text finds a person, the second one a booking, and the third one nothing. -/
theorem callId_receiver_text :
    let get : Export := ⟨⟨1⟩, .method "Get" "Person" [] (some .string), fun _ => .done (.string "Ada")⟩
    let b : Bridge := ⟨{}, Converter.defaults, ⟨[get], [("Get", [⟨1⟩])]⟩⟩
    let heap := ((Heap.empty.mint ⟨⟨0⟩, "Person", .text "Ada"⟩).2.mint ⟨⟨1⟩, "Booking", .text "May"⟩).2
    let s : MarshalState := ⟨⟨heap, []⟩, .empty⟩
    let nested : Nested := fun _ _ _ => none
    b.Enters nested get [.string "&Booking-1"] s ∧
      b.Shows nested ⟨1⟩ [.string "&Person-2"] s .value ∧
      b.Shows nested ⟨1⟩ [.string "&Person-3"] s .ref ∧
      b.Shows nested ⟨1⟩ [] s .null ∧
      ∃ answer s', b.call? 1 (.id ⟨1⟩) [.string "&Booking-1"] s = some (answer, s') ∧
        ∃ entered, s'.callees = entered ++ s.callees ∧ entered ≠ [] ∧
          ∀ callee ∈ entered, b.EnteredSafely s s' callee := by
  intro get b heap s nested
  have hfind : b.exports.find? get.id = some get := rfl
  have hcall := (callId_receiver b).2 nested get
  have hcoerced : ∀ n, coerceHandles b.settings [.string n] = [coerceHandle '&' (.string n)] :=
    fun n => rfl
  have hdecided := fun args first hargs => ((hcall args s hfind rfl).decided first [] [] _ hargs rfl).1
  refine ⟨hdecided _ (.object ⟨"Booking", ⟨1⟩⟩) ?_, hdecided _ (.object ⟨"Person", ⟨2⟩⟩) ?_,
    hdecided _ (.object ⟨"Person", ⟨3⟩⟩) ?_, (hcall [] s hfind rfl).absent rfl, ?_⟩
  · cbv
  · cbv
  · cbv
  have hone : (b.call? 1 (.id ⟨1⟩) [.string "&Booking-1"] s).map (fun p => p.2.callees.length) =
      some 1 := by
    simp only [b, get, s, heap]
    cbv
  obtain ⟨⟨answer, s'⟩, hrun, hlength⟩ := Option.map_eq_some_iff.mp hone
  obtain ⟨entered, hcallees, hsafe⟩ :=
    (callId_receiver b).1 1 _ _ s answer s' hrun
  refine ⟨answer, s', hrun, entered, hcallees, ?_, hsafe⟩
  rintro rfl
  simp only [hcallees] at hlength
  cases hlength

end Gridcall
