import Gridcall.Proofs.Call.Binding
import Gridcall.Proofs.Call.Dispatches
import Gridcall.Proofs.Call.SpelledHandles
import Gridcall.Proofs.Call.Unaffected
import Gridcall.Proofs.Marshal.RootCells
import Gridcall.Proofs.Sample.Exports

/-!
# Calls by name

One export of the library calls the export that its first argument names, with the other arguments, and
it may name itself. Since a name is used up by every such call, calls come to an end, and nothing but the
name makes a difference between the call and the call that it makes.

* `Sample.delegator` : the export;
* `Sample.plain_of_mem` : the other exports make no calls;
* `Sample.frugal_bridge` : so no callable of the library spends more than it has arguments, and every call
  of a program ends (`Sample.settles_call`);
* `CallM.seen` : what can be seen of a computation, its answer and the heap that it leaves;
* `Sample.callId_delegator` : a call by name is the call that it makes, whose answer is handed on;
* `Sample.call_construct` : both for all calls of a program.
-/

namespace Gridcall

/-! ## Requests and outcomes -/

/-- Whether a request is neither for a further call nor for the counters of the registry. -/
def Request.isPlain : Request → Bool
  | convert request => !request.isForCounters
  | call _ _ => false

/-- What can be seen of a computation: its answer and the heap that it leaves. -/
def CallM.seen {α : Type} (act : CallM α) (s : MarshalState) : Option (α × Heap) :=
  (act s).map fun p => (p.1, p.2.store.heap)

theorem CallM.Unaffected.seen_eq {α : Type} {r : Registry} {act : CallM α} {s s' : MarshalState}
    (h : CallM.Unaffected r act) (hs : s.memo.Truthful r) (hs' : s'.memo.Truthful r)
    (hheap : s.store.heap = s'.store.heap) : act.seen s = act.seen s' := by
  have hrel := h s s' hs hs' hheap
  unfold seen
  generalize act s = x at hrel ⊢
  generalize act s' = x' at hrel ⊢
  cases hrel with
  | none => rfl
  | some hboth => exact congrArg some (Prod.ext hboth.1.answer hboth.1.heap)

namespace Sample

variable {e : Export} {args rest : List HostValue} {settings : Settings} {frame : CallFrame}
  {s s' : MarshalState} {c name : String} {first : Managed}

/-! ## The callables -/

def delegator : Export :=
  ⟨⟨6⟩, (Descriptor.function "Construct" "Reflection" [.string, .array .value] (some .object)).asVariadic,
    construct⟩

theorem delegator_mem : delegator ∈ exports := by
  simp [exports, delegator]

/-- All other exports go without further calls. -/
theorem plain_of_mem (he : e ∈ exports) (hne : e ≠ delegator) (frame : CallFrame) :
    (e.callable frame).Only fun request => request.isPlain = true := by
  simp only [exports, List.mem_cons, List.not_mem_nil, or_false] at he
  rcases he with rfl | rfl | rfl | rfl | rfl | rfl | rfl
  · refine (frame.only_arg _ _).bind fun name => ?_
    have hcreate : (Action.convert (.create person (.record person name))).Only
        fun request => request.isPlain = true := Action.only_convert rfl
    exact hcreate.bind fun o => .done _
  · exact (frame.only_receiverAs _).bind fun name => .done _
  · exact (frame.only_arg _ _).bind fun start => (frame.only_arg _ _).bind fun parts => .done _
  · exact (frame.only_arg _ _).bind fun xs => .done _
  · exact (frame.only_arg _ _).bind fun rows => .done _
  · exact absurd rfl hne
  · refine (frame.only_arg _ _).bind fun a => (frame.only_arg _ _).bind fun b => ?_
    dsimp only
    split
    · exact .done _
    · exact .stop _

def handOn : Except UnknownExport HostValue → Action Managed
  | .ok v => .done (.value v)
  | .error unknown => Action.fail unknown.message

/-- The callable makes one call if its first argument reads as text. -/
theorem construct_of_ok (hargs : frame.args = [first, .array .value (rest.map .value)])
    (hread : first.read .string = .ok name) :
    construct frame = .ask (.call (.name name) rest) handOn := by
  have hfirst : frame.arg .string 0 = .done name := by
    refine arg_of_ok ?_ hread
    rw [hargs]
    rfl
  have hvalues : (Managed.array .value (rest.map .value)).read (.list .value) = .ok rest :=
    read_list .value (fun _ => rfl) .value rest
  have hrest : frame.arg (.list .value) 1 = .done rest := by
    refine arg_of_ok ?_ hvalues
    rw [hargs]
    rfl
  unfold construct
  rw [hfirst, hrest]
  refine congrArg (Dialogue.ask (Request.call (.name name) rest)) (funext fun answer => ?_)
  cases answer <;> rfl

theorem construct_of_error {e : ReadError} (hargs : frame.args = [first, .array .value (rest.map .value)])
    (hread : first.read .string = .error e) : ∃ reason, construct frame = .stop reason := by
  have hzero : frame.args[0]? = some first := by
    rw [hargs]
    rfl
  obtain ⟨reason, hfirst⟩ := arg_of_error hzero hread
  refine ⟨reason, ?_⟩
  unfold construct
  rw [hfirst]
  rfl

/-! ## What is spent -/

theorem prepare_delegator (settings : Settings) (args : List HostValue) (s : MarshalState) :
    prepare Converter.defaults settings delegator.descriptor args s =
      (bindPositional Converter.defaults [.string] args >>= fun head => pure
        ⟨delegator.descriptor, none, head ++ [.array .value ((args.drop 1).map .value)]⟩)
          (s.note (.decoding "Construct" args settings.logArguments)) := by
  have hparams : delegator.descriptor.params = [.string] ++ [.array .value] := rfl
  rw [prepare_of_static (by decide), bindArguments_of_tail hparams rfl, bind_assoc]
  simp only [pure_bind]
  rfl

theorem args_of_prepare_delegator
    (h : prepare Converter.defaults settings delegator.descriptor args s = (.ok frame, s')) :
    ∃ first, frame.args = [first, .array .value ((args.drop 1).map .value)] ∧
      (args = [] → first = .null) := by
  rw [prepare_delegator, bind_eq_ok_iff] at h
  obtain ⟨head, s₁, hhead, hframe⟩ := h
  cases hframe
  obtain ⟨first, rfl⟩ := List.length_eq_one_iff.mp (bindPositional_eq_ok_iff.mp hhead).length_eq
  refine ⟨first, rfl, ?_⟩
  rintro rfl
  cases hhead
  rfl

theorem tries_name (settings : Settings) (name : String) : (bridge settings).tries (.name name) = 1 := by
  show (((bridge settings).exports.idsOf? name).map List.length).getD 1 = 1
  rcases idsOf?_cases settings name with hnone | ⟨e, -, -, hids⟩
  · rw [hnone]
    rfl
  · rw [hids]
    rfl

/-- The name is one argument, and there is one less for the call. -/
theorem spends_construct (settings : Settings)
    (hargs : frame.args = [first, .array .value ((args.drop 1).map .value)])
    (hnil : args = [] → first = .null) : (construct frame).Spends (bridge settings) args.length := by
  cases hread : first.read .string with
  | error e =>
    obtain ⟨reason, hstop⟩ := construct_of_error hargs hread
    rw [hstop]
    exact .stop _ reason
  | ok name =>
    rw [construct_of_ok hargs hread]
    cases args with
    | nil =>
      rw [hnil rfl] at hread
      cases hread
    | cons arg rest =>
      have hcall : Action.Spends (bridge settings)
          ((bridge settings).tries (.name name) * (rest.length + 1) + 0)
          (.ask (.call (.name name) rest) handOn) := by
        refine .call ?_ fun answer => ?_
        · rw [tries_name]
          exact Nat.one_pos
        · cases answer with
          | ok v => exact .done _ _
          | error unknown => exact .stop _ _
      rwa [tries_name, Nat.one_mul] at hcall

theorem frugal_bridge (settings : Settings) : (bridge settings).Frugal := by
  intro e he args frame s s' hprepare
  have he : e ∈ exports := he
  by_cases hdelegator : e = delegator
  · subst hdelegator
    obtain ⟨first, hargs, hnil⟩ := args_of_prepare_delegator hprepare
    exact spends_construct settings hargs hnil
  · refine Action.spends_of_only ((plain_of_mem he hdelegator frame).mono fun request hplain => ?_) _ _
    cases request with
    | convert request => rfl
    | call target args => cases hplain

/-- A call that a program makes ends, as with any bound on how deep calls nest that is greater than the
number of arguments. -/
theorem settles_call (settings : Settings) (target : Target) (args : List HostValue) (s : MarshalState) :
    ∃ answer s', (bridge settings).call target args s = some (answer, s') ∧
      (∀ bound, args.length < bound →
        (bridge settings).call? bound target args s = some (answer, s')) ∧
      s'.dispatches ≤ s.dispatches + (bridge settings).tries target * (1 + args.length) := by
  obtain ⟨⟨answer, s'⟩, hcall, hcount⟩ :=
    settles_call? (b := bridge settings) (frugal_bridge settings) target args s
  refine ⟨answer, s', hcall _ ?_, hcall, ?_⟩
  · show args.length + 1 ≤ args.length + 1000
    omega
  · rwa [Nat.add_comm 1]

/-! ## What is seen -/

/-- No callable of the library looks at the counters of the registry. -/
theorem closed_bridge (settings : Settings) : (bridge settings).Closed fun _ => True := by
  intro e he _ frame
  have he : e ∈ exports := he
  by_cases hdelegator : e = delegator
  · subst hdelegator
    refine (frame.only_arg _ _).bind fun name => (frame.only_arg _ _).bind fun args => ?_
    have hcall : (Action.call (.name name) args).Only (Request.Within (bridge settings) fun _ => True) := by
      refine .ask _ _ ((bridge settings).leads_true (.name name)) fun answer => ?_
      cases answer with
      | ok v => exact .done _
      | error unknown => exact .stop _
    exact hcall.bind fun v => .done _
  · refine (plain_of_mem he hdelegator frame).mono fun request hplain => ?_
    cases request with
    | convert request =>
      have hcounters : request.isForCounters = false := by simpa [Request.isPlain] using hplain
      exact hcounters
    | call target args => cases hplain

theorem prepare_delegator_string (settings : Settings) (hs : s.memo.Truthful Converter.defaults)
    (c : String) (rest : List HostValue) :
    ∃ frame s₁, prepare Converter.defaults settings delegator.descriptor (.string c :: rest) s =
        (.ok frame, s₁) ∧ frame.args = [.string c, .array .value (rest.map .value)] ∧
      s₁.store.heap = s.store.heap ∧ s₁.memo.Truthful Converter.defaults := by
  have hread : (onHeap (decode Converter.defaults (.string c) .string)).Gives
      (s.note (.decoding "Construct" (.string c :: rest) settings.logArguments)).store.heap (· = .string c) :=
    gives_decode rfl (fun _ => rfl) rfl rfl
  obtain ⟨m, s₁, hdecode, hheap, hs₁, rfl⟩ := hread.run (oblivious_decode Registry.blind_defaults _ _) hs
  have hhead : bindPositional Converter.defaults [.string] (.string c :: rest)
      (s.note (.decoding "Construct" (.string c :: rest) settings.logArguments)) =
        (.ok [.string c], s₁) := bind_of_ok hdecode
  rw [prepare_delegator]
  exact ⟨_, s₁, bind_of_ok hhead, rfl, hheap, hs₁⟩

/-- An answer as it is handed on. That the name is not known becomes an error code. -/
def handedOn : Except UnknownExport HostValue → Except UnknownExport HostValue
  | .ok v => .ok v
  | .error _ => .ok (.error .null)

/-- A call by name is the call that it makes, made on the same heap. -/
theorem callId_delegator (nested : Nested) (hs : s.memo.Truthful Converter.defaults)
    (hargs : coerceHandles settings args = .string c :: rest) :
    ∃ s₁, s₁.store.heap = s.store.heap ∧ s₁.memo.Truthful Converter.defaults ∧
      CallM.seen ((bridge settings).callId nested delegator.id args) s =
        (CallM.seen (nested (.name c) rest) s₁).map fun p => (handedOn p.1, p.2) := by
  obtain ⟨frame, s₁, hprepare, hframe, hheap, hs₁⟩ :=
    prepare_delegator_string (s := s.note (.opened ⟨6⟩ "Construct")) settings hs c rest
  rw [← hargs] at hprepare
  refine ⟨s₁.note (frame.entry delegator.descriptor), hheap, hs₁, ?_⟩
  have hcall : (bridge settings).callId nested delegator.id args s = _ :=
    callId_of_prepare_ok (find?_of_mem settings delegator_mem) hprepare
  have hask : delegator.callable frame = .ask (.call (.name c) rest) handOn := construct_of_ok hframe rfl
  unfold CallM.seen
  rw [hcall, hask, Action.run, Dialogue.run, LawfulMonad.bind_assoc, callM_bind]
  show Option.map _ (Option.map _ ((nested (.name c) rest _).bind _)) = _
  generalize s₁.note (frame.entry delegator.descriptor) = s₂
  cases nested (.name c) rest s₂ with
  | none => rfl
  | some p =>
    obtain ⟨answer, s₃⟩ := p
    cases answer <;> rfl

/-! ## Calls by name -/

theorem seen_call?_construct (hs : s.memo.Truthful Converter.defaults) (hc : settings.KeepsText c)
    (depth : Nat) (rest : List HostValue) :
    ((bridge settings).call? (depth + 1) (.name "Construct") (.string c :: rest)).seen s =
      (((bridge settings).call? depth (.name c) rest).seen s).map fun p => (handedOn p.1, p.2) := by
  obtain ⟨s₁, hheap, hs₁, hcall⟩ := callId_delegator ((bridge settings).call? depth) hs
    (coerceHandles_cons_string hc rest)
  rw [call?_congr (b := bridge settings) (coerceHandles_idem settings rest)] at hcall
  have hsame : ((bridge settings).call? depth (.name c) rest).seen s₁ =
      ((bridge settings).call? depth (.name c) rest).seen s :=
    (unaffected_call? Registry.blind_defaults (closed_bridge settings) depth _ rest
      ((bridge settings).leads_true (.name c))).seen_eq hs₁ hs hheap
  rw [hsame] at hcall
  rw [← hcall]
  exact congrArg (Option.map _) (callTarget_of_targets settings delegator_mem .name _ _ s)

/-- A call to a name of the library has an answer to hand on. -/
theorem handedOn_of_registered (h : ((bridge settings).exports.idsOf? c).isSome) (depth : Nat)
    (rest : List HostValue) (s : MarshalState) :
    (((bridge settings).call? depth (.name c) rest).seen s).map (fun p => (handedOn p.1, p.2)) =
      ((bridge settings).call? depth (.name c) rest).seen s := by
  cases depth with
  | zero => rfl
  | succ depth =>
    rcases idsOf?_cases settings c with hnone | ⟨e, he, rfl, -⟩
    · rw [hnone] at h
      cases h
    · unfold CallM.seen
      cases hcall : (bridge settings).call? (depth + 1) (.name e.descriptor.name) rest s with
      | none => rfl
      | some p =>
        have hfind : ((bridge settings).exports.find? e.id).isSome := by
          rw [find?_of_mem settings he]
          rfl
        have hid := hcall
        rw [Bridge.call?, callTarget_of_targets settings he .name] at hid
        obtain ⟨v, hv⟩ := eq_ok_of_callId hfind hid
        simp only [Option.map_some, hv, handedOn]

theorem seen_call_construct (hs : s.memo.Truthful Converter.defaults) (hc : settings.KeepsText c)
    (rest : List HostValue) :
    ((bridge settings).call (.name "Construct") (.string c :: rest)).seen s =
      if ((bridge settings).exports.idsOf? c).isSome then ((bridge settings).call (.name c) rest).seen s
      else some (.ok (.error .null), s.store.heap) := by
  have hcall : ((bridge settings).call (.name "Construct") (.string c :: rest)).seen s =
      (((bridge settings).call (.name c) rest).seen s).map fun p => (handedOn p.1, p.2) :=
    seen_call?_construct hs hc (rest.length + 1000) rest
  rw [hcall]
  split
  · next h => exact handedOn_of_registered h _ rest s
  · next h =>
    have hunknown : (bridge settings).call (.name c) rest s =
        some (.error (.name c), s.note (.unknownName c)) := by
      show (bridge settings).callTarget _ (.name c) rest s = _
      rw [callTarget_name, if_neg h]
    unfold CallM.seen
    rw [hunknown]
    rfl

/-- **Calls by name.** Every call of the library ends, whatever it goes to and whatever the state is, and
it makes no more further calls than it has arguments, neither one inside the other nor altogether; where
exports are tried in turn, this is so for every try. And to call an export by name through the export that
does so, or through any number of these calls, is to call it: with any settings and after any history the
answer is the same, an error code as well, and so is the heap, so that no second handle is given out. For
a name that the library does not know the answer is `#NULL!`, and the heap is as it was. -/
theorem call_construct (settings : Settings) :
    (∀ target args s, ∃ answer s', (bridge settings).call target args s = some (answer, s') ∧
      (∀ bound, args.length < bound →
        (bridge settings).call? bound target args s = some (answer, s')) ∧
      s'.dispatches ≤ s.dispatches + (bridge settings).tries target * (1 + args.length)) ∧
    (∀ id, (bridge settings).tries (.id id) = 1) ∧ (∀ name, (bridge settings).tries (.name name) = 1) ∧
    (∀ ids, (bridge settings).tries (.overloads ids) = ids.length) ∧
    ∀ s, (bridge settings).Reached s → ∀ c, settings.KeepsText c → ∀ n rest,
      ((bridge settings).call (.name "Construct")
          (List.replicate n (.string "Construct") ++ .string c :: rest)).seen s =
        if ((bridge settings).exports.idsOf? c).isSome then
          ((bridge settings).call (.name c) rest).seen s
        else some (.ok (.error .null), s.store.heap) := by
  refine ⟨settles_call settings, fun _ => rfl, tries_name settings, fun _ => rfl,
    fun s hs c hc n rest => ?_⟩
  have hs := truthful_of_reached hs
  induction n with
  | zero => exact seen_call_construct hs hc rest
  | succ n ih =>
    have hself : settings.KeepsText "Construct" := keepsText_of_notMem (by decide) settings
    rw [List.replicate_succ, List.cons_append, seen_call_construct hs hself, ← ih]
    rfl

/-- A person that is made by name, and by name once more: with three arguments there are three calls. And a
name that is not known. -/
theorem call_construct_person :
    let b := bridge {}
    let s : MarshalState := ⟨.empty, .empty⟩
    let person : List HostValue := [.string "Person", .string "Ada"]
    (∃ s', b.call (.name "Construct") (.string "Construct" :: person) s =
        some (.ok (.object ⟨"Person", ⟨1⟩⟩), s') ∧
      s'.store.heap.stats = ⟨1, 1, 0⟩ ∧ s'.dispatches = 3) ∧
    (b.call (.name "Construct") (.string "Construct" :: person)).seen s =
      (b.call (.name "Person") [.string "Ada"]).seen s ∧
    (b.call (.name "Construct") [.string "Nowhere", .string "Ada"]).seen s =
      some (.ok (.error .null), s.store.heap) := by
  intro b s person
  have hs : b.Reached s := .start _
  obtain ⟨hends, -, -, -, hthrough⟩ := call_construct {}
  refine ⟨?_, hthrough s hs "Person" (keepsText_of_notMem (by decide) _) 1 [.string "Ada"],
    hthrough s hs "Nowhere" (keepsText_of_notMem (by decide) _) 0 [.string "Ada"]⟩
  obtain ⟨answer, s', hcall, hbound, -⟩ :=
    hends (.name "Construct") (.string "Construct" :: person) s
  have hrun : (b.call? 4 (.name "Construct") (.string "Construct" :: person) s).map
      (fun p => (p.1, p.2.store.heap.stats, p.2.dispatches)) =
        some (.ok (.object ⟨"Person", ⟨1⟩⟩), ⟨1, 1, 0⟩, 3) := by
    simp only [b, s, person]
    cbv
  rw [hbound 4 (Nat.lt_succ_self 3)] at hrun
  obtain ⟨rfl, hrest⟩ := Prod.mk.inj (Option.some.inj hrun)
  obtain ⟨hstats, hcount⟩ := Prod.mk.inj hrest
  exact ⟨s', hcall, hstats, hcount⟩

end Sample

end Gridcall
