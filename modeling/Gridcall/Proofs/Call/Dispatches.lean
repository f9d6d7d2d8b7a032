import Gridcall.Proofs.Call.Overloads
import Gridcall.Proofs.Call.Steps

/-!
# How many calls a call takes

A callable may call further exports, and these may call others. If every callable pays for its calls out
of its arguments, a call comes to an end, and the arguments bound how deep calls nest and how many there
are.

* `MarshalState.dispatches` : the calls that the journal tells of. `Idle` says that there were no further
  ones;
* `CallM.Settles depth k act` : however deep calls may nest, if only `depth` deep, `act` has one outcome,
  after at most `k` dispatches;
* `Action.Spends b k` : the further calls of an action have together at most `k` arguments, each call
  counted as one more;
* `Bridge.Frugal` : no callable spends more than it has arguments;
* `settles_call?` : calls of such a bridge.
-/

namespace Gridcall

open Relation (ReflTransGen)

variable {α β : Type} {r : Registry} {b : Bridge} {depth depth' k k' n : Nat} {s s' : MarshalState}

/-! ## Dispatches -/

/-- Whether an event tells of a call: one that reaches an export, or one whose target is not known. -/
def Event.isDispatch : Event → Bool
  | opened _ _ => true
  | unknownId _ => true
  | unknownName _ => true
  | _ => false

def MarshalState.dispatches (s : MarshalState) : Nat := s.store.journal.countP Event.isDispatch

/-- From `s` to `s'` there were no calls. -/
def Idle (s s' : MarshalState) : Prop := s'.dispatches = s.dispatches

theorem dispatches_note {e : Event} (he : e.isDispatch = true) (s : MarshalState) :
    (s.note e).dispatches = s.dispatches + 1 := List.countP_cons_of_pos he

theorem idle_note {e : Event} (he : e.isDispatch = false) (s : MarshalState) : Idle s (s.note e) :=
  List.countP_cons_of_neg (by simp [he])

theorem idle_of_steps (h : ReflTransGen Idle s s') : Idle s s' := by
  induction h with
  | refl => exact rfl
  | tail _ hstep ih => exact Eq.trans hstep ih

theorem idle_resolve (m : Mapping) (s : MarshalState) : Idle s (resolve r m s).2 := by
  unfold resolve
  split
  · exact rfl
  · exact idle_note rfl s

theorem idle_release (handle : Handle) (s : MarshalState) :
    Idle s { s with store := (s.store.release handle).2 } := by
  unfold Idle MarshalState.dispatches Store.release
  split <;> rfl

theorem conversionSteps_idle (r : Registry) : ConversionSteps r Idle where
  look := idle_resolve
  create _ _ _ := rfl
  mint _ s := idle_note rfl s
  release := idle_release

theorem idle_prepare (r : Registry) (settings : Settings) (d : Descriptor) (args : List HostValue)
    (s : MarshalState) : Idle s (prepare r settings d args s).2 :=
  idle_of_steps (moves_prepare (conversionSteps_idle r) (fun _ _ _ s => idle_note rfl s) settings d args s)

/-! ## Computations that settle -/

/-- From every state, `act` has one and the same outcome for all bounds on how deep calls may nest from
`depth` on, and there are at most `k` calls on the way. -/
def CallM.Settles (depth k : Nat) (act : Nat → CallM α) : Prop :=
  ∀ s, ∃ p, (∀ bound, depth ≤ bound → act bound s = some p) ∧ p.2.dispatches ≤ s.dispatches + k

namespace CallM.Settles

theorem of_idle {act : CallM α} (h : ∀ s, ∃ p, act s = some p ∧ Idle s p.2) :
    Settles depth 0 fun _ => act := by
  intro s
  obtain ⟨p, hp, hidle⟩ := h s
  exact ⟨p, fun _ _ => hp, Nat.le_of_eq hidle⟩

theorem toCall {act : MarshalM α} (h : ∀ s, Idle s (act s).2) : Settles depth 0 fun _ => act.toCall :=
  .of_idle fun s => ⟨act s, rfl, h s⟩

theorem mono {act : Nat → CallM α} (h : Settles depth k act) (hdepth : depth ≤ depth') (hk : k ≤ k') :
    Settles depth' k' act := by
  intro s
  obtain ⟨p, hp, hcount⟩ := h s
  exact ⟨p, fun bound hbound => hp bound (hdepth.trans hbound), by omega⟩

theorem bind {act : Nat → CallM α} {next : Nat → α → CallM β} (hact : Settles depth k act)
    (hnext : ∀ a, Settles depth k' fun bound => next bound a) :
    Settles depth (k + k') fun bound => act bound >>= next bound := by
  intro s
  obtain ⟨⟨a, s₁⟩, hp, hcount⟩ := hact s
  obtain ⟨q, hq, hcount'⟩ := hnext a s₁
  refine ⟨q, fun bound hbound => ?_, ?_⟩
  · exact (callM_bind_of_some (hp bound hbound)).trans (hq bound hbound)
  · dsimp only at hcount
    omega

end CallM.Settles

/-! ## What an action spends on calls -/

/-- The number of exports that a call to a target may try; an unknown target counts as one. -/
def Bridge.tries (b : Bridge) : Target → Nat
  | .id _ => 1
  | .overloads ids => ids.length
  | .name name => ((b.exports.idsOf? name).map List.length).getD 1

def Request.isCall : Request → Bool
  | call _ _ => true
  | _ => false

/-- What an action spends on further calls: `k` is enough to pay for the arguments of each of them and
for the call itself, once for every export that it may try. -/
inductive Action.Spends (b : Bridge) : Nat → Action α → Prop
  | done (k : Nat) (value : α) : Spends b k (.done value)
  | stop (k : Nat) (reason : Breakdown) : Spends b k (.stop reason)
  | ask {k : Nat} {request : Request} {next : request.Answer → Action α}
      (hrequest : request.isCall = false) (hnext : ∀ answer, Spends b k (next answer)) :
      Spends b k (.ask request next)
  | call {k : Nat} {target : Target} {args : List HostValue}
      {next : Except UnknownExport HostValue → Action α} (htries : 0 < b.tries target)
      (hnext : ∀ answer, Spends b k (next answer)) :
      Spends b (b.tries target * (args.length + 1) + k) (.ask (.call target args) next)

/-- An action that makes no further calls spends nothing. -/
theorem Action.spends_of_only {a : Action α} (h : a.Only fun request => request.isCall = false)
    (b : Bridge) (k : Nat) : a.Spends b k := by
  induction h with
  | done value => exact .done k value
  | stop reason => exact .stop k reason
  | ask request next hrequest _ ih => exact .ask hrequest ih

/-- No callable spends more on further calls than the number of arguments that it was called with. -/
def Bridge.Frugal (b : Bridge) : Prop :=
  ∀ e ∈ b.exports.table, ∀ args frame s s',
    prepare b.registry b.settings e.descriptor args s = (.ok frame, s') →
      (e.callable frame).Spends b args.length

theorem settles_answer {request : Request} (h : request.isCall = false) :
    CallM.Settles depth 0 fun bound => request.answer b.registry (b.call? bound) := by
  cases request with
  | call target args => cases h
  | convert request =>
    exact .of_idle fun s =>
      ⟨_, rfl, idle_of_steps (moves_request (conversionSteps_idle b.registry) request s)⟩

/-- Calls with fewer than `n` arguments settle, within what is paid for them. -/
def Bridge.SettlesBelow (b : Bridge) (n : Nat) : Prop :=
  ∀ target args, args.length < n →
    CallM.Settles n (b.tries target * (args.length + 1)) fun bound => b.call? bound target args

theorem settles_run (hbelow : b.SettlesBelow n) {a : Action α}
    (h : a.Spends b k) (hk : k ≤ n) :
    CallM.Settles n k fun bound => a.run b.registry (b.call? bound) := by
  induction h with
  | done k value => exact fun s => ⟨_, fun _ _ => rfl, Nat.le_add_right _ _⟩
  | stop k reason => exact fun s => ⟨_, fun _ _ => rfl, Nat.le_add_right _ _⟩
  | ask hrequest _ ih =>
    have hask := (settles_answer (b := b) hrequest).bind fun answer => ih answer hk
    rwa [Nat.zero_add] at hask
  | @call k target args next htries _ ih =>
    have hpaid : args.length + 1 ≤ b.tries target * (args.length + 1) :=
      Nat.le_mul_of_pos_left _ htries
    exact (hbelow target args (by omega)).bind fun answer => ih answer (by omega)

/-! ## Calls -/

theorem settles_finish (d : Descriptor) (answer : Except Breakdown Managed) :
    CallM.Settles depth 0 fun _ => b.finish d answer := by
  refine .of_idle fun s => ?_
  cases answer with
  | error reason => exact ⟨_, rfl, idle_note rfl s⟩
  | ok v =>
    obtain ⟨result, s', hencode⟩ : ∃ result s', encodeResult b.registry d v s = (result, s') :=
      ⟨_, _, rfl⟩
    have hidle : Idle s (encodeResult b.registry d v s).2 :=
      idle_of_steps (moves_encodeResult (conversionSteps_idle b.registry) d v s)
    unfold Bridge.finish
    simp only [hencode] at hidle ⊢
    cases result with
    | ok host => exact ⟨_, rfl, hidle⟩
    | error err => exact ⟨_, rfl, (idle_note rfl s').trans hidle⟩

theorem length_coerceHandles (settings : Settings) (args : List HostValue) :
    (coerceHandles settings args).length = args.length := by
  unfold coerceHandles
  split
  · rw [List.length_map]
  · rfl

section Calls

variable {args : List HostValue} (hb : b.Frugal)
  (hbelow : b.SettlesBelow args.length)

include hb hbelow

theorem settles_runExport {e : Export} (he : e ∈ b.exports.table) :
    CallM.Settles args.length args.length fun bound =>
      b.runExport (b.call? bound) e (coerceHandles b.settings args) := by
  intro s
  obtain ⟨answer, s₁, hprepare⟩ : ∃ answer s₁,
    prepare b.registry b.settings e.descriptor (coerceHandles b.settings args) s = (answer, s₁) :=
      ⟨_, _, rfl⟩
  have hidle := idle_prepare b.registry b.settings e.descriptor (coerceHandles b.settings args) s
  rw [hprepare] at hidle
  cases answer with
  | error err =>
    refine ⟨_, fun _ _ => runExport_of_error hprepare, ?_⟩
    exact (Nat.le_of_eq ((idle_note rfl s₁).trans hidle)).trans (Nat.le_add_right _ _)
  | ok frame =>
    have hspends := hb e he _ frame s s₁ hprepare
    rw [length_coerceHandles] at hspends
    obtain ⟨p, hp, hcount⟩ := (settles_run hbelow hspends (Nat.le_refl _)).bind
      (settles_finish e.descriptor) (s₁.note (frame.entry e.descriptor))
    have hentry : Idle s (s₁.note (frame.entry e.descriptor)) := (idle_note rfl s₁).trans hidle
    exact ⟨p, fun bound hbound => (runExport_of_ok hprepare).trans (hp bound hbound), hentry ▸ hcount⟩

theorem settles_callId (id : ExportId) :
    CallM.Settles args.length (args.length + 1) fun bound => b.callId (b.call? bound) id args := by
  intro s
  cases hfind : b.exports.find? id with
  | none =>
    refine ⟨_, fun _ _ => callId_of_none hfind, ?_⟩
    rw [dispatches_note rfl]
    omega
  | some e =>
    obtain ⟨p, hp, hcount⟩ := settles_runExport hb hbelow (List.mem_of_find?_eq_some hfind)
      (s.note (.opened id e.descriptor.name))
    refine ⟨(.ok p.1, p.2.note .closed), fun bound hbound => ?_, ?_⟩
    · exact (callId_of_some hfind).trans (congrArg (Option.map _) (hp bound hbound))
    · have hclosed : (p.2.note .closed).dispatches = p.2.dispatches := idle_note rfl p.2
      rw [dispatches_note rfl] at hcount
      dsimp only
      omega

theorem settles_callOverloads (ids : List ExportId) (last : HostValue) :
    CallM.Settles args.length (ids.length * (args.length + 1)) fun bound =>
      b.callOverloads (b.call? bound) args ids last := by
  induction ids generalizing last with
  | nil => exact fun s => ⟨_, fun _ _ => rfl, Nat.le_add_right _ _⟩
  | cons id ids ih =>
    intro s
    obtain ⟨⟨answer, s₁⟩, hcall, hcount⟩ := settles_callId hb hbelow id s
    rw [List.length_cons, Nat.succ_mul]
    dsimp only at hcount
    cases answer with
    | error unknown =>
      exact ⟨_, fun bound hbound => callOverloads_of_error (hcall bound hbound), by dsimp only; omega⟩
    | ok v =>
      cases hv : v.isError with
      | false =>
        exact ⟨_, fun bound hbound => callOverloads_of_value (hcall bound hbound) hv, by dsimp only; omega⟩
      | true =>
        obtain ⟨code, rfl⟩ := exists_of_isError hv
        obtain ⟨p, hp, hcount'⟩ := ih (.error code) s₁
        refine ⟨p, fun bound hbound => ?_, by omega⟩
        exact (callOverloads_of_code (hcall bound hbound)).trans (hp bound hbound)

theorem settles_callTarget (target : Target) :
    CallM.Settles args.length (b.tries target * (args.length + 1)) fun bound =>
      b.callTarget (b.call? bound) target args := by
  cases target with
  | id id =>
    have hcall := settles_callId hb hbelow id
    rwa [← Nat.one_mul (args.length + 1)] at hcall
  | overloads ids => exact settles_callOverloads hb hbelow ids _
  | name name =>
    unfold Bridge.tries Bridge.callTarget
    dsimp only
    cases b.exports.idsOf? name with
    | none =>
      refine fun s => ⟨(.error (.name name), s.note (.unknownName name)), fun _ _ => rfl, ?_⟩
      rw [dispatches_note rfl, Option.map_none, Option.getD_none]
      omega
    | some ids => exact settles_callOverloads hb hbelow ids _

end Calls

/-- Calls of a frugal bridge end: with one level of nesting more than there are arguments, each of them
has the outcome that it has with any greater number, and every export that is tried takes at most one
call for itself and one for each argument. -/
theorem settles_call? (hb : b.Frugal) (target : Target)
    (args : List HostValue) :
    CallM.Settles (args.length + 1) (b.tries target * (args.length + 1)) fun bound =>
      b.call? bound target args := by
  -- on the number of arguments, which is smaller for all further calls
  induction hn : args.length using Nat.strong_induction_on generalizing target args with
  | _ n ih =>
    subst hn
    have hbelow : b.SettlesBelow args.length := fun target' args' hlt =>
      (ih args'.length hlt target' args' rfl).mono hlt (Nat.le_refl _)
    intro s
    obtain ⟨p, hp, hcount⟩ := settles_callTarget hb hbelow target s
    refine ⟨p, fun bound hbound => ?_, hcount⟩
    obtain ⟨bound, rfl⟩ := Nat.exists_eq_add_of_le' hbound
    exact hp _ (Nat.le_add_left _ bound)

end Gridcall
