import Gridcall.Proofs.Call.Steps

/-!
# Calls do not show what a registry remembers

Two states may differ in what was asked before, and so in what is remembered and noted. A call sees
neither: run from both, it ends with one result on one heap, after entering the same callables with the
same receivers and arguments.

* `SameOutcome` : two outcomes that nobody can tell apart, each seen from where its run began;
* `CallM.Unaffected` : from any two states with one heap and truthful memos, a computation has the same
  outcome. The rules for its parts are below it;
* `Request.Within` : a request is not for the counters of the registry, and a call stays within a set of
  exports. `Bridge.Closed` says so of all that the callables of the set request;
* `unaffected_call?` : calls into a closed set;
* `Bridge.Reached` : the states that a bridge can come to, with any history of questions;
* `call?_eq_of_histories` : two histories that end with one heap.
-/

namespace Gridcall

open Relation (ReflTransGen)

variable {α β : Type} {r : Registry} {s s' : MarshalState}

/-! ## Computations that do not show what is remembered -/

/-- One outcome seen from `s` and one seen from `s'`: the same answer and the same heap, after the same
exports were opened and the same callables entered, in the same order, with the same receivers and
arguments. -/
structure SameOutcome (s s' : MarshalState) (p p' : α × MarshalState) : Prop where
  answer : p.1 = p'.1
  heap : p.2.store.heap = p'.2.store.heap
  visits : ∃ visits, p.2.visits = visits ++ s.visits ∧ p'.2.visits = visits ++ s'.visits

/-- From any two states with one heap and truthful memos, `act` has the same outcome, and the memos stay
truthful. -/
def CallM.Unaffected (r : Registry) (act : CallM α) : Prop :=
  ∀ s s' : MarshalState, s.memo.Truthful r → s'.memo.Truthful r → s.store.heap = s'.store.heap →
    Option.Rel (fun p p' => SameOutcome s s' p p' ∧ p.2.memo.Truthful r ∧ p'.2.memo.Truthful r)
      (act s) (act s')

namespace CallM.Unaffected

/-- A computation that stays away from callables, and whose answer depends on the heap only. -/
theorem of_away {act : CallM α} (plain : Heap → α × Heap)
    (h : ∀ s : MarshalState, s.memo.Truthful r → ∃ t, act s = some ((plain s.store.heap).1, t) ∧
      t.store.heap = (plain s.store.heap).2 ∧ Away s t ∧ t.memo.Truthful r) : Unaffected r act := by
  intro s s' hs hs' hheap
  obtain ⟨t, hrun, htheap, haway, ht⟩ := h s hs
  obtain ⟨t', hrun', htheap', haway', ht'⟩ := h s' hs'
  rw [hrun, hrun', ← hheap]
  refine .some ⟨⟨rfl, ?_, [], haway, haway'⟩, ht, ht'⟩
  rw [htheap, htheap', hheap]

theorem toCall {act : MarshalM α} (hact : Oblivious r act) (haway : ∀ s, Away s (act s).2) :
    Unaffected r act.toCall := by
  refine .of_away (onHeap act) fun s hs => ?_
  obtain ⟨t, hrun, hheap, ht⟩ := hact s hs
  have hsame := haway s
  rw [hrun] at hsame
  exact ⟨t, congrArg some hrun, hheap, hsame, ht⟩

/-- A computation that does not fail. -/
theorem of_stateM {act : StateM MarshalState α} (hact : Oblivious r (liftM act))
    (haway : ∀ s, Away s (act s).2) : Unaffected r fun s => some (act s) := by
  refine .of_away (fun heap => ((act ⟨⟨heap, []⟩, .empty⟩).1, (act ⟨⟨heap, []⟩, .empty⟩).2.store.heap))
    fun s hs => ?_
  obtain ⟨t, hrun, hheap, ht⟩ := hact s hs
  obtain ⟨hanswer, rfl⟩ := Prod.mk.inj hrun
  have hanswer : (act s).1 = (act ⟨⟨s.store.heap, []⟩, .empty⟩).1 := Except.ok.inj hanswer
  exact ⟨(act s).2, congrArg (fun a => some (a, (act s).2)) hanswer, hheap, haway s, ht⟩

theorem note (e : Event) : Unaffected r (Gridcall.note e) := by
  intro s s' hs hs' hheap
  refine .some ⟨⟨rfl, hheap, e.visit?.toList, ?_, ?_⟩, hs, hs'⟩
  · show (e :: s.store.journal).filterMap Event.visit? = _
    rw [List.filterMap_cons]
    cases e.visit? <;> rfl
  · show (e :: s'.store.journal).filterMap Event.visit? = _
    rw [List.filterMap_cons]
    cases e.visit? <;> rfl

end CallM.Unaffected

theorem composes_unaffected : CallM.Composes fun _ => CallM.Unaffected r where
  pure a := .of_away (fun heap => (a, heap)) fun s hs => ⟨s, rfl, rfl, rfl, hs⟩
  bind {α β act k} hact hk s s' hs hs' hheap := by
    rw [callM_bind, callM_bind]
    have hfirst := hact s s' hs hs' hheap
    generalize act s = x at hfirst ⊢
    generalize act s' = x' at hfirst ⊢
    cases hfirst with
    | none => exact .none
    | @some p p' h =>
      obtain ⟨a, s₁⟩ := p
      obtain ⟨a', s₁'⟩ := p'
      obtain ⟨⟨hanswer, hheap₁, visits, hvisits, hvisits'⟩, hs₁, hs₁'⟩ := h
      obtain rfl : a = a' := hanswer
      have hrest := hk a s₁ s₁' hs₁ hs₁' hheap₁
      rw [Option.bind_some, Option.bind_some]
      generalize k a s₁ = y at hrest ⊢
      generalize k a s₁' = y' at hrest ⊢
      cases hrest with
      | none => exact .none
      | @some q q' h =>
        obtain ⟨⟨hanswer, hheap₂, later, hlater, hlater'⟩, hs₂, hs₂'⟩ := h
        refine .some ⟨⟨hanswer, hheap₂, later ++ visits, ?_, ?_⟩, hs₂, hs₂'⟩
        · rw [hlater, hvisits, List.append_assoc]
        · rw [hlater', hvisits', List.append_assoc]

/-! ## What comes before and after a callable -/

theorem oblivious_note (e : Event) : Oblivious r (modify fun s => s.note e : MarshalM Unit) :=
  (show Realizes r _ (pure ()) from fun s hs => ⟨s.note e, rfl, rfl, hs⟩).oblivious

theorem unaffected_prepare (hr : r.Blind) (settings : Settings) (d : Descriptor)
    (args : List HostValue) : CallM.Unaffected r (prepare r settings d args).toCall :=
  .toCall (((converses_oblivious r).decodes hr).prepare (fun _ _ _ => oblivious_note _) settings d args)
    fun s => away_of_steps <|
      moves_prepare (conversionSteps_away r) (fun _ _ _ s => away_note rfl s) settings d args s

theorem unaffected_encodeResult (hr : r.Blind) (d : Descriptor) (v : Managed) :
    CallM.Unaffected r (encodeResult r d v).toCall :=
  .toCall (((converses_oblivious r).encodes hr).encodeResult d v) fun s =>
    away_of_steps (moves_encodeResult (conversionSteps_away r) d v s)

/-! ## Callables that do not look at counters -/

variable {b : Bridge} {S : ExportId → Prop} {nested : Nested} {args : List HostValue}

/-- A request is not for the counters of the registry, and a call leads into `S`. -/
def Request.Within (b : Bridge) (S : ExportId → Prop) : Request → Prop
  | convert request => request.isForCounters = false
  | call target _ => b.Leads S target

/-- No callable of `S` looks at the counters of the registry, and their calls stay in `S`. -/
def Bridge.Closed (b : Bridge) (S : ExportId → Prop) : Prop :=
  ∀ e ∈ b.exports.table, S e.id → ∀ frame, (e.callable frame).Only (Request.Within b S)

/-- Further calls into `S` have the same outcome. -/
def Nested.Unaffected (b : Bridge) (S : ExportId → Prop) (nested : Nested) : Prop :=
  ∀ target args, b.Leads S target → CallM.Unaffected b.registry (nested target args)

section Call

variable (hr : b.registry.Blind) (hnested : nested.Unaffected b S)

include hr hnested

theorem unaffected_answer {request : Request} (h : request.Within b S) :
    CallM.Unaffected b.registry (request.answer b.registry nested) := by
  cases request with
  | convert request =>
    have hoblivious := converses_oblivious b.registry
    refine .of_stateM (hoblivious.answers (hoblivious.decodes hr) (hoblivious.encodes hr) h) fun s => ?_
    exact away_of_steps (moves_request (conversionSteps_away b.registry) request s)
  | call target args => exact hnested target args h

theorem unaffected_callTarget (hS : b.Closed S) : Nested.Unaffected b S (b.callTarget nested) := by
  intro target args hleads
  refine composes_unaffected.callTarget (fun event _ => .note event) (fun e he hid args => ?_) hleads args
  exact composes_unaffected.runExport _ .note (unaffected_prepare hr b.settings e.descriptor _)
    (fun frame => composes_unaffected.run (fun _ => unaffected_answer hr hnested) (hS e he hid frame))
    (unaffected_encodeResult hr e.descriptor)

omit hnested in
/-- Calls into a closed set, however deep they nest. -/
theorem unaffected_call? (hS : b.Closed S) (depth : Nat) : Nested.Unaffected b S (b.call? depth) := by
  induction depth with
  | zero => exact fun target args _ s s' _ _ _ => .none
  | succ depth ih => exact unaffected_callTarget hr ih hS

end Call

/-! ## Histories -/

/-- The states that a bridge can come to. In between the host may change the heap in any way; the memo
changes only by what is asked. -/
inductive Bridge.Reached (b : Bridge) : MarshalState → Prop
  | start (store : Store) : Reached b ⟨store, .empty⟩
  | store (s : MarshalState) (store : Store) (hs : Reached b s) : Reached b { s with store }
  | convert (request : Conversion.Request) (s : MarshalState) (hs : Reached b s) :
      Reached b (request.answer b.registry b.registry.outside s).2
  | call (depth : Nat) (target : Target) (args : List HostValue)
      (answer : Except UnknownExport HostValue) (s s' : MarshalState) (hs : Reached b s)
      (hcall : b.call? depth target args s = some (answer, s')) : Reached b s'

theorem truthful_of_step (hstep : b.Step s s') (hs : s.memo.Truthful b.registry) :
    s'.memo.Truthful b.registry := by
  cases hstep with
  | look m =>
    obtain ⟨t, hrun, -, ht⟩ := resolve_of_truthful hs m
    rwa [hrun]
  | _ => exact hs

theorem truthful_of_steps (hsteps : ReflTransGen b.Step s s') (hs : s.memo.Truthful b.registry) :
    s'.memo.Truthful b.registry := by
  induction hsteps with
  | refl => exact hs
  | tail _ hstep ih => exact truthful_of_step hstep ih

/-- Whatever was asked before, remembered answers are true. -/
theorem truthful_of_reached (h : b.Reached s) : s.memo.Truthful b.registry := by
  induction h with
  | start store => exact Memo.truthful_empty _
  | store s store _ ih => exact ih
  | convert request s _ ih => exact truthful_of_steps (moves_request b.conversionSteps request s) ih
  | call depth target args answer s s' _ hcall ih =>
    exact truthful_of_steps (moves_call? b depth target args s _ hcall) ih

/-- **What was asked before does not show.** Two states of one bridge, with the same heap and any two
histories: a call into a set of exports that is closed under calls, none of which looks at the counters
of the registry, has an outcome from both or from none. It answers alike, leaves the same heap, and enters
the same callables in the same order, with the same receivers and arguments. Converters from outside may
look converters up and ask for further conversions, but not for the counters either. -/
theorem call?_eq_of_histories (hr : b.registry.Blind) (hS : b.Closed S) (hs : b.Reached s)
    (hs' : b.Reached s') (hheap : s.store.heap = s'.store.heap) (depth : Nat) {target : Target}
    (htarget : b.Leads S target) (args : List HostValue) :
    Option.Rel (SameOutcome s s') (b.call? depth target args s) (b.call? depth target args s') := by
  have hrel := unaffected_call? hr hS depth target args htarget s s' (truthful_of_reached hs)
    (truthful_of_reached hs') hheap
  generalize b.call? depth target args s = x at hrel ⊢
  generalize b.call? depth target args s' = x' at hrel ⊢
  cases hrel with
  | none => exact .none
  | some h => exact .some h.1

/-- A callable that calls another one by name, after no questions and after two. Its argument is decoded by
a converter from outside that looks a converter up and asks for a further conversion. The counters of the
registry tell the two states apart, be it for a callable or for a converter that looks at them. -/
theorem call?_eq_of_histories_nested :
    let outer : Export := ⟨⟨1⟩, .function "Outer" "Lib" [.array .double] (some .value), fun frame =>
      .ask (.call (.name "Inner") [.string (toString frame.args.length)]) fun
        | .ok v => .done (.value v)
        | .error unknown => Action.fail unknown.message⟩
    let inner : Export := ⟨⟨2⟩, .function "Inner" "Lib" [.char] (some .string), fun frame =>
      .done (frame.args.head?.getD .null)⟩
    let stats : Export := ⟨⟨3⟩, .function "Stats" "Lib" [] (some .boolean), fun _ =>
      .ask (.convert .registryStats) fun stats => .done (.boolean (stats.scans == 0))⟩
    let reading (read : HostValue → Conversion.Action Managed) : ClientConverter :=
      { ClientConverter.labelling .char (some .string) 20 "" with decode := fun _ v => read v }
    let asking := reading fun v => .ask (.decoder .number .double) fun found =>
      if found.isSome then .ask (.decode v .string) fun
        | .ok v => .done v
        | .error e => .stop e
      else .done .null
    let counting := reading fun _ => .ask .registryStats fun stats => .done (.boolean (stats.scans == 1))
    let b (c : ClientConverter) : Bridge := ⟨{}, .client c :: Converter.defaults,
      ⟨[outer, inner, stats], [("Outer", [⟨1⟩]), ("Inner", [⟨2⟩]), ("Stats", [⟨3⟩])]⟩⟩
    let s : MarshalState := ⟨.empty, .empty⟩
    let s' c := afterQueries (b c).registry s [.decoding .array (.array .double), .encoding .int]
    let args : List HostValue := [.array ⟨1, 2, [.number (.zero true), .number (.zero false)]⟩]
    let answer c s id args := ((b c).call? 2 (.id id) args s).map fun p => p.1
    Option.Rel (SameOutcome s (s' asking)) ((b asking).call? 2 (.id ⟨1⟩) args s)
        ((b asking).call? 2 (.id ⟨1⟩) args (s' asking)) ∧
      answer asking s ⟨1⟩ args = some (.ok (.string "1")) ∧
      answer asking s ⟨3⟩ [] = some (.ok (.boolean true)) ∧
      answer asking (s' asking) ⟨3⟩ [] = some (.ok (.boolean false)) ∧
      answer counting s ⟨2⟩ [.string "1"] = some (.ok (.boolean true)) ∧
      answer counting (s' counting) ⟨2⟩ [.string "1"] = some (.ok (.boolean false)) := by
  intro outer inner stats reading asking counting b s s' args answer
  have hblind : (b asking).registry.Blind := by
    rintro c hc
    rcases List.mem_cons.mp hc with rfl | hc
    · refine ⟨fun _ v => .ask _ _ rfl fun found => ?_, fun _ _ => .done _⟩
      cases found with
      | none => exact .done _
      | some found =>
        refine .ask _ _ rfl fun answer => ?_
        cases answer with
        | ok v => exact .done _
        | error e => exact .stop _
    · exact Registry.blind_defaults c hc
  have hclosed : (b asking).Closed fun id => id = ⟨1⟩ ∨ id = ⟨2⟩ := by
    rintro e he hid frame
    obtain rfl | rfl | rfl : e = outer ∨ e = inner ∨ e = stats := by simpa [b] using he
    · refine .ask _ _ ?_ fun answer => ?_
      · rintro id hid
        exact .inr (List.mem_singleton.mp hid)
      · cases answer with
        | ok v => exact .done _
        | error unknown => exact .stop _
    · exact .done _
    · simp [stats] at hid
  have hs : (b asking).Reached s := .start _
  have hs' : (b asking).Reached (s' asking) :=
    .convert (.encoder .int) _ (.convert (.decoder .array (.array .double)) _ hs)
  have hleads : (b asking).Leads (fun id => id = ⟨1⟩ ∨ id = ⟨2⟩) (.id ⟨1⟩) := Or.inl rfl
  have hheap : s.store.heap = (s' asking).store.heap := by
    simp only [s', s, b, asking, reading]
    cbv
  refine ⟨call?_eq_of_histories hblind hclosed hs hs' hheap 2 hleads args, ?_, ?_, ?_, ?_, ?_⟩
  · simp only [answer, s, b, asking, reading, outer, inner, stats, args]
    cbv
  · simp only [answer, s, b, asking, reading, stats]
    cbv
  · simp only [answer, s', s, b, asking, reading, stats]
    cbv
  · simp only [answer, s, b, counting, reading, inner]
    cbv
  · simp only [answer, s', s, b, counting, reading, inner]
    cbv

end Gridcall
