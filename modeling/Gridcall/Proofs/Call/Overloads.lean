import Gridcall.Proofs.Call.Registration

/-!
# Overloads

Exports that are tried in turn are called one after the other, until one of them answers with something
other than an error code.

* `b.Refuse nested args ids s codes s'` : every one of the exports is called and answers with an error
  code, each from the state that the one before it left;
* `b.Resolve nested args ids s answer s'` : how trying exports in turn ends. All of them refuse, or the
  ones before some export do and that export answers, or it is not registered;
* `callOverloads_eq_some_iff`, `callOverloads_eq_none_iff` : the loop ends like this and in no other way;
* `callTarget_overloads` : the same of calls to lists of exports and to names.
-/

namespace Gridcall

variable {b : Bridge} {nested : Nested} {args : List HostValue} {ids : List ExportId} {id : ExportId}
  {s s₁ s' : MarshalState} {codes : List ErrorCode} {last : HostValue}
  {answer : Except UnknownExport HostValue}

namespace Bridge

/-- The exports are called once each and in their order, all with the same arguments and each from the
state that the one before it left. Each answers with an error code. -/
inductive Refuse (b : Bridge) (nested : Nested) (args : List HostValue) :
    List ExportId → MarshalState → List ErrorCode → MarshalState → Prop
  | nil (s : MarshalState) : Refuse b nested args [] s [] s
  | cons {id : ExportId} {ids : List ExportId} {s s₁ s' : MarshalState} {code : ErrorCode}
      {codes : List ErrorCode} (hcall : b.callId nested id args s = some (.ok (.error code), s₁))
      (hrest : Refuse b nested args ids s₁ codes s') :
      Refuse b nested args (id :: ids) s (code :: codes) s'

/-- How trying exports in turn ends. -/
inductive Resolve (b : Bridge) (nested : Nested) (args : List HostValue) :
    List ExportId → MarshalState → Except UnknownExport HostValue → MarshalState → Prop
  /-- The last refusal is the answer; without any export to try it is `#NAME?`. -/
  | refused {ids : List ExportId} {s s' : MarshalState} {codes : List ErrorCode}
      (hall : b.Refuse nested args ids s codes s') :
      Resolve b nested args ids s (.ok (.error (codes.getLast?.getD .name))) s'
  | answered {before : List ExportId} {id : ExportId} (after : List ExportId)
      {s s₁ s' : MarshalState} {codes : List ErrorCode} {v : HostValue}
      (hbefore : b.Refuse nested args before s codes s₁)
      (hcall : b.callId nested id args s₁ = some (.ok v, s')) (hv : v.isError = false) :
      Resolve b nested args (before ++ id :: after) s (.ok v) s'
  | unregistered {before : List ExportId} {id : ExportId} (after : List ExportId)
      {s s₁ : MarshalState} {codes : List ErrorCode}
      (hbefore : b.Refuse nested args before s codes s₁) (hid : ∀ e ∈ b.exports.table, e.id ≠ id) :
      Resolve b nested args (before ++ id :: after) s (.error (.id id)) (s₁.note (.unknownId id))

end Bridge

/-! ## One call of the loop -/

theorem find?_eq_none_iff_unregistered {x : Exports} :
    x.find? id = none ↔ ∀ e ∈ x.table, e.id ≠ id := by
  simp [Exports.find?]

/-- A call by number ends with a value, or its number is not registered. -/
theorem callId_cases (hcall : b.callId nested id args s = some (answer, s₁)) :
    (∃ v, answer = .ok v) ∨
      (∀ e ∈ b.exports.table, e.id ≠ id) ∧ answer = .error (.id id) ∧ s₁ = s.note (.unknownId id) := by
  cases hfind : b.exports.find? id with
  | some e => exact .inl (eq_ok_of_callId (hfind ▸ rfl) hcall)
  | none =>
    rw [callId_of_none hfind] at hcall
    cases hcall
    exact .inr ⟨find?_eq_none_iff_unregistered.mp hfind, rfl, rfl⟩

theorem exists_of_isError {v : HostValue} (h : v.isError = true) : ∃ code, v = .error code := by
  cases v with
  | error code => exact ⟨code, rfl⟩
  | _ => cases h

theorem callOverloads_of_none (h : b.callId nested id args s = none) :
    b.callOverloads nested args (id :: ids) last s = none := by
  unfold Bridge.callOverloads
  exact callM_bind_of_none h

theorem callOverloads_of_error {unknown : UnknownExport}
    (h : b.callId nested id args s = some (.error unknown, s₁)) :
    b.callOverloads nested args (id :: ids) last s = some (.error unknown, s₁) := by
  unfold Bridge.callOverloads
  rw [callM_bind_of_some h]
  rfl

theorem callOverloads_of_value {v : HostValue} (h : b.callId nested id args s = some (.ok v, s₁))
    (hv : v.isError = false) : b.callOverloads nested args (id :: ids) last s = some (.ok v, s₁) := by
  unfold Bridge.callOverloads
  rw [callM_bind_of_some h]
  simp only [hv, Bool.false_eq_true, if_false]
  rfl

theorem callOverloads_of_code {code : ErrorCode}
    (h : b.callId nested id args s = some (.ok (.error code), s₁)) :
    b.callOverloads nested args (id :: ids) last s = b.callOverloads nested args ids (.error code) s₁ := by
  rw [Bridge.callOverloads, callM_bind_of_some h]
  rfl

/-! ## The loop -/

/-- Exports that refuse are passed over: the loop goes on behind them, and keeps the last refusal. -/
theorem Bridge.Refuse.callOverloads_append (h : b.Refuse nested args ids s codes s₁)
    (after : List ExportId) (last : ErrorCode) :
    b.callOverloads nested args (ids ++ after) (.error last) s =
      b.callOverloads nested args after (.error (codes.getLast?.getD last)) s₁ := by
  induction h generalizing last with
  | nil s => rfl
  | @cons id ids s s₁ s' code codes hcall hrest ih =>
    rw [List.cons_append, callOverloads_of_code hcall, ih, List.getLast?_cons, Option.getD_some]

theorem Bridge.Resolve.callOverloads_eq (h : b.Resolve nested args ids s answer s') :
    b.callOverloads nested args ids (.error .name) s = some (answer, s') := by
  cases h with
  | refused hall =>
    have hrun := hall.callOverloads_append [] .name
    rwa [List.append_nil] at hrun
  | answered after hbefore hcall hv =>
    rw [hbefore.callOverloads_append, callOverloads_of_value hcall hv]
  | unregistered after hbefore hid =>
    rw [hbefore.callOverloads_append,
      callOverloads_of_error (callId_of_none (find?_eq_none_iff_unregistered.mpr hid))]

theorem Bridge.Refuse.concat (h : b.Refuse nested args ids s codes s₁) {code : ErrorCode}
    (hcall : b.callId nested id args s₁ = some (.ok (.error code), s')) :
    b.Refuse nested args (ids ++ [id]) s (codes ++ [code]) s' := by
  induction h with
  | nil s => exact .cons hcall (.nil s')
  | cons hfirst _ ih => exact .cons hfirst (ih hcall)

/-- Exports that are tried in turn come to an end, or to a call that has no outcome. -/
theorem exists_resolve_or_none (b : Bridge) (nested : Nested) (args : List HostValue)
    (ids : List ExportId) (s : MarshalState) :
    (∃ answer s', b.Resolve nested args ids s answer s') ∨
      ∃ before id after codes s₁, ids = before ++ id :: after ∧
        b.Refuse nested args before s codes s₁ ∧ b.callId nested id args s₁ = none := by
  induction ids using List.reverseRecOn with
  | nil => exact .inl ⟨_, s, .refused (.nil s)⟩
  | append_singleton ids id ih =>
    rcases ih with ⟨answer, s', h⟩ | ⟨before, id', after, codes, s₁, rfl, hbefore, hnone⟩
    · cases h with
      | answered after hbefore hcall hv =>
        rw [List.append_assoc, List.cons_append]
        exact .inl ⟨_, _, .answered _ hbefore hcall hv⟩
      | unregistered after hbefore hid =>
        rw [List.append_assoc, List.cons_append]
        exact .inl ⟨_, _, .unregistered _ hbefore hid⟩
      | refused hall =>
        cases hcall : b.callId nested id args s' with
        | none => exact .inr ⟨ids, id, [], _, s', rfl, hall, hcall⟩
        | some p =>
          obtain ⟨answer, s₁⟩ := p
          obtain ⟨v, rfl⟩ | ⟨hid, -, -⟩ := callId_cases hcall
          · cases hv : v.isError with
            | false => exact .inl ⟨_, _, .answered [] hall hcall hv⟩
            | true =>
              obtain ⟨code, rfl⟩ := exists_of_isError hv
              exact .inl ⟨_, _, .refused (hall.concat hcall)⟩
          · exact .inl ⟨_, _, .unregistered [] hall hid⟩
    · rw [List.append_assoc, List.cons_append]
      exact .inr ⟨before, id', after ++ [id], codes, s₁, rfl, hbefore, hnone⟩

theorem callOverloads_eq_some_iff : b.callOverloads nested args ids (.error .name) s = some (answer, s') ↔
    b.Resolve nested args ids s answer s' := by
  refine ⟨fun hrun => ?_, fun h => h.callOverloads_eq⟩
  rcases exists_resolve_or_none b nested args ids s with
    ⟨answer', s₁, h⟩ | ⟨before, id, after, codes, s₁, rfl, hbefore, hnone⟩
  · obtain ⟨rfl, rfl⟩ := Prod.mk.inj (Option.some.inj (hrun.symm.trans h.callOverloads_eq))
    exact h
  · rw [hbefore.callOverloads_append, callOverloads_of_none hnone] at hrun
    cases hrun

theorem callOverloads_eq_none_iff : b.callOverloads nested args ids (.error .name) s = none ↔
    ∃ before id after codes s₁, ids = before ++ id :: after ∧
      b.Refuse nested args before s codes s₁ ∧ b.callId nested id args s₁ = none := by
  constructor
  · intro hrun
    rcases exists_resolve_or_none b nested args ids s with ⟨answer, s₁, h⟩ | h
    · cases hrun.symm.trans h.callOverloads_eq
    · exact h
  · rintro ⟨before, id, after, codes, s₁, rfl, hbefore, hnone⟩
    rw [hbefore.callOverloads_append, callOverloads_of_none hnone]

theorem callTarget_name (b : Bridge) (nested : Nested) (args : List HostValue) (s : MarshalState)
    (name : String) : b.callTarget nested (.name name) args s =
      if (b.exports.idsOf? name).isSome then
        b.callTarget nested (.overloads (b.exports.overloads name)) args s
      else some (.error (.name name), s.note (.unknownName name)) := by
  unfold Exports.overloads Bridge.callTarget
  dsimp only
  cases b.exports.idsOf? name <;> rfl

/-- **Exports are tried in turn until one answers.** A call to a list of exports ends exactly as trying
them in turn does: each is called once, with the same arguments and from the state that the one before
it left, and the first that does not refuse decides, by its answer or by not being registered. The state
is the one that this call left, so what stands behind it is not called. If all refuse, the last refusal
is the answer, and `#NAME?` if there are none. Such a call has no outcome only if a call that it comes to
has none.

A call to a name goes to the exports that are registered under it. If there are none, it says so. -/
theorem callTarget_overloads (b : Bridge) (nested : Nested) (args : List HostValue) (s : MarshalState) :
    (∀ ids answer s', b.callTarget nested (.overloads ids) args s = some (answer, s') ↔
      b.Resolve nested args ids s answer s') ∧
    (∀ ids, b.callTarget nested (.overloads ids) args s = none ↔
      ∃ before id after codes s₁, ids = before ++ id :: after ∧
        b.Refuse nested args before s codes s₁ ∧ b.callId nested id args s₁ = none) ∧
    ∀ name, b.callTarget nested (.name name) args s =
      if (b.exports.idsOf? name).isSome then
        b.callTarget nested (.overloads (b.exports.overloads name)) args s
      else some (.error (.name name), s.note (.unknownName name)) :=
  ⟨fun _ _ _ => callOverloads_eq_some_iff, fun _ => callOverloads_eq_none_iff,
    callTarget_name b nested args s⟩

/-- The first export stores an object and fails, the second answers whether one object was stored so far,
and the third number is not registered. Behind the second it is not reached, before it it is. -/
theorem callTarget_overloads_second :
    let storing : Export := ⟨⟨1⟩, .function "Pick" "Demo" [] none, fun _ => do
      let o ← Action.convert (.create "Person" (.text "Ada"))
      let _ ← Action.convert (.mint o)
      Action.fail "no"⟩
    let counting : Export := ⟨⟨2⟩, .function "Pick" "Demo" [] (some .boolean), fun _ => do
      return .boolean ((← Action.convert .heapStats).minted == 1)⟩
    let b : Bridge := ⟨{}, Converter.defaults, ⟨[storing, counting], [("Pick", [⟨1⟩, ⟨2⟩])]⟩⟩
    let nested : Nested := fun _ _ _ => none
    let ids : List ExportId := [⟨1⟩, ⟨2⟩, ⟨3⟩]
    (∃ s', b.Resolve nested [] ids .empty (.ok (.boolean true)) s' ∧
      s'.store.heap.stats = ⟨1, 1, 0⟩) ∧
    (∃ s', b.Resolve nested [] [⟨1⟩] .empty (.ok (.error .null)) s' ∧
      s'.store.heap.stats = ⟨1, 1, 0⟩) ∧
    (∃ s', b.Resolve nested [] [⟨1⟩, ⟨3⟩, ⟨2⟩] .empty (.error (.id ⟨3⟩)) s' ∧
      s'.store.heap.stats = ⟨1, 1, 0⟩) ∧
    b.callTarget nested (.name "Pick") [] .empty =
      b.callTarget nested (.overloads [⟨1⟩, ⟨2⟩]) [] .empty := by
  intro storing counting b nested ids
  obtain ⟨hlists, -, hnames⟩ := callTarget_overloads b nested [] .empty
  have hends : ∀ ids answer stats, (b.callTarget nested (.overloads ids) [] .empty).map
      (fun p => (p.1, p.2.store.heap.stats)) = some (answer, stats) →
      ∃ s', b.Resolve nested [] ids .empty answer s' ∧ s'.store.heap.stats = stats := by
    rintro ids answer stats hrun
    obtain ⟨⟨answer, s'⟩, hcall, heq⟩ := Option.map_eq_some_iff.mp hrun
    cases heq
    exact ⟨s', (hlists ids answer s').mp hcall, rfl⟩
  have hsecond : (b.callTarget nested (.overloads ids) [] .empty).map
      (fun p => (p.1, p.2.store.heap.stats)) = some (.ok (.boolean true), ⟨1, 1, 0⟩) := by
    simp only [b, storing, counting, nested, ids]
    cbv
  have hfirst : (b.callTarget nested (.overloads [⟨1⟩]) [] .empty).map
      (fun p => (p.1, p.2.store.heap.stats)) = some (.ok (.error .null), ⟨1, 1, 0⟩) := by
    simp only [b, storing, counting, nested]
    cbv
  have hthird : (b.callTarget nested (.overloads [⟨1⟩, ⟨3⟩, ⟨2⟩]) [] .empty).map
      (fun p => (p.1, p.2.store.heap.stats)) = some (.error (.id ⟨3⟩), ⟨1, 1, 0⟩) := by
    simp only [b, storing, counting, nested]
    cbv
  exact ⟨hends _ _ _ hsecond, hends _ _ _ hfirst, hends _ _ _ hthird, hnames "Pick"⟩

/-- No exports are registered under a name: trying none of them in turn would answer `#NAME?`, but a call
to the name reports that it is unknown. -/
theorem callTarget_name_ne_overloads :
    let b : Bridge := ⟨{}, Converter.defaults, .empty⟩
    let nested : Nested := fun _ _ _ => none
    b.exports.overloads "Nowhere" = [] ∧
      (b.callTarget nested (.overloads (b.exports.overloads "Nowhere")) [] .empty).map Prod.fst =
        some (.ok (.error .name)) ∧
      (b.callTarget nested (.name "Nowhere") [] .empty).map Prod.fst =
        some (.error (.name "Nowhere")) :=
  ⟨rfl, rfl, rfl⟩

end Gridcall
