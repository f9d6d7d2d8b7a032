import Gridcall.Proofs.Call.Outcomes

/-!
# Registering callables

The table of exports and its index of names are filled side by side, by registrations some of which
fail. They stay in step: both always tabulate the registrations that succeeded.

* `x.Tabulates done` : the invariant. The table holds the registrations `done`, and under each name
  stand the numbers of those that have it; `Tabulates.register` is the step;
* `registerAll_cases` : several callables are registered one by one, up to the first that fails;
* `Exports.run` : the registrations that succeed when requests are answered in turn, and the table that
  they leave; `tabulates_run` is the run;
* `Exports.x.Faithful done` : what a table answers when `done` was registered;
* `Bridge.b.Knows done` : which calls have a result then;
* `register_run` : both hold after any requests.
-/

namespace Gridcall

inductive RegistrationRequest where
  | one (e : Export)
  /-- One after the other, up to the first that fails. -/
  | several (es : List Export)

def RegistrationRequest.exports : RegistrationRequest → List Export
  | one e => [e]
  | several es => es

variable {done : List Export} {x x' : Exports} {e : Export} {id : ExportId} {name : String}

namespace Exports

/-! ## Requests -/

/-- The table after a request, and the answer to the request. -/
def perform (x : Exports) : RegistrationRequest → Exports × Except RegistrationError Unit
  | .one e => x.register e
  | .several es => x.registerAll es

/-- The callables before the first that fails, when all are registered one by one. -/
def succeeding (x : Exports) : List Export → List Export
  | [] => []
  | e :: es =>
    match x.register e with
    | (x, .ok ()) => e :: x.succeeding es
    | (_, .error _) => []

/-- Answers one more request, after registrations that left a table. -/
def extend (run : List Export × Exports) (request : RegistrationRequest) : List Export × Exports :=
  (run.1 ++ run.2.succeeding request.exports, (run.2.perform request).1)

/-- The registrations that succeed when requests are answered in turn, and the table that they
leave. -/
def run (requests : List RegistrationRequest) : List Export × Exports :=
  requests.foldl extend ([], empty)

/-- Callables are registered one after the other, and none of them fails. -/
inductive Registers : Exports → List Export → Exports → Prop
  | nil (x : Exports) : Registers x [] x
  | cons {x x₁ x' : Exports} {e : Export} {es : List Export} (hfirst : x.register e = (x₁, .ok ()))
      (hrest : Registers x₁ es x') : Registers x (e :: es) x'

/-- A registration that fails leaves the table as it is. -/
theorem register_cases (x : Exports) (e : Export) :
    (∃ x', x.register e = (x', .ok ())) ∨ ∃ err, x.register e = (x, .error err) := by
  unfold register
  split
  · exact .inr ⟨_, rfl⟩
  · split
    · exact .inr ⟨_, rfl⟩
    · exact .inl ⟨_, rfl⟩

theorem perform_eq_registerAll (x : Exports) (request : RegistrationRequest) :
    x.perform request = x.registerAll request.exports := by
  cases request with
  | one e =>
    rcases x.register_cases e with ⟨x', h⟩ | ⟨err, h⟩ <;>
      simp only [perform, RegistrationRequest.exports, registerAll, h]
  | several es => rfl

/-- Several callables are registered one by one: all of them, or those before the first that fails,
whose error is the answer. -/
theorem registerAll_cases (x : Exports) (es : List Export) :
    (∃ x', x.Registers es x' ∧ x.registerAll es = (x', .ok ()) ∧ x.succeeding es = es) ∨
      ∃ before e after x' err, es = before ++ e :: after ∧ x.Registers before x' ∧
        x'.register e = (x', .error err) ∧ x.registerAll es = (x', .error err) ∧
        x.succeeding es = before := by
  induction es generalizing x with
  | nil => exact .inl ⟨x, .nil x, rfl, rfl⟩
  | cons e es ih =>
    rcases x.register_cases e with ⟨x₁, hregister⟩ | ⟨err, hregister⟩
    · have hall : x.registerAll (e :: es) = x₁.registerAll es := by
        simp only [registerAll, hregister]
      have hsucceeding : x.succeeding (e :: es) = e :: x₁.succeeding es := by
        simp only [succeeding, hregister]
      rw [hall, hsucceeding]
      rcases ih x₁ with ⟨x', hok, hanswer, hes⟩ | ⟨before, d, after, x', err, rfl, hok, hrest⟩
      · exact .inl ⟨x', .cons hregister hok, hanswer, congrArg (e :: ·) hes⟩
      · obtain ⟨herr, hanswer, hbefore⟩ := hrest
        exact .inr ⟨e :: before, d, after, x', err, rfl, .cons hregister hok, herr, hanswer,
          congrArg (e :: ·) hbefore⟩
    · refine .inr ⟨[], e, es, x, err, rfl, .nil x, hregister, ?_, ?_⟩
      · simp only [registerAll, hregister]
      · simp only [succeeding, hregister]

/-! ## The invariant -/

/-- The numbers of the callables that have a name, in their order. -/
def idsNamed (done : List Export) (name : String) : List ExportId :=
  (done.filter fun e => e.descriptor.name == name).map Export.id

/-- The table and the index of names hold the registrations `done`. -/
structure Tabulates (x : Exports) (done : List Export) : Prop where
  table : x.table = done
  ids_nodup : (done.map Export.id).Nodup
  /-- A name without registrations does not stand in the index at all. -/
  idsOf?_eq : ∀ name, x.idsOf? name = if idsNamed done name = [] then none else some (idsNamed done name)

theorem tabulates_empty : empty.Tabulates [] := ⟨rfl, List.nodup_nil, fun _ => rfl⟩

theorem lookup_cons_eq_ite (name n : String) (ids : List ExportId)
    (rest : List (String × List ExportId)) :
    List.lookup n ((name, ids) :: rest) = if n = name then some ids else rest.lookup n := by
  rw [List.lookup_cons]
  by_cases h : n = name
  · simp [h]
  · rw [beq_eq_false_iff_ne.mpr h, if_neg h]

theorem lookup_addName (name n : String) (id : ExportId) (names : List (String × List ExportId)) :
    (addName name id names).lookup n =
      if n = name then some ((names.lookup name).getD [] ++ [id]) else names.lookup n := by
  induction names with
  | nil => exact lookup_cons_eq_ite name n [id] []
  | cons entry rest ih =>
    obtain ⟨m, ids⟩ := entry
    unfold addName
    by_cases hm : m = name
    · subst hm
      simp only [beq_self_eq_true, if_true, lookup_cons_eq_ite, Option.getD_some]
      split <;> rfl
    · simp only [beq_eq_false_iff_ne.mpr hm, Bool.false_eq_true, if_false, lookup_cons_eq_ite, ih,
        if_neg (Ne.symm hm)]
      by_cases hn : n = m
      · rw [if_pos hn, if_pos hn, if_neg (hn.trans_ne hm)]
      · rw [if_neg hn, if_neg hn]

theorem idsNamed_snoc (done : List Export) (e : Export) (name : String) :
    idsNamed (done ++ [e]) name =
      if e.descriptor.name = name then idsNamed done name ++ [e.id] else idsNamed done name := by
  unfold idsNamed
  rw [List.filter_append, List.map_append]
  by_cases hname : e.descriptor.name = name <;> simp [hname]

namespace Tabulates

theorem find?_iff (h : x.Tabulates done) : x.find? id = some e ↔ e ∈ done ∧ e.id = id := by
  unfold find?
  rw [h.table]
  constructor
  · intro hfind
    exact ⟨List.mem_of_find?_eq_some hfind, by simpa using List.find?_some hfind⟩
  · rintro ⟨hmem, rfl⟩
    cases hfind : done.find? fun d => d.id == e.id with
    | none => simpa using List.find?_eq_none.mp hfind e hmem
    | some d =>
      have hid : d.id = e.id := by simpa using List.find?_some hfind
      rw [List.inj_on_of_nodup_map h.ids_nodup (List.mem_of_find?_eq_some hfind) hmem hid]

theorem isSome_find?_iff (h : x.Tabulates done) :
    (x.find? id).isSome ↔ ∃ e ∈ done, e.id = id := by
  rw [Option.isSome_iff_exists]
  exact exists_congr fun e => h.find?_iff

theorem find?_eq_none_iff (h : x.Tabulates done) : x.find? id = none ↔ ∀ e ∈ done, e.id ≠ id := by
  rw [← Option.not_isSome_iff_eq_none, h.isSome_find?_iff]
  push Not
  exact Iff.rfl

/-- A callable can be registered if its descriptor has no fault and its number is not taken. -/
theorem register_eq (h : x.Tabulates done) (hfault : e.descriptor.fault? = none)
    (hfree : ∀ d ∈ done, d.id ≠ e.id) :
    x.register e = (⟨x.table ++ [e], addName e.descriptor.name e.id x.names⟩, .ok ()) := by
  unfold Exports.register
  rw [hfault, h.find?_eq_none_iff.mpr hfree]
  rfl

theorem register_eq_of_taken (h : x.Tabulates done) (hfault : e.descriptor.fault? = none)
    (htaken : ∃ d ∈ done, d.id = e.id) : x.register e = (x, .error (.duplicate e.id)) := by
  unfold Exports.register
  rw [hfault]
  exact if_pos (h.isSome_find?_iff.mpr htaken)

theorem snoc (h : x.Tabulates done) (hfree : ∀ d ∈ done, d.id ≠ e.id) :
    Exports.Tabulates ⟨x.table ++ [e], addName e.descriptor.name e.id x.names⟩ (done ++ [e]) where
  table := by rw [h.table]
  ids_nodup := by
    rw [List.map_append, List.map_singleton, List.nodup_append]
    refine ⟨h.ids_nodup, List.nodup_singleton _, fun id hid id' hid' => ?_⟩
    obtain ⟨d, hd, rfl⟩ := List.mem_map.mp hid
    rw [List.mem_singleton.mp hid']
    exact hfree d hd
  idsOf?_eq name := by
    have hlookup := lookup_addName e.descriptor.name name e.id x.names
    have hold := h.idsOf?_eq
    unfold idsOf? at hold ⊢
    rw [hlookup, idsNamed_snoc, hold name, hold e.descriptor.name]
    by_cases hname : name = e.descriptor.name
    · subst hname
      by_cases hnone : idsNamed done e.descriptor.name = [] <;> simp [hnone]
    · rw [if_neg hname, if_neg (Ne.symm hname)]

theorem register (h : x.Tabulates done) (hregister : x.register e = (x', .ok ())) :
    x'.Tabulates (done ++ [e]) := by
  cases hfault : e.descriptor.fault? with
  | some fault => simp [Exports.register, hfault] at hregister
  | none =>
    by_cases htaken : ∃ d ∈ done, d.id = e.id
    · rw [h.register_eq_of_taken hfault htaken] at hregister
      cases hregister
    · push Not at htaken
      rw [h.register_eq hfault htaken] at hregister
      obtain rfl := (Prod.mk.inj hregister).1
      exact h.snoc htaken

theorem registers (h : x.Tabulates done) {es : List Export} (hes : x.Registers es x') :
    x'.Tabulates (done ++ es) := by
  induction hes generalizing done with
  | nil => rwa [List.append_nil]
  | cons hfirst _ ih =>
    rw [List.append_cons]
    exact ih (h.register hfirst)

theorem perform (h : x.Tabulates done) (request : RegistrationRequest) :
    (x.perform request).1.Tabulates (done ++ x.succeeding request.exports) := by
  rw [perform_eq_registerAll]
  rcases registerAll_cases x request.exports with
    ⟨x', hok, hanswer, hes⟩ | ⟨before, e, after, x', err, -, hok, -, hanswer, hbefore⟩
  · rw [hes, hanswer]
    exact h.registers hok
  · rw [hbefore, hanswer]
    exact h.registers hok

end Tabulates

theorem tabulates_run (requests : List RegistrationRequest) :
    (run requests).2.Tabulates (run requests).1 := by
  induction requests using List.reverseRecOn with
  | nil => exact tabulates_empty
  | append_singleton requests request ih =>
    rw [run, List.foldl_append, List.foldl_cons, List.foldl_nil]
    exact ih.perform request

/-! ## What a table answers -/

/-- The answers of a table when `done` was registered. -/
structure Faithful (x : Exports) (done : List Export) : Prop where
  /-- There is one callable per registration, in order of registration. -/
  table_eq : x.table = done
  /-- No number was registered twice. -/
  ids_nodup : (done.map Export.id).Nodup
  /-- A number finds the callable that was registered under it. -/
  find?_iff : ∀ id e, x.find? id = some e ↔ e ∈ done ∧ e.id = id
  /-- The overloads of a name are the numbers of the callables that have it, in their order. -/
  overloads_eq : ∀ name, x.overloads name = idsNamed done name
  /-- No number stands twice among the overloads. -/
  overloads_nodup : ∀ name, (x.overloads name).Nodup
  /-- The list of callables holds each one. -/
  sorted_perm : x.sorted.Perm done
  /-- The list of callables ascends strictly. -/
  sorted_ascending : (x.sorted.map fun e => e.id.raw).Pairwise (· < ·)
  /-- A callable without a name is refused, and the table stays as it is. -/
  emptyName : ∀ e, e.descriptor.name = "" →
    x.register e = (x, .error (.invalid e.descriptor.name .emptyName))
  /-- So is a variadic callable whose last parameter is no array. -/
  noTail : ∀ e, e.descriptor.name ≠ "" → e.descriptor.variadic = true →
    (∀ element, e.descriptor.params.getLast? ≠ some (.array element)) →
      x.register e = (x, .error (.invalid e.descriptor.name .noTail))
  /-- So is a callable whose number is taken. -/
  taken : ∀ e, e.descriptor.name ≠ "" →
    (e.descriptor.variadic = true → ∃ element, e.descriptor.params.getLast? = some (.array element)) →
    (∃ d ∈ done, d.id = e.id) → x.register e = (x, .error (.duplicate e.id))
  /-- Any other callable is registered. -/
  free : ∀ e, e.descriptor.name ≠ "" →
    (e.descriptor.variadic = true → ∃ element, e.descriptor.params.getLast? = some (.array element)) →
    (∀ d ∈ done, d.id ≠ e.id) → ∃ x', x.register e = (x', .ok ())
  /-- Several callables are registered one by one up to the first that fails, whose error is the
  answer. -/
  several : ∀ es, (∃ x', x.Registers es x' ∧ x.registerAll es = (x', .ok ())) ∨
    ∃ before e after x' err, es = before ++ e :: after ∧ x.Registers before x' ∧
      x'.register e = (x', .error err) ∧ x.registerAll es = (x', .error err)

theorem register_of_fault {fault : Descriptor.Fault} (h : e.descriptor.fault? = some fault) :
    x.register e = (x, .error (.invalid e.descriptor.name fault)) := by
  unfold register
  rw [h]

end Exports

namespace Descriptor

variable {d : Descriptor}

theorem tailElement?_eq_none (h : ∀ element, d.params.getLast? ≠ some (.array element)) :
    d.tailElement? = none := by
  unfold tailElement?
  cases hlast : d.params.getLast? with
  | none => split <;> rfl
  | some type =>
    cases type with
    | array element => exact absurd hlast (h element)
    | _ => split <;> rfl

theorem tailElement?_eq_some {element : ManagedType} (hd : d.variadic = true)
    (h : d.params.getLast? = some (.array element)) : d.tailElement? = some element := by
  unfold tailElement?
  rw [if_pos hd, h]
  rfl

theorem fault?_of_emptyName (h : d.name = "") : d.fault? = some .emptyName := by
  unfold fault?
  rw [if_pos (String.isEmpty_iff.mpr h)]

theorem fault?_of_noTail (h : d.name ≠ "") (hd : d.variadic = true)
    (hlast : ∀ element, d.params.getLast? ≠ some (.array element)) : d.fault? = some .noTail := by
  unfold fault?
  rw [if_neg (mt String.isEmpty_iff.mp h), hd, tailElement?_eq_none hlast]
  rfl

theorem fault?_eq_none (h : d.name ≠ "")
    (hd : d.variadic = true → ∃ element, d.params.getLast? = some (.array element)) :
    d.fault? = none := by
  unfold fault?
  rw [if_neg (mt String.isEmpty_iff.mp h)]
  cases hvariadic : d.variadic with
  | false => rfl
  | true =>
    obtain ⟨element, hlast⟩ := hd hvariadic
    rw [tailElement?_eq_some hvariadic hlast]
    rfl

end Descriptor

namespace Exports

theorem sorted_perm_table (x : Exports) : x.sorted.Perm x.table := List.mergeSort_perm _ _

theorem pairwise_sorted (x : Exports) : x.sorted.Pairwise fun a b => a.id.raw ≤ b.id.raw := by
  have htrans : ∀ a b c : Export, a.id.le b.id → b.id.le c.id → a.id.le c.id := fun a b c hab hbc =>
    decide_eq_true (UInt32.le_trans (of_decide_eq_true hab) (of_decide_eq_true hbc))
  have htotal : ∀ a b : Export, a.id.le b.id || b.id.le a.id := fun a b => by
    rw [Bool.or_eq_true, ExportId.le, ExportId.le, decide_eq_true_eq, decide_eq_true_eq]
    exact UInt32.le_total a.id.raw b.id.raw
  exact (List.pairwise_mergeSort htrans htotal x.table).imp fun h => of_decide_eq_true h

namespace Tabulates

theorem sorted_ascending (h : x.Tabulates done) :
    (x.sorted.map fun e => e.id.raw).Pairwise (· < ·) := by
  have hnodup : (x.sorted.map Export.id).Nodup := by
    rw [(x.sorted_perm_table.map Export.id).nodup_iff, h.table]
    exact h.ids_nodup
  rw [List.pairwise_map]
  refine (x.pairwise_sorted.and (List.pairwise_map.mp hnodup)).imp ?_
  rintro a b ⟨hle, hne⟩
  refine UInt32.lt_of_le_of_ne hle fun heq => hne ?_
  cases ha : a.id
  cases hb : b.id
  simp_all

theorem overloads_eq (h : x.Tabulates done) (name : String) :
    x.overloads name = idsNamed done name := by
  unfold overloads
  rw [h.idsOf?_eq]
  split
  · next hnone => exact hnone.symm
  · rfl

theorem faithful (h : x.Tabulates done) : x.Faithful done where
  table_eq := h.table
  ids_nodup := h.ids_nodup
  find?_iff _ _ := h.find?_iff
  overloads_eq := h.overloads_eq
  overloads_nodup name := by
    rw [h.overloads_eq]
    exact (List.filter_sublist.map Export.id).nodup h.ids_nodup
  sorted_perm := h.table ▸ x.sorted_perm_table
  sorted_ascending := h.sorted_ascending
  emptyName _ hname := register_of_fault (Descriptor.fault?_of_emptyName hname)
  noTail _ hname hd hlast := register_of_fault (Descriptor.fault?_of_noTail hname hd hlast)
  taken _ hname hd htaken := h.register_eq_of_taken (Descriptor.fault?_eq_none hname hd) htaken
  free _ hname hd hfree := ⟨_, h.register_eq (Descriptor.fault?_eq_none hname hd) hfree⟩
  several es := by
    rcases registerAll_cases x es with
      ⟨x', hok, hanswer, -⟩ | ⟨before, e, after, x', err, hes, hok, herr, hanswer, -⟩
    · exact .inl ⟨x', hok, hanswer⟩
    · exact .inr ⟨before, e, after, x', err, hes, hok, herr, hanswer⟩

end Tabulates

end Exports

/-! ## Which calls have a result -/

/-- Calls to what was registered have a result, and calls to anything else say what they went to. -/
structure Bridge.Knows (b : Bridge) (done : List Export) : Prop where
  /-- A number that was never registered is reported. -/
  unknown_id : ∀ nested id args s, (∀ e ∈ done, e.id ≠ id) →
    ∃ s', b.callTarget nested (.id id) args s = some (.error (.id id), s')
  /-- A call to a registered number ends with a value if it ends. -/
  known_id : ∀ nested id args s answer s', (∃ e ∈ done, e.id = id) →
    b.callTarget nested (.id id) args s = some (answer, s') → ∃ v, answer = .ok v
  /-- A name under which nothing was registered is reported as a name. -/
  unknown_name : ∀ nested name args s, (∀ e ∈ done, e.descriptor.name ≠ name) →
    ∃ s', b.callTarget nested (.name name) args s = some (.error (.name name), s')
  /-- A call to any other name ends with a value if it ends. -/
  known_name : ∀ nested name args s answer s', (∃ e ∈ done, e.descriptor.name = name) →
    b.callTarget nested (.name name) args s = some (answer, s') → ∃ v, answer = .ok v
  /-- A call ends if the calls that its callables make end. -/
  ends : ∀ nested : Nested, nested.Ends → (b.callTarget nested).Ends

section Calls

variable {b : Bridge} {nested : Nested} {args : List HostValue} {s s' : MarshalState}
  {answer : Except UnknownExport HostValue}

theorem eq_ok_of_callId (hfind : (b.exports.find? id).isSome)
    (hcall : b.callId nested id args s = some (answer, s')) : ∃ v, answer = .ok v := by
  obtain ⟨e, he⟩ := Option.isSome_iff_exists.mp hfind
  rw [callId_of_some he] at hcall
  obtain ⟨p, -, hp⟩ := Option.map_eq_some_iff.mp hcall
  exact ⟨p.1, (congrArg Prod.fst hp).symm⟩

theorem eq_ok_of_callOverloads {ids : List ExportId} {last : HostValue}
    (hids : ∀ id ∈ ids, (b.exports.find? id).isSome)
    (hcall : b.callOverloads nested args ids last s = some (answer, s')) : ∃ v, answer = .ok v := by
  induction ids generalizing last s with
  | nil => exact ⟨last, (congrArg Prod.fst (Option.some.inj hcall)).symm⟩
  | cons id ids ih =>
    unfold Bridge.callOverloads at hcall
    cases hfirst : b.callId nested id args s with
    | none =>
      rw [callM_bind_of_none hfirst] at hcall
      cases hcall
    | some p =>
      obtain ⟨first, s₁⟩ := p
      obtain ⟨v, rfl⟩ := eq_ok_of_callId (hids id List.mem_cons_self) hfirst
      rw [callM_bind_of_some hfirst] at hcall
      dsimp only at hcall
      split at hcall
      · exact ih (fun id hid => hids id (List.mem_cons_of_mem _ hid)) hcall
      · exact ⟨v, (congrArg Prod.fst (Option.some.inj hcall)).symm⟩

theorem Exports.Tabulates.knows (h : b.exports.Tabulates done) : b.Knows done where
  unknown_id nested id args s hid := ⟨_, callId_of_none (h.find?_eq_none_iff.mpr hid)⟩
  known_id nested id args s answer s' hid hcall := eq_ok_of_callId (h.isSome_find?_iff.mpr hid) hcall
  unknown_name nested name args s hname := by
    have hnone : b.exports.idsOf? name = none := by
      rw [h.idsOf?_eq, if_pos]
      unfold idsNamed
      rw [List.filter_eq_nil_iff.mpr fun e he => by simpa using hname e he, List.map_nil]
    refine ⟨s.note (.unknownName name), ?_⟩
    simp only [Bridge.callTarget, hnone]
    rfl
  known_name nested name args s answer s' hname hcall := by
    obtain ⟨e, he, rfl⟩ := hname
    have hmem : e.id ∈ Exports.idsNamed done e.descriptor.name :=
      List.mem_map_of_mem (List.mem_filter.mpr ⟨he, by simp⟩)
    simp only [Bridge.callTarget, h.idsOf?_eq, if_neg (List.ne_nil_of_mem hmem)] at hcall
    refine eq_ok_of_callOverloads (fun id hid => ?_) hcall
    obtain ⟨d, hd, rfl⟩ := List.mem_map.mp hid
    exact h.isSome_find?_iff.mpr ⟨d, (List.mem_filter.mp hd).1, rfl⟩
  ends nested hnested := b.ends_callTarget hnested

end Calls

/-- **The table and the index of names stay in step.** After any requests to register, some of which may
fail, the table answers as the registrations that succeeded demand, and exactly these can be called: by
their numbers, and by their names. -/
theorem register_run (requests : List RegistrationRequest) (settings : Settings) (r : Registry) :
    (Exports.run requests).2.Faithful (Exports.run requests).1 ∧
      (Bridge.mk settings r (Exports.run requests).2).Knows (Exports.run requests).1 :=
  ⟨(Exports.tabulates_run requests).faithful, Exports.Tabulates.knows (Exports.tabulates_run requests)⟩

end Gridcall
