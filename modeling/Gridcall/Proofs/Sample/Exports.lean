import Gridcall.Proofs.Call.Overloads
import Gridcall.Proofs.Call.Receiver
import Gridcall.Sample

/-!
# Calls into the sample library

All exports of the sample library are registered, each under a name of its own, so it makes no difference
how an export is called.

* `Sample.bridge_exports` : the table of the library;
* `Sample.Targets e target` : the ways to call an export; `callTarget_of_targets` is the call;
* `arg_of_ok`, `read_list` : what a callable reads of its arguments;
* `prepare_of_static` : what comes before a callable without a receiver;
* `callId_of_done` : a call whose callable ends at once.
-/

namespace Gridcall

variable {b : Bridge} {nested : Nested} {args : List HostValue} {id : ExportId} {last : HostValue}
  {e : Export} {target : Target} {settings : Settings} {s s₁ s₂ : MarshalState}

/-! ## One export to try -/

theorem callOverloads_singleton (b : Bridge) (nested : Nested) (args : List HostValue) (id : ExportId)
    (last : HostValue) (s : MarshalState) :
    b.callOverloads nested args [id] last s = b.callId nested id args s := by
  cases hcall : b.callId nested id args s with
  | none => exact callOverloads_of_none hcall
  | some p =>
    obtain ⟨answer, s₁⟩ := p
    cases answer with
    | error unknown => exact callOverloads_of_error hcall
    | ok v =>
      cases hv : v.isError with
      | false => exact callOverloads_of_value hcall hv
      | true =>
        obtain ⟨code, rfl⟩ := exists_of_isError hv
        rw [callOverloads_of_code hcall]
        rfl

/-! ## The library -/

namespace Sample

def names : List (String × List ExportId) := exports.map fun e => (e.descriptor.name, [e.id])

/-- No registration fails, and no two exports share a name. -/
theorem bridge_exports (settings : Settings) : (bridge settings).exports = ⟨exports, names⟩ := rfl

theorem find?_of_mem (settings : Settings) (he : e ∈ exports) :
    (bridge settings).exports.find? e.id = some e := by
  simp only [exports, List.mem_cons, List.not_mem_nil, or_false] at he
  rcases he with rfl | rfl | rfl | rfl | rfl | rfl | rfl <;> rfl

theorem idsOf?_of_mem (settings : Settings) (he : e ∈ exports) :
    (bridge settings).exports.idsOf? e.descriptor.name = some [e.id] := by
  simp only [exports, List.mem_cons, List.not_mem_nil, or_false] at he
  rcases he with rfl | rfl | rfl | rfl | rfl | rfl | rfl <;> rfl

/-- Under a name stands one export, if the library has one of that name. -/
theorem idsOf?_cases (settings : Settings) (name : String) :
    (bridge settings).exports.idsOf? name = none ∨
      ∃ e ∈ exports, e.descriptor.name = name ∧ (bridge settings).exports.idsOf? name = some [e.id] := by
  by_cases hname : ∃ e ∈ exports, e.descriptor.name = name
  · obtain ⟨e, he, rfl⟩ := hname
    exact .inr ⟨e, he, rfl, idsOf?_of_mem settings he⟩
  · refine .inl ?_
    rw [bridge_exports]
    show names.lookup name = none
    rw [List.lookup_eq_none_iff]
    intro p hp
    obtain ⟨e, he, rfl⟩ := List.mem_map.mp hp
    rw [bne_iff_ne]
    rintro rfl
    exact hname ⟨e, he, rfl⟩

/-- A call to an export of the library: by its number, alone in a list, or by its name. -/
inductive Targets (e : Export) : Target → Prop
  | id : Targets e (.id e.id)
  | overloads : Targets e (.overloads [e.id])
  | name : Targets e (.name e.descriptor.name)

theorem callTarget_of_targets (settings : Settings) (he : e ∈ exports) (h : Targets e target)
    (nested : Nested) (args : List HostValue) (s : MarshalState) :
    (bridge settings).callTarget nested target args s = (bridge settings).callId nested e.id args s := by
  cases h with
  | id => rfl
  | overloads => exact callOverloads_singleton _ nested args e.id (.error .name) s
  | name =>
    rw [callTarget_name, Exports.overloads, idsOf?_of_mem settings he]
    exact callOverloads_singleton _ nested args e.id (.error .name) s

end Sample

/-! ## Arguments that are read -/

section Read

variable {kind : ReadKind} {frame : CallFrame} {i : Nat} {v : Managed}

theorem arg_of_ok {x : kind.Carrier} (hv : frame.args[i]? = some v) (hread : v.read kind = .ok x) :
    frame.arg kind i = .done x := by
  unfold CallFrame.arg
  rw [hv]
  dsimp only
  rw [hread]
  rfl

theorem arg_of_error {e : ReadError} (hv : frame.args[i]? = some v) (hread : v.read kind = .error e) :
    ∃ reason, frame.arg kind i = .stop reason := by
  unfold CallFrame.arg
  rw [hv]
  dsimp only
  rw [hread]
  exact ⟨_, rfl⟩

theorem read_list (kind : ReadKind) {f : kind.Carrier → Managed} (h : ∀ x, (f x).read kind = .ok x)
    (element : ManagedType) (xs : List kind.Carrier) :
    (Managed.array element (xs.map f)).read (.list kind) = .ok xs := by
  show (xs.map f).mapM (Managed.read kind) = .ok xs
  induction xs with
  | nil => rfl
  | cons x xs ih =>
    rw [List.map_cons, List.mapM_cons, h, ih]
    rfl

end Read

/-! ## Callables without a receiver -/

/-- Without a receiver the arguments are all there is to prepare. -/
theorem prepare_of_static {r : Registry} {d : Descriptor} (hkind : d.kind ≠ .method) (settings : Settings)
    (args : List HostValue) (s : MarshalState) :
    prepare r settings d args s =
      (bindArguments r d args >>= fun decoded => pure { descriptor := d, receiver := none, args := decoded })
        (s.note (.decoding d.name args settings.logArguments)) := by
  have hfirst : d.receiverFailure? args = none := if_neg fun h => hkind h.1
  have hown : d.ownArgs args = args := if_neg hkind
  have hframe : d.frame args = fun decoded => pure { descriptor := d, receiver := none, args := decoded } := by
    funext decoded s
    rw [frame_eq, Descriptor.receiverArg?, if_neg hkind]
    rfl
  rw [prepare_of_none hfirst, hown, hframe]

/-- A callable that ends at once with a value that can be encoded. -/
theorem callId_of_done (hfind : b.exports.find? id = some e) {frame : CallFrame}
    (hprepare : prepare b.registry b.settings e.descriptor (coerceHandles b.settings args)
      (s.note (.opened id e.descriptor.name)) = (.ok frame, s₁)) {v : Managed}
    (hdone : e.callable frame = .done v) {host : HostValue}
    (hencode : encodeResult b.registry e.descriptor v (s₁.note (frame.entry e.descriptor)) = (.ok host, s₂)) :
    b.callId nested id args s = some (.ok host, s₂.note .closed) := by
  have hrun : (e.callable frame).run b.registry nested (s₁.note (frame.entry e.descriptor)) =
      some (.ok v, s₁.note (frame.entry e.descriptor)) := by
    rw [hdone]
    rfl
  have hfinish : b.finish e.descriptor (.ok v) (s₁.note (frame.entry e.descriptor)) = some (host, s₂) := by
    simp only [Bridge.finish, hencode]
  rw [callId_of_prepare_ok hfind hprepare, callM_bind_of_some hrun, hfinish]
  rfl

end Gridcall
