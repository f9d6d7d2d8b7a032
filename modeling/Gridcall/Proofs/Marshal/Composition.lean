import Gridcall.Marshal.Conversion
import Gridcall.Proofs.Marshal.Resolution

/-!
# Properties that composition keeps

A conversion is composed of look-ups, of reading the heap, of giving out handles, and of what converters
from outside do, which are dialogues that ask for further conversions. A property that composition keeps
is shown of these parts only.

* `Dialogue.Only W` : a dialogue makes no request outside `W`, part by part;
* `readSingle?` : what the converters for single values make of a host value;
* `MarshalM.Composes P` : composition keeps the property `P` of conversions;
* `Decodes P r o K`, `Encodes P r o K` : the parts of decoding and encoding have the property, where the
  converters from outside are in `K`; `Decodes.decode` and `Encodes.encode` are the whole conversions;
* `Converses P r W` : so do the answers to requests in `W`. Converters from outside whose requests are
  among them add nothing then, however deep conversions nest (`Converses.decodes`, `Converses.encodes`);
* `outside_decoding_of_nested`, `outside_encoding_of_nested` : any room that is enough will do.
-/

namespace Gridcall

variable {α β : Type} {r : Registry} {o : Outside}

/-! ## The requests of a dialogue -/

section Only

variable {Request : Type} {Answer : Request → Type} {ε : Type} {W W' : Request → Prop}
  {d : Dialogue Answer ε α}

/-- Every request that a dialogue makes is in `W`, whatever the answers to the ones before it are. -/
inductive Dialogue.Only (W : Request → Prop) : Dialogue Answer ε α → Prop
  | done (value : α) : Only W (done value)
  | stop (reason : ε) : Only W (stop reason)
  | ask (request : Request) (next : Answer request → Dialogue Answer ε α) (hrequest : W request)
      (hnext : ∀ answer, Only W (next answer)) : Only W (ask request next)

theorem Dialogue.only_true (d : Dialogue Answer ε α) : d.Only fun _ => True := by
  induction d with
  | done value => exact .done value
  | stop reason => exact .stop reason
  | ask request next ih => exact .ask request next trivial ih

theorem Dialogue.Only.mono (h : d.Only W) (hW : ∀ request, W request → W' request) : d.Only W' := by
  induction h with
  | done value => exact .done value
  | stop reason => exact .stop reason
  | ask request next hrequest _ ih => exact .ask request next (hW request hrequest) ih

theorem Dialogue.Only.bind {next : α → Dialogue Answer ε β} (h : d.Only W)
    (hnext : ∀ value, (next value).Only W) : (d >>= next).Only W := by
  induction h with
  | done value => exact hnext value
  | stop reason => exact .stop reason
  | ask request _ hrequest _ ih => exact .ask request _ hrequest ih

end Only

/-! ## Single steps -/

section Bind

variable {σ ε : Type} {act : ExceptT ε (StateM σ) α} {k : α → ExceptT ε (StateM σ) β} {s s' : σ}

theorem bind_of_ok {a : α} (h : act s = (.ok a, s')) : (act >>= k) s = k a s' := by
  have hbind : (act >>= k) s = ExceptT.bindCont k (act s).1 (act s).2 := rfl
  rw [hbind, h]
  rfl

theorem bind_of_error {e : ε} (h : act s = (.error e, s')) : (act >>= k) s = (.error e, s') := by
  have hbind : (act >>= k) s = ExceptT.bindCont k (act s).1 (act s).2 := rfl
  rw [hbind, h]
  rfl

end Bind

/-- A look-up does not fail. -/
theorem liftM_resolve_run (m : Mapping) (s : MarshalState) :
    (liftM (resolve r m) : MarshalM _) s = (.ok (resolve r m s).1, (resolve r m s).2) := rfl

/-- Remembered places are those of the registry, whether or not they are the right ones. -/
theorem mem_of_resolve {m : Mapping} {s : MarshalState} {c : Registered}
    (h : (resolve r m s).1 = some c) : c.converter ∈ r := by
  unfold resolve at h
  split at h
  · obtain ⟨i, -, hi⟩ := Option.bind_eq_some_iff.mp h
    obtain ⟨converter, hmem, rfl⟩ := Option.map_eq_some_iff.mp hi
    exact List.mem_of_getElem? hmem
  · exact Registry.mem_of_scan h

def readSingle? (heap : Heap) (required : Option ManagedType) (v : HostValue) :
    Converter → Option (Except CallError Managed)
  | .number type => some (v.accept .numeric >>= narrow type)
  | .numericText type => some (v.accept .text >>= readNumber type)
  | .boolean => some (Managed.boolean <$> v.accept .logical)
  | .string => some (Managed.string <$> v.accept .text)
  | .char => some (v.accept .text >>= decodeChar)
  | .object => some (objectBehind heap required v)
  | .nil => some (decodeNil v)
  | .raw => some (.ok (.value v))
  | .array _ | .table _ _ | .client _ => none

namespace Outside

/-- The converters for single values look at the heap and change nothing. -/
theorem decodeUsing_single {c : Converter} {required : Option ManagedType} {v : HostValue}
    {f : Heap → Except CallError Managed} (h : ∀ heap, readSingle? heap required v c = some (f heap)) :
    o.decodeUsing r c required v = fun s => (f s.store.heap, s) := by
  funext s
  have hs := h s.store.heap
  cases c with
  | array element => cases hs
  | table element priority => cases hs
  | client c => cases hs
  | number type =>
    obtain hs := Option.some.inj hs
    rw [decodeUsing, ← hs]
    cases v.accept .numeric <;> rfl
  | numericText type =>
    obtain hs := Option.some.inj hs
    rw [decodeUsing, ← hs]
    cases v.accept .text <;> rfl
  | boolean =>
    obtain hs := Option.some.inj hs
    rw [decodeUsing, ← hs]
    cases v.accept .logical <;> rfl
  | string =>
    obtain hs := Option.some.inj hs
    rw [decodeUsing, ← hs]
    cases v.accept .text <;> rfl
  | char =>
    obtain hs := Option.some.inj hs
    rw [decodeUsing, ← hs]
    cases v.accept .text <;> rfl
  | _ =>
    obtain hs := Option.some.inj hs
    rw [decodeUsing, ← hs]
    rfl

/-- The converters for grids fail on any other value. -/
theorem decodeUsing_array_of_ne {element : ManagedType} {required : Option ManagedType}
    {v : HostValue} (hv : ∀ grid, v ≠ .array grid) : o.decodeUsing r (.array element) required v =
      throw (.typeMismatch (ManagedType.array element).text v.hostType.text) := by
  rw [decodeUsing]
  exact hv

theorem decodeUsing_table_of_ne {element : ManagedType} {priority : Int}
    {required : Option ManagedType} {v : HostValue} (hv : ∀ grid, v ≠ .array grid) :
    o.decodeUsing r (.table element priority) required v =
      throw (.typeMismatch (ManagedType.array (.array element)).text v.hostType.text) := by
  rw [decodeUsing]
  exact hv

/-- The converters for arrays refuse any other value. -/
theorem encodeUsing_array_of_ne {element : ManagedType} {wanted : Option HostType} {v : Managed}
    (hv : ∀ e items, v ≠ .array e items) :
    o.encodeUsing r (.array element) wanted v = refuse (.array element) v := by
  rw [encodeUsing]
  exact hv

theorem encodeUsing_table_of_ne {element : ManagedType} {priority : Int} {wanted : Option HostType}
    {v : Managed} (hv : ∀ e items, v ≠ .array e items) :
    o.encodeUsing r (.table element priority) wanted v = refuse (.array (.array element)) v := by
  rw [encodeUsing]
  exact hv

end Outside

theorem Managed.eq_array_or (v : Managed) :
    (∃ e items, v = .array e items) ∨ ∀ e items, v ≠ .array e items := by
  cases v with
  | array e items => exact Or.inl ⟨e, items, rfl⟩
  | _ => exact Or.inr fun e items h => by cases h

/-! ## Properties of conversions -/

/-- A property of conversions that is kept by composition, and that reading the heap has. -/
structure MarshalM.Composes (P : ∀ α : Type, MarshalM α → Prop) : Prop where
  read : ∀ {α : Type} (f : Heap → Except CallError α), P α fun s => (f s.store.heap, s)
  /-- What follows an answer may use that it was given. -/
  bind : ∀ {α β : Type} {act : MarshalM α} {k : α → MarshalM β}, P α act →
    (∀ s a s', act s = (.ok a, s') → P β (k a)) → P β (act >>= k)

/-- `act` has the property `P`, and its answer satisfies `Q`. -/
def MarshalM.Yields (P : ∀ α : Type, MarshalM α → Prop) (act : MarshalM α) (Q : α → Prop) : Prop :=
  P α act ∧ ∀ s a s', act s = (.ok a, s') → Q a

/-- A converter is one of the library, or in `K`. -/
def Converter.Meets (K : ClientConverter → Prop) : Converter → Prop
  | client c => K c
  | _ => True

namespace MarshalM.Composes

variable {P : ∀ α : Type, MarshalM α → Prop} (h : Composes P) {Q : α → Prop} {Q' : β → Prop}
  {act : MarshalM α} {k : α → MarshalM β}

include h

theorem pure (a : α) : P α (Pure.pure a) := h.read fun _ => .ok a

theorem throw (e : CallError) : P α (MonadExcept.throw e) := h.read fun _ => .error e

/-- What is done may depend on the heap. -/
theorem onRead {k : Heap → MarshalM β} (hk : ∀ heap, P β (k heap)) :
    P β (do k (← get).store.heap) := by
  have hbind : P β ((fun s => (.ok s.store.heap, s) : MarshalM Heap) >>= k) :=
    h.bind (h.read .ok) fun _ heap _ _ => hk heap
  exact hbind

theorem map (hact : P α act) (f : α → β) : P β (act >>= fun a => Pure.pure (f a)) :=
  h.bind hact fun _ _ _ _ => h.pure _

theorem single {c : Converter} {required : Option ManagedType} {v : HostValue}
    {f : Heap → Except CallError Managed} (hf : ∀ heap, readSingle? heap required v c = some (f heap)) :
    P _ (o.decodeUsing r c required v) := by
  rw [Outside.decodeUsing_single hf]
  exact h.read f

theorem yields_pure {a : α} (ha : Q a) : Yields P (Pure.pure a) Q := by
  refine ⟨h.pure a, ?_⟩
  rintro s b s' hrun
  cases hrun
  exact ha

theorem yields_throw (e : CallError) : Yields P (MonadExcept.throw e) Q := by
  refine ⟨h.throw e, ?_⟩
  rintro s b s' hrun
  cases hrun

theorem yields_bind (hact : Yields P act Q) (hk : ∀ a, Q a → Yields P (k a) Q') :
    Yields P (act >>= k) Q' := by
  refine ⟨h.bind hact.1 fun s a s' hrun => (hk a (hact.2 s a s' hrun)).1, ?_⟩
  rintro s b s' hrun
  obtain ⟨answer, s₁, hfirst⟩ : ∃ answer s₁, act s = (answer, s₁) := ⟨_, _, rfl⟩
  cases answer with
  | ok a =>
    rw [bind_of_ok hfirst] at hrun
    exact (hk a (hact.2 s a s₁ hfirst)).2 s₁ b s' hrun
  | error e =>
    rw [bind_of_error hfirst] at hrun
    cases hrun

end MarshalM.Composes

section Conversion

variable {P : ∀ α : Type, MarshalM α → Prop} {K : ClientConverter → Prop}

/-! ## Decoding -/

/-- The parts of decoding have a property that composition keeps, where the converters from outside that
are met are in `K`. -/
structure Decodes (P : ∀ α : Type, MarshalM α → Prop) (r : Registry) (o : Outside)
    (K : ClientConverter → Prop) : Prop extends MarshalM.Composes P where
  look : ∀ m, P _ (liftM (resolve r m))
  meets : ∀ c ∈ r, c.Meets K
  decoding : ∀ c, K c → ∀ required v, P _ (o.decoding c required v)

theorem yields_resolve (hlook : ∀ m, P _ (liftM (resolve r m))) (m : Mapping) :
    MarshalM.Yields P (liftM (resolve r m)) fun found => ∀ c, found = some c → c.converter ∈ r := by
  refine ⟨hlook m, ?_⟩
  rintro s found s' hrun c rfl
  rw [liftM_resolve_run] at hrun
  exact mem_of_resolve (Except.ok.inj (Prod.mk.inj hrun).1)

namespace Decodes

variable (h : Decodes P r o K)

include h

theorem decoderFor (host : HostType) (required : ManagedType) :
    MarshalM.Yields P (decoderFor r host required) fun c => c ∈ r := by
  unfold Gridcall.decoderFor resolveOr
  rw [bind_assoc]
  refine h.yields_bind (yields_resolve h.look _) fun found hfound => ?_
  cases found with
  | none => exact h.yields_throw _
  | some c => exact h.yields_pure (hfound c rfl)

theorem decodeCells (element : ManagedType) {cells : List HostValue}
    {last : Option (HostType × Converter)} (hlast : ∀ l ∈ last, l.2 ∈ r)
    {decodeCell : Converter → (cell : HostValue) → cell ∈ cells → MarshalM Managed}
    (hcell : ∀ c ∈ r, ∀ cell h, P _ (decodeCell c cell h)) :
    MarshalM.Yields P (decodeCells r element cells last decodeCell) fun p => ∀ l ∈ p.2, l.2 ∈ r := by
  induction cells generalizing last with
  | nil =>
    unfold Gridcall.decodeCells
    exact h.yields_pure hlast
  | cons cell cells ih =>
    have hrest : ∀ c ∈ r, ∀ cell' h, P _ (decodeCell c cell' (List.mem_cons_of_mem cell h)) :=
      fun c hc cell' h => hcell c hc cell' _
    unfold Gridcall.decodeCells
    dsimp only
    split
    · exact h.yields_bind (ih hlast hrest) fun p hp => h.yields_pure hp
    · have hnext : ∀ c ∈ r, MarshalM.Yields P (decodeCell c cell List.mem_cons_self >>= fun item =>
          Gridcall.decodeCells r element cells (some (cell.hostType, c))
            (fun c v h => decodeCell c v (List.mem_cons_of_mem _ h)) >>= fun p =>
              Pure.pure (item :: p.1, p.2)) fun p => ∀ l ∈ p.2, l.2 ∈ r := by
        intro c hc
        have hlast' : ∀ l ∈ some (cell.hostType, c), l.2 ∈ r := by
          rintro l hl
          obtain rfl := Option.some.inj hl
          exact hc
        have hitem : MarshalM.Yields P (decodeCell c cell List.mem_cons_self) fun _ => True :=
          ⟨hcell c hc cell _, fun _ _ _ _ => trivial⟩
        refine h.yields_bind hitem fun item _ => ?_
        exact h.yields_bind (ih hlast' hrest) fun p hp => h.yields_pure hp
      split
      · next seen c hfilter =>
        rw [pure_bind]
        exact hnext c (hlast _ (Option.filter_eq_some_iff.mp hfilter).1)
      · exact h.yields_bind (h.decoderFor _ _) hnext

theorem decodeRows {element : ManagedType} {rows : List (List HostValue)}
    {last : Option (HostType × Converter)} (hlast : ∀ l ∈ last, l.2 ∈ r)
    {decodeCell : Converter → (cell : HostValue) → (∃ row ∈ rows, cell ∈ row) → MarshalM Managed}
    (hcell : ∀ c ∈ r, ∀ cell h, P _ (decodeCell c cell h)) :
    P _ (decodeRows r element rows last decodeCell) := by
  induction rows generalizing last with
  | nil =>
    unfold Gridcall.decodeRows
    exact h.pure _
  | cons row rows ih =>
    unfold Gridcall.decodeRows
    have hrow := h.decodeCells element hlast fun c hc cell h => hcell c hc cell
      ⟨row, List.mem_cons_self, h⟩
    refine h.bind hrow.1 fun s p s' hrun => ?_
    exact h.map (ih (hrow.2 s p s' hrun) fun c hc cell h => hcell c hc cell _) _

/-- Grids by induction on the size of the value. -/
theorem decodeUsing {c : Converter} (hc : c.Meets K) (required : Option ManagedType) (v : HostValue) :
    P _ (o.decodeUsing r c required v) := by
  induction hsize : sizeOf v using Nat.strongRecOn generalizing c required v with
  | ind size ih =>
    have hcells : ∀ grid, v = .array grid → ∀ c ∈ r, ∀ required, ∀ cell ∈ grid.cells,
        P _ (o.decodeUsing r c required cell) := by
      rintro grid rfl c hc required cell hcell
      have hlt := HostValue.sizeOf_lt_of_mem_cells hcell
      exact ih _ (by omega) (h.meets c hc) required cell rfl
    cases c with
    | client c =>
      rw [Outside.decodeUsing]
      exact h.decoding c hc required v
    | array element =>
      cases v with
      | array grid =>
        rw [Outside.decodeUsing]
        refine h.map (h.decodeCells element (by rintro l ⟨⟩) fun c hc cell hcell => ?_).1 _
        exact hcells grid rfl c hc _ cell (Grid.mem_cells_of_mem_vector hcell)
      | _ =>
        rw [Outside.decodeUsing_array_of_ne (by simp)]
        exact h.throw _
    | table element priority =>
      cases v with
      | array grid =>
        rw [Outside.decodeUsing]
        refine h.map (h.decodeRows (by rintro l ⟨⟩) fun c hc cell hmem => ?_) _
        obtain ⟨row, hrow, hcell⟩ := hmem
        exact hcells grid rfl c hc _ cell (Grid.mem_cells_of_mem_toRows hrow hcell)
      | _ =>
        rw [Outside.decodeUsing_table_of_ne (by simp)]
        exact h.throw _
    | _ => exact h.single fun _ => rfl

theorem decode (v : HostValue) (required : ManagedType) : P _ (o.decode r v required) := by
  unfold Outside.decode
  have hlook := h.decoderFor v.hostType required
  exact h.bind hlook.1 fun s c s' hrun => h.decodeUsing (h.meets c (hlook.2 s c s' hrun)) _ v

end Decodes

/-! ## Encoding -/

/-- The parts of encoding have a property that composition keeps, where the converters from outside that
are met are in `K`. -/
structure Encodes (P : ∀ α : Type, MarshalM α → Prop) (r : Registry) (o : Outside)
    (K : ClientConverter → Prop) : Prop extends MarshalM.Composes P where
  look : ∀ m, P _ (liftM (resolve r m))
  mint : ∀ v, P _ (mintValue v)
  meets : ∀ c ∈ r, c.Meets K
  encoding : ∀ c, K c → ∀ wanted v, P _ (o.encoding c wanted v)

namespace Encodes

variable (h : Encodes P r o K)

include h

theorem encodeWith (v : Managed) {encodeBy : Converter → MarshalM HostValue}
    (hby : ∀ c ∈ r, P _ (encodeBy c)) : P _ (encodeWith r v encodeBy) := by
  unfold Gridcall.encodeWith
  cases v.runtimeType? with
  | none => exact h.throw _
  | some type =>
    have hlook := yields_resolve h.look (.encoding type)
    refine h.bind hlook.1 fun s found s' hrun => ?_
    cases found with
    | none => exact h.mint v
    | some c => exact hby _ (hlook.2 s _ s' hrun c rfl)

theorem encodeItems {items : List Managed}
    {encodeItem : Converter → (item : Managed) → item ∈ items → MarshalM HostValue}
    (hitem : ∀ c ∈ r, ∀ item h, P _ (encodeItem c item h)) :
    P _ (encodeItems r items encodeItem) := by
  induction items with
  | nil =>
    unfold Gridcall.encodeItems
    exact h.pure _
  | cons item items ih =>
    unfold Gridcall.encodeItems
    have hnext : ∀ cell, P _ (do
        let cells ← Gridcall.encodeItems r items fun c v h => encodeItem c v (List.mem_cons_of_mem _ h)
        return cell :: cells) := fun cell =>
      h.map (ih fun c hc item hmem => hitem c hc item _) _
    dsimp only
    split
    · rw [pure_bind]
      exact hnext _
    · refine h.bind (h.encodeWith item fun c hc => ?_) fun _ cell _ _ => hnext cell
      exact hitem c hc item _

theorem encodeRows {element : ManagedType} {rows : List Managed}
    {encodeItem : Converter → (item : Managed) → (∃ e items, .array e items ∈ rows ∧ item ∈ items) →
      MarshalM HostValue}
    (hitem : ∀ c ∈ r, ∀ item h, P _ (encodeItem c item h)) :
    P _ (encodeRows r element rows encodeItem) := by
  induction rows with
  | nil =>
    unfold Gridcall.encodeRows
    exact h.pure _
  | cons row rows ih =>
    have hrest : ∀ cells : List HostValue, P _ (do
        let rest ← Gridcall.encodeRows r element rows fun c v hv => encodeItem c v
          (hv.elim fun e hv => hv.elim fun items hv => ⟨e, items, List.mem_cons_of_mem _ hv.1, hv.2⟩)
        return cells :: rest) := fun cells => h.map (ih fun c hc item hmem => hitem c hc item _) _
    cases row with
    | null =>
      rw [Gridcall.encodeRows, pure_bind]
      exact hrest _
    | array e items =>
      rw [Gridcall.encodeRows]
      refine h.bind (h.encodeItems fun c hc item hmem => ?_) fun _ cells _ _ => hrest cells
      exact hitem c hc item _
    | _ =>
      rw [Gridcall.encodeRows] <;> simp only [reduceCtorEq, IsEmpty.forall_iff, implies_true]
      exact h.bind (h.throw _) fun _ cells _ _ => hrest cells

theorem refuse (type : ManagedType) (v : Managed) : P _ (refuse type v : MarshalM α) := by
  unfold Gridcall.refuse
  split
  · exact h.throw _
  · exact h.throw _

/-- Arrays by induction on the size of the value. -/
theorem encodeUsing {c : Converter} (hc : c.Meets K) (wanted : Option HostType) (v : Managed) :
    P _ (o.encodeUsing r c wanted v) := by
  induction hsize : sizeOf v using Nat.strongRecOn generalizing c wanted v with
  | ind size ih =>
    cases c with
    | client c =>
      rw [Outside.encodeUsing]
      exact h.encoding c hc wanted v
    | array element =>
      rcases v.eq_array_or with ⟨e, items, rfl⟩ | hv
      · rw [Outside.encodeUsing]
        refine h.map (h.encodeItems fun c hc item hmem => ?_) _
        have hlt : sizeOf item < sizeOf (Managed.array e items) := Managed.sizeOf_lt_of_mem_items hmem
        exact ih _ (by omega) (h.meets c hc) none item rfl
      · rw [Outside.encodeUsing_array_of_ne hv]
        exact h.refuse _ _
    | table element priority =>
      rcases v.eq_array_or with ⟨e, rows, rfl⟩ | hv
      · rw [Outside.encodeUsing]
        refine h.map (h.encodeRows fun c hc item hmem => ?_) _
        obtain ⟨e', items, hrow, hitem⟩ := hmem
        have hlt : sizeOf item < sizeOf (Managed.array e' items) :=
          Managed.sizeOf_lt_of_mem_items hitem
        have hlt' : sizeOf (Managed.array e' items) < sizeOf (Managed.array e rows) :=
          Managed.sizeOf_lt_of_mem_items hrow
        exact ih _ (by omega) (h.meets c hc) none item rfl
      · rw [Outside.encodeUsing_table_of_ne hv]
        exact h.refuse _ _
    | object =>
      rw [Outside.encodeUsing]
      split
      · exact h.throw _
      · exact h.mint v
    | nil =>
      rw [Outside.encodeUsing]
      exact h.throw _
    | _ =>
      unfold Outside.encodeUsing
      split
      · exact h.pure _
      · exact h.refuse _ _

theorem encode (v : Managed) : P _ (o.encode r v) := by
  unfold Outside.encode
  exact h.encodeWith v fun c hc => h.encodeUsing (h.meets c hc) none v

end Encodes

/-! ## Dialogues -/

def Conversion.Request.isNested : Conversion.Request → Bool
  | decode _ _ | encode _ | decodeAt _ _ _ | encodeAt _ _ _ => true
  | _ => false

/-- The requests that a converter from outside makes are in `W`. -/
structure ClientConverter.Only (W : Conversion.Request → Prop) (c : ClientConverter) : Prop where
  decode : ∀ required v, (c.decode required v).Only W
  encode : ∀ wanted v, (c.encode wanted v).Only W

/-- The parts of conversions have a property that composition keeps, and so have the answers to requests
in `W`, those aside for which conversions are run. -/
structure Converses (P : ∀ α : Type, MarshalM α → Prop) (r : Registry)
    (W : Conversion.Request → Prop) : Prop extends MarshalM.Composes P where
  look : ∀ m, P _ (liftM (resolve r m))
  mint : ∀ v, P _ (mintValue v)
  /-- A failure may be kept as a value. -/
  capture : ∀ {α : Type} {act : MarshalM α}, P _ act → P _ (liftM act.run)
  answer : ∀ o request, W request → request.isNested = false → P _ (liftM (request.answer r o))

namespace Converses

variable {W : Conversion.Request → Prop} (h : Converses P r W)

include h

theorem answerAt (place : Nat) {act : Converter → MarshalM α} (hact : ∀ c ∈ r, P _ (act c)) :
    P _ (liftM ((r[place]?).mapM fun c => (act c).run)) := by
  cases hplace : r[place]? with
  | none => exact h.pure none
  | some c => exact h.map (h.capture (hact c (List.mem_of_getElem? hplace))) some

theorem answers (hd : Decodes P r o K) (he : Encodes P r o K) {request : Conversion.Request}
    (hrequest : W request) : P _ (liftM (request.answer r o)) := by
  cases request with
  | decode v required => exact h.capture (hd.decode v required)
  | encode v => exact h.capture (he.encode v)
  | decodeAt place required v =>
    exact h.answerAt place fun c hc => hd.decodeUsing (hd.meets c hc) required v
  | encodeAt place wanted v =>
    exact h.answerAt place fun c hc => he.encodeUsing (he.meets c hc) wanted v
  | _ => exact h.answer o _ hrequest rfl

theorem run (hanswer : ∀ request, W request → P _ (liftM (request.answer r o)))
    {d : Conversion.Action α} (hd : d.Only W) :
    P _ (ExceptT.mk (d.run (Conversion.Request.answer r o)) : MarshalM α) := by
  induction hd with
  | done value => exact h.pure value
  | stop reason => exact h.throw reason
  | ask request next hrequest _ ih => exact h.bind (hanswer request hrequest) fun _ a _ _ => ih a

variable (hr : ∀ c ∈ r, c.Meets (ClientConverter.Only W))

include hr

/-- However deep conversions may nest, by induction on the depth. -/
theorem within (depth : Nat) :
    Decodes P r (.within r depth) (ClientConverter.Only W) ∧
      Encodes P r (.within r depth) (ClientConverter.Only W) := by
  induction depth with
  | zero => exact ⟨⟨h.toComposes, h.look, hr, fun c _ _ _ => h.throw (nestsTooDeep c)⟩,
      ⟨h.toComposes, h.look, h.mint, hr, fun c _ _ _ => h.throw (nestsTooDeep c)⟩⟩
  | succ depth ih =>
    have hanswer : ∀ request, W request → P _ (liftM (request.answer r (.within r depth))) :=
      fun _ => h.answers ih.1 ih.2
    exact ⟨⟨h.toComposes, h.look, hr, fun c hc required v => h.run hanswer (hc.decode required v)⟩,
      ⟨h.toComposes, h.look, h.mint, hr, fun c hc wanted v => h.run hanswer (hc.encode wanted v)⟩⟩

theorem decodes : Decodes P r r.outside (ClientConverter.Only W) where
  toComposes := h.toComposes
  look := h.look
  meets := hr
  decoding c hc required v := h.onRead fun heap =>
    (h.within hr (c.decodeRoom heap v + 1)).1.decoding c hc required v

theorem encodes : Encodes P r r.outside (ClientConverter.Only W) where
  toComposes := h.toComposes
  look := h.look
  mint := h.mint
  meets := hr
  encoding c hc wanted v := h.onRead fun heap =>
    (h.within hr (c.encodeRoom heap v + 1)).2.encoding c hc wanted v

end Converses

end Conversion

/-! ## Room -/

theorem Outside.nested_add (r : Registry) (limit : Outside) (depth further : Nat) :
    nested r limit (depth + further) = nested r (nested r limit further) depth := by
  induction depth with
  | zero => rw [Nat.zero_add, nested]
  | succ depth ih => rw [Nat.succ_add, nested, ih, nested]

/-- A room of at least some depth is that many levels above a limit. -/
theorem Outside.exists_within_eq_nested (r : Registry) {depth room : Nat} (h : depth ≤ room) :
    ∃ limit, within r room = nested r limit depth := by
  obtain ⟨further, rfl⟩ := Nat.exists_eq_add_of_le h
  exact ⟨_, nested_add r _ depth further⟩

section Room

variable {c : ClientConverter} {s : MarshalState} {depth : Nat}

/-- A converter from outside that comes to the same answer whatever is done beyond some depth comes to it
with any room that is at least as deep. -/
theorem outside_decoding_of_nested {required : Option ManagedType} {v : HostValue}
    {p : Except CallError Managed × MarshalState}
    (h : ∀ limit, (Outside.nested r limit depth).decoding c required v s = p)
    (hroom : depth ≤ c.decodeRoom s.store.heap v + 1) : r.outside.decoding c required v s = p := by
  obtain ⟨limit, hlimit⟩ := Outside.exists_within_eq_nested r hroom
  have hwithin : r.outside.decoding c required v s =
      (Outside.within r (c.decodeRoom s.store.heap v + 1)).decoding c required v s := rfl
  rw [hwithin, hlimit]
  exact h limit

theorem outside_encoding_of_nested {wanted : Option HostType} {v : Managed}
    {p : Except CallError HostValue × MarshalState}
    (h : ∀ limit, (Outside.nested r limit depth).encoding c wanted v s = p)
    (hroom : depth ≤ c.encodeRoom s.store.heap v + 1) : r.outside.encoding c wanted v s = p := by
  obtain ⟨limit, hlimit⟩ := Outside.exists_within_eq_nested r hroom
  have hwithin : r.outside.encoding c wanted v s =
      (Outside.within r (c.encodeRoom s.store.heap v + 1)).encoding c wanted v s := rfl
  rw [hwithin, hlimit]
  exact h limit

end Room

end Gridcall
