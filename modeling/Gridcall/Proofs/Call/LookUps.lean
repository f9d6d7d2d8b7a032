import Gridcall.Proofs.Call.Steps
import Gridcall.Proofs.Marshal.LastConverter

/-!
# Each mapping is scanned for once

The counters of a registry count mappings, and not how often they were looked up.

* `Registry.Asks r s asked s'` : from `s` to `s'` converters were looked up for the mappings `asked`, in
  this order, and everything else acted on the store alone;
* `Memo.Tallies memo asked` : the memo holds one answer for each mapping among `asked`, and has counted as
  many scans, the invariant of `resolve` (`tallies_resolve`) and so of everything that asks
  (`tallies_of_asks`);
* `Registry.Counts r asked s` : what the counters then say;
* `Job`, `Job.run?` : the questions, conversions and calls that a program makes;
* `stats_of_jobs` : the counters after any of them.
-/

namespace Gridcall

open Relation (ReflTransGen)

variable {r : Registry} {asked asked' past : List Mapping} {memo : Memo} {m : Mapping}
  {s s' s'' : MarshalState}

/-! ## What was asked -/

/-- From `s` to `s'` converters were looked up for the mappings `asked` in turn. In between anything may
have happened to the store. -/
inductive Registry.Asks (r : Registry) : MarshalState → List Mapping → MarshalState → Prop
  | refl (s : MarshalState) : Asks r s [] s
  | ask (m : Mapping) {asked : List Mapping} {s s' : MarshalState}
      (h : Asks r (resolve r m s).2 asked s') : Asks r s (m :: asked) s'
  | change (store : Store) {asked : List Mapping} {s s' : MarshalState}
      (h : Asks r { s with store } asked s') : Asks r s asked s'

theorem Registry.Asks.trans (h : r.Asks s asked s') (h' : r.Asks s' asked' s'') :
    r.Asks s (asked ++ asked') s'' := by
  induction h with
  | refl => exact h'
  | ask m _ ih => exact .ask m (ih h')
  | change store _ ih => exact .change store (ih h')

/-- What leaves the memo alone acts on the store alone. -/
theorem asks_of_memo_eq (h : s'.memo = s.memo) : r.Asks s [] s' := by
  obtain ⟨store, memo⟩ := s
  obtain ⟨store', memo'⟩ := s'
  obtain rfl : memo' = memo := h
  exact .change store' (.refl _)

theorem asks_of_step {b : Bridge} (h : b.Step s s') : ∃ asked, b.registry.Asks s asked s' := by
  cases h with
  | look m => exact ⟨[m], .ask m (.refl _)⟩
  | create className contents => exact ⟨[], asks_of_memo_eq rfl⟩
  | mint o => exact ⟨[], asks_of_memo_eq rfl⟩
  | release handle => exact ⟨[], asks_of_memo_eq rfl⟩
  | note event h => exact ⟨[], asks_of_memo_eq rfl⟩
  | enter e he args frame _ hreceiver => exact ⟨[], asks_of_memo_eq rfl⟩

theorem asks_of_steps {b : Bridge} (h : ReflTransGen b.Step s s') :
    ∃ asked, b.registry.Asks s asked s' := by
  induction h with
  | refl => exact ⟨[], .refl s⟩
  | tail _ hstep ih =>
    obtain ⟨asked, hasked⟩ := ih
    obtain ⟨asked', hasked'⟩ := asks_of_step hstep
    exact ⟨asked ++ asked', hasked.trans hasked'⟩

/-! ## The memo -/

def Memo.keys (memo : Memo) : List Mapping := memo.answers.map Prod.fst

theorem Memo.find?_eq_none_iff : memo.find? m = none ↔ m ∉ memo.keys := by
  simp only [find?, keys, List.lookup_eq_none_iff, List.mem_map, not_exists, not_and]
  refine forall₂_congr fun p _ => ?_
  rw [bne_iff_ne, ne_comm]

theorem Memo.keys_remember (memo : Memo) (m : Mapping) (answer : Option Nat) :
    (memo.remember m answer).keys = m :: memo.keys := rfl

theorem Memo.keys_counted (memo : Memo) : memo.counted.keys = memo.keys := rfl

/-- The memo holds one answer for each mapping that was asked for, and has counted as many scans. -/
structure Memo.Tallies (memo : Memo) (asked : List Mapping) : Prop where
  nodup : memo.keys.Nodup
  scans : memo.scans = memo.keys.length
  mem_keys_iff : ∀ m, m ∈ memo.keys ↔ m ∈ asked

theorem tallies_empty : Memo.empty.Tallies [] := ⟨.nil, rfl, fun _ => .rfl⟩

theorem Memo.Tallies.find?_eq_none_iff (h : memo.Tallies asked) : memo.find? m = none ↔ m ∉ asked := by
  rw [Memo.find?_eq_none_iff, h.mem_keys_iff]

/-- A scan is counted and its answer remembered. -/
theorem Memo.Tallies.remember (h : memo.Tallies asked) (hm : m ∉ asked) (answer : Option Nat) :
    (memo.counted.remember m answer).Tallies (asked ++ [m]) where
  nodup := by
    rw [Memo.keys_remember, Memo.keys_counted, List.nodup_cons, h.mem_keys_iff]
    exact ⟨hm, h.nodup⟩
  scans := by
    rw [Memo.keys_remember, Memo.keys_counted, List.length_cons, ← h.scans]
    rfl
  mem_keys_iff m' := by
    rw [Memo.keys_remember, Memo.keys_counted, List.mem_cons, h.mem_keys_iff, List.mem_append,
      List.mem_singleton, or_comm]

theorem Memo.Tallies.again (h : memo.Tallies asked) (hm : m ∈ asked) : memo.Tallies (asked ++ [m]) where
  nodup := h.nodup
  scans := h.scans
  mem_keys_iff m' := by
    rw [h.mem_keys_iff, List.mem_append, List.mem_singleton, iff_self_or]
    rintro rfl
    exact hm

theorem resolve_of_mem (h : s.memo.Tallies asked) (hm : m ∈ asked) : (resolve r m s).2 = s := by
  unfold resolve
  cases hfind : s.memo.find? m with
  | none => exact absurd hm (h.find?_eq_none_iff.mp hfind)
  | some answer => rfl

theorem resolve_of_notMem (h : s.memo.Tallies asked) (hm : m ∉ asked) :
    (resolve r m s).2.memo = s.memo.counted.remember m ((r.scan m).map Registered.index) := by
  unfold resolve
  rw [h.find?_eq_none_iff.mpr hm]
  rfl

theorem tallies_resolve (r : Registry) (h : s.memo.Tallies asked) (m : Mapping) :
    (resolve r m s).2.memo.Tallies (asked ++ [m]) := by
  by_cases hm : m ∈ asked
  · rw [resolve_of_mem h hm]
    exact h.again hm
  · rw [resolve_of_notMem h hm]
    exact h.remember hm _

theorem tallies_of_asks (h : r.Asks s asked s') (hpast : s.memo.Tallies past) :
    s'.memo.Tallies (past ++ asked) := by
  induction h generalizing past with
  | refl => rwa [List.append_nil]
  | ask m _ ih =>
    have hrest := ih (tallies_resolve r hpast m)
    rwa [List.append_assoc] at hrest
  | change store _ ih => exact ih hpast

/-! ## The counters -/

/-- The number of different mappings of one direction. -/
def distinct (direction : Direction) (asked : List Mapping) : Nat :=
  (asked.toFinset.filter fun m => m.direction = direction).card

/-- What the counters of a registry say after converters were looked up for some mappings. -/
structure Registry.Counts (r : Registry) (asked : List Mapping) (s : MarshalState) : Prop where
  scans : (r.stats s.memo).scans = (r.stats s.memo).toManaged + (r.stats s.memo).toHost
  toManaged : (r.stats s.memo).toManaged = distinct .toManaged asked
  toHost : (r.stats s.memo).toHost = distinct .toHost asked
  /-- What was asked can be told from the state. -/
  asked_iff : ∀ m, m ∈ asked ↔ (s.memo.find? m).isSome
  /-- A mapping that was asked for before is not scanned for again: nothing changes. -/
  again : ∀ m ∈ asked, (resolve r m s).2 = s
  /-- Any other mapping is scanned for once, whether there is a converter for it or not. -/
  once : ∀ m ∉ asked, (r.stats (resolve r m s).2.memo).scans = (r.stats s.memo).scans + 1

theorem Memo.count_eq_countP (memo : Memo) (direction : Direction) :
    memo.count direction = memo.keys.countP fun m => m.direction == direction := by
  rw [keys, List.countP_map]
  rfl

theorem Memo.Tallies.count_eq (h : memo.Tallies asked) (direction : Direction) :
    memo.count direction = distinct direction asked := by
  have hkeys : memo.keys.toFinset = asked.toFinset := by
    ext m
    rw [List.mem_toFinset, List.mem_toFinset, h.mem_keys_iff]
  rw [Memo.count_eq_countP, distinct, ← hkeys, List.countP_eq_length_filter,
    ← List.toFinset_card_of_nodup (h.nodup.filter _), List.toFinset_filter]
  simp only [beq_iff_eq]

theorem Memo.count_add_count (memo : Memo) :
    memo.count .toManaged + memo.count .toHost = memo.keys.length := by
  rw [Memo.count_eq_countP, Memo.count_eq_countP,
    List.length_eq_countP_add_countP fun m : Mapping => m.direction == .toManaged]
  congr 1
  refine List.countP_congr fun m _ => ?_
  cases m.direction <;> decide

theorem Memo.Tallies.counts (r : Registry) (h : s.memo.Tallies asked) : r.Counts asked s where
  scans := h.scans.trans s.memo.count_add_count.symm
  toManaged := h.count_eq .toManaged
  toHost := h.count_eq .toHost
  asked_iff m := by
    rw [← Option.ne_none_iff_isSome, Ne, h.find?_eq_none_iff, not_not]
  again m hm := resolve_of_mem h hm
  once m hm := by
    rw [resolve_of_notMem h hm]
    rfl

/-! ## What a program does -/

/-- What a program can do with a bridge that may look converters up. -/
inductive Job where
  | query (q : Query)
  | decode (v : HostValue) (required : ManagedType)
  | encode (v : Managed)
  /-- Decodes with the converter at a place of the registry. -/
  | decodeAt (place : Nat) (required : Option ManagedType) (v : HostValue)
  /-- Encodes with the converter at a place of the registry. -/
  | encodeAt (place : Nat) (wanted : Option HostType) (v : Managed)
  | call (depth : Nat) (target : Target) (args : List HostValue)
  /-- Anything that happens to the heap or to the journal in between. -/
  | change (act : Store → Store)

/-- The state that a job leaves. A call that nests too deep leaves none. -/
def Job.run? (b : Bridge) : Job → MarshalState → Option MarshalState
  | query q, s => some (resolve b.registry q.mapping s).2
  | decode v required, s => some (Gridcall.decode b.registry v required s).2
  | encode v, s => some (Gridcall.encode b.registry v s).2
  | decodeAt place required v, s =>
    (b.registry[place]?).map fun c => (decodeUsing b.registry c required v s).2
  | encodeAt place wanted v, s =>
    (b.registry[place]?).map fun c => (encodeUsing b.registry c wanted v s).2
  | call depth target args, s => (b.call? depth target args s).map Prod.snd
  | change act, s => some { s with store := act s.store }

/-- The mapping that a job asks for first, where this can be told without running it. -/
def Job.first? : Job → Option Mapping
  | query q => some q.mapping
  | decode v required => some (.decoding v.hostType required)
  | encode v => v.runtimeType?.map .encoding
  | _ => none

def Bridge.after? (b : Bridge) (jobs : List Job) (s : MarshalState) : Option MarshalState :=
  jobs.foldlM (fun s job => job.run? b s) s

/-! ## What it asks for -/

section Asks

variable {b : Bridge}

theorem asks_after_look {m : Mapping} (h : ReflTransGen b.Step (resolve b.registry m s).2 s') :
    ∃ asked, b.registry.Asks s (m :: asked) s' := by
  obtain ⟨asked, hasked⟩ := asks_of_steps h
  exact ⟨asked, .ask m hasked⟩

theorem asks_decode (b : Bridge) (v : HostValue) (required : ManagedType) (s : MarshalState) :
    ∃ asked, b.registry.Asks s (.decoding v.hostType required :: asked)
      (decode b.registry v required s).2 := by
  refine asks_after_look ?_
  unfold decode Outside.decode decoderFor resolveOr
  rw [bind_assoc, bind_assoc, bind_of_ok (liftM_resolve_run _ s)]
  cases hlook : (resolve b.registry (.decoding v.hostType required) s).1 with
  | none => exact .refl
  | some c => exact moves_decodeUsing b.conversionSteps c.converter (some required) v _

theorem asks_encode (b : Bridge) {v : Managed} {type : ManagedType} (htype : v.runtimeType? = some type)
    (s : MarshalState) :
    ∃ asked, b.registry.Asks s (.encoding type :: asked) (encode b.registry v s).2 := by
  refine asks_after_look ?_
  unfold encode Outside.encode encodeWith
  rw [htype]
  dsimp only
  rw [bind_of_ok (liftM_resolve_run _ s)]
  cases hlook : (resolve b.registry (.encoding type) s).1 with
  | none => exact moves_mintValue b.conversionSteps v _
  | some c => exact moves_encodeUsing b.conversionSteps c.converter none v _

/-- What a job asks for starts with the mapping that it asks for first. -/
theorem asks_of_job {job : Job} (h : job.run? b s = some s') :
    ∃ asked, b.registry.Asks s asked s' ∧ ∀ m, job.first? = some m → asked.head? = some m := by
  have hany : job.first? = none → ReflTransGen b.Step s s' → ∃ asked, b.registry.Asks s asked s' ∧
      ∀ m, job.first? = some m → asked.head? = some m := by
    intro hfirst hsteps
    obtain ⟨asked, hasked⟩ := asks_of_steps hsteps
    refine ⟨asked, hasked, fun m hm => ?_⟩
    rw [hfirst] at hm
    cases hm
  cases job with
  | query q =>
    obtain rfl := Option.some.inj h
    exact ⟨[q.mapping], .ask _ (.refl _), fun m hm => hm⟩
  | decode v required =>
    obtain rfl := Option.some.inj h
    obtain ⟨asked, hasked⟩ := asks_decode b v required s
    exact ⟨_, hasked, fun m hm => hm⟩
  | encode v =>
    obtain rfl := Option.some.inj h
    cases htype : v.runtimeType? with
    | none =>
      refine hany ?_ (moves_encode b.conversionSteps v s)
      rw [Job.first?, htype, Option.map_none]
    | some type =>
      obtain ⟨asked, hasked⟩ := asks_encode b htype s
      refine ⟨_, hasked, fun m hm => ?_⟩
      rw [Job.first?, htype] at hm
      exact hm
  | decodeAt place required v =>
    obtain ⟨c, -, rfl⟩ := Option.map_eq_some_iff.mp h
    exact hany rfl (moves_decodeUsing b.conversionSteps c required v s)
  | encodeAt place wanted v =>
    obtain ⟨c, -, rfl⟩ := Option.map_eq_some_iff.mp h
    exact hany rfl (moves_encodeUsing b.conversionSteps c wanted v s)
  | call depth target args =>
    obtain ⟨p, hp, rfl⟩ := Option.map_eq_some_iff.mp h
    exact hany rfl (moves_call? b depth target args s p hp)
  | change act =>
    obtain rfl := Option.some.inj h
    refine ⟨[], asks_of_memo_eq rfl, fun m hm => ?_⟩
    cases hm

theorem asks_of_jobs {jobs : List Job} (h : b.after? jobs s = some s') :
    ∃ asked : List (List Mapping), List.Forall₂
        (fun job ms => ∀ m, job.first? = some m → ms.head? = some m) jobs asked ∧
      b.registry.Asks s asked.flatten s' := by
  induction jobs generalizing s with
  | nil =>
    obtain rfl := Option.some.inj h
    exact ⟨[], .nil, .refl _⟩
  | cons job jobs ih =>
    rw [Bridge.after?, List.foldlM_cons] at h
    obtain ⟨s₁, hjob, hjobs⟩ := Option.bind_eq_some_iff.mp h
    obtain ⟨first, hasks, hfirst⟩ := asks_of_job hjob
    obtain ⟨rest, hrest, hasks'⟩ := ih hjobs
    exact ⟨first :: rest, .cons hfirst hrest, hasks.trans hasks'⟩

end Asks

/-- **Each mapping is scanned for once.** Whatever a program does with a bridge whose memo is empty at the
start, direct questions, conversions, and calls that nest as deep as they like, it comes down to a row of
mappings that converters were looked up for, and whatever such a row is and wherever it ends, the counters
are these: there were as many scans as there are remembered answers, and for either direction as many
answers as there are different mappings in the row, those for which there is no converter included. So a
question about a mapping of the row changes nothing, and any other question is scanned for. -/
theorem stats_of_jobs (b : Bridge) (store : Store) :
    (∀ jobs s', b.after? jobs ⟨store, .empty⟩ = some s' → ∃ asked : List (List Mapping),
      List.Forall₂ (fun job ms => ∀ m, job.first? = some m → ms.head? = some m) jobs asked ∧
        b.registry.Asks ⟨store, .empty⟩ asked.flatten s' ∧ b.registry.Counts asked.flatten s') ∧
    ∀ asked s', b.registry.Asks ⟨store, .empty⟩ asked s' → b.registry.Counts asked s' := by
  have hcounts : ∀ asked s', b.registry.Asks ⟨store, .empty⟩ asked s' → b.registry.Counts asked s' := by
    intro asked s' hasks
    have htallies := tallies_of_asks hasks tallies_empty
    rw [List.nil_append] at htallies
    exact htallies.counts b.registry
  refine ⟨fun jobs s' hrun => ?_, hcounts⟩
  obtain ⟨asked, hjobs, hasks⟩ := asks_of_jobs hrun
  exact ⟨asked, hjobs, hasks, hcounts _ _ hasks⟩

/-- A question without an answer, put twice, a question with one, a row of texts, which is looked up once,
and a call that decodes the row again and encodes what it makes of it. -/
theorem stats_of_jobs_call :
    let reverse : Export := ⟨⟨1⟩, .function "Reverse" "Demo" [.array .string] (some (.array .string)),
      fun frame => match frame.args with
        | [.array element items] => .done (.array element items.reverse)
        | _ => frame.fail "no array"⟩
    let b : Bridge := ⟨{}, Converter.defaults, ⟨[reverse], [("Reverse", [⟨1⟩])]⟩⟩
    let row : HostValue := .array ⟨1, 2, [.string "a", .string "b"]⟩
    let jobs : List Job := [.query (.decoding .boolean .int), .query (.decoding .boolean .int),
      .query (.encoding .int), .decode row (.array .string), .call 1 (.name "Reverse") [row]]
    ∃ s', b.after? jobs ⟨.empty, .empty⟩ = some s' ∧
      b.registry.stats s'.memo = ⟨29, 6, 3, 3⟩ ∧
      ∃ asked : List (List Mapping), b.registry.Asks ⟨.empty, .empty⟩ asked.flatten s' ∧
        b.registry.Counts asked.flatten s' := by
  intro reverse b row jobs
  have hrun : (b.after? jobs ⟨.empty, .empty⟩).map (fun s => b.registry.stats s.memo) =
      some ⟨29, 6, 3, 3⟩ := by
    simp only [b, reverse, row, jobs]
    cbv
  obtain ⟨s', hs', hstats⟩ := Option.map_eq_some_iff.mp hrun
  obtain ⟨asked, -, hasks, hcounts⟩ := (stats_of_jobs b .empty).1 jobs s' hs'
  exact ⟨s', hs', hstats, asked, hasks, hcounts⟩

end Gridcall
