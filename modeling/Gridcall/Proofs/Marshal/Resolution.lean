import Gridcall.Marshal.Registry
import Mathlib

/-!
# Resolution

Which converter a registry picks for a mapping, and that remembered answers change nothing about it.

* `Registry.IsBest` : of the converters that accept a mapping, one of greatest priority, and of these
  the one registered first;
* `Registry.scan_eq_some_iff`, `scan_eq_none_iff` : the look-up among all converters finds the best;
* `Memo.Truthful` : every remembered answer is the one that a look-up would give, the invariant of
  `resolve`;
* `resolve_after_queries` : the rule of the best converter after any queries.
-/

namespace Gridcall

/-! ## The best converter -/

/-- Of the converters that accept a mapping, `c` has the greatest priority, and those that share it
were registered later. -/
structure Registry.IsBest (r : Registry) (m : Mapping) (c : Registered) : Prop where
  registered : r[c.index]? = some c.converter
  accepts : c.converter.accepts m = true
  /-- No other one that accepts it is of greater priority. -/
  priority_le : ∀ d ∈ r, d.accepts m = true → d.priority ≤ c.converter.priority
  /-- Among equals it was registered first. -/
  index_le : ∀ i d, r[i]? = some d → d.accepts m = true →
    d.priority = c.converter.priority → c.index ≤ i

namespace Registry

variable {r : Registry} {m : Mapping} {c d : Registered}

theorem IsBest.unique (hc : r.IsBest m c) (hd : r.IsBest m d) : c = d := by
  have hcd := hd.priority_le _ (List.mem_of_getElem? hc.registered) hc.accepts
  have hdc := hc.priority_le _ (List.mem_of_getElem? hd.registered) hd.accepts
  have hindex : c.index = d.index := Nat.le_antisymm
    (hc.index_le _ _ hd.registered hd.accepts (by omega))
    (hd.index_le _ _ hc.registered hc.accepts (by omega))
  obtain ⟨i, conv⟩ := c
  obtain ⟨j, conv'⟩ := d
  obtain rfl : i = j := hindex
  have hsame := hc.registered.symm.trans hd.registered
  simpa using hsame

/-! ## The scan -/

theorem mem_indexed_iff : c ∈ r.indexed ↔ r[c.index]? = some c.converter := by
  rw [indexed, List.mem_map]
  constructor
  · rintro ⟨⟨conv, i⟩, hmem, rfl⟩
    exact List.mk_mem_zipIdx_iff_getElem?.mp hmem
  · intro h
    exact ⟨(c.converter, c.index), List.mk_mem_zipIdx_iff_getElem?.mpr h, rfl⟩

theorem pairwise_indexed (r : Registry) : r.indexed.Pairwise fun c d => c.index < d.index := by
  rw [indexed, List.pairwise_map, ← List.pairwise_map (f := Prod.snd) (R := (· < ·)),
    List.zipIdx_map_snd, ← List.range_eq_range']
  exact List.pairwise_lt_range

/-- The pick of a list of candidates: none has a greater priority, and none before it the same. -/
def IsPick (candidates : List Registered) (c : Registered) : Prop :=
  c ∈ candidates ∧ ∀ d ∈ candidates, d.converter.priority ≤ c.converter.priority ∧
    (d.converter.priority = c.converter.priority → c.index ≤ d.index)

theorem better_ne_none (pick : Option Registered) (candidate : Registered) :
    better pick candidate ≠ none := by
  unfold better
  split
  · split <;> simp
  · simp

theorem foldl_better_eq_none_iff {candidates : List Registered} :
    candidates.foldl better none = none ↔ candidates = [] := by
  induction candidates using List.reverseRecOn with
  | nil => simp
  | append_singleton candidates last _ =>
    rw [List.foldl_append, List.foldl_cons, List.foldl_nil]
    simp [better_ne_none]

/-- Candidates that stand later replace the pick only if they are strictly better. -/
theorem isPick_of_foldl_better {candidates : List Registered}
    (hsorted : candidates.Pairwise fun c d => c.index < d.index)
    (h : candidates.foldl better none = some c) : IsPick candidates c := by
  induction candidates using List.reverseRecOn generalizing c with
  | nil => cases h
  | append_singleton candidates last ih =>
    rw [List.pairwise_append] at hsorted
    obtain ⟨hinit, -, hlast⟩ := hsorted
    rw [List.foldl_append, List.foldl_cons, List.foldl_nil] at h
    cases hpick : candidates.foldl better none with
    | none =>
      obtain rfl := foldl_better_eq_none_iff.mp hpick
      obtain rfl : last = c := by simpa [better] using h
      exact ⟨by simp, by simp⟩
    | some best =>
      obtain ⟨hmem, hbest⟩ := ih hinit hpick
      have hbefore := hlast best hmem last (List.mem_singleton_self _)
      rw [hpick, better] at h
      split at h
      · next hle =>
        obtain rfl : best = c := by simpa using h
        refine ⟨List.mem_append_left _ hmem, fun d hd => ?_⟩
        rcases List.mem_append.mp hd with hd | hd
        · exact hbest d hd
        · obtain rfl := List.mem_singleton.mp hd
          exact ⟨hle, fun _ => Nat.le_of_lt hbefore⟩
      · next hlt =>
        obtain rfl : last = c := by simpa using h
        refine ⟨List.mem_append_right _ (List.mem_singleton_self _), fun d hd => ?_⟩
        rcases List.mem_append.mp hd with hd | hd
        · have := (hbest d hd).1
          exact ⟨by omega, fun heq => by omega⟩
        · obtain rfl := List.mem_singleton.mp hd
          exact ⟨Int.le_refl _, fun _ => Nat.le_refl _⟩

theorem isBest_of_scan (h : r.scan m = some c) : r.IsBest m c := by
  obtain ⟨hmem, hpick⟩ := isPick_of_foldl_better (r.pairwise_indexed.filter _) h
  have hcandidate : ∀ i d, r[i]? = some d → d.accepts m = true →
      (⟨i, d⟩ : Registered) ∈ r.indexed.filter fun c => c.converter.accepts m := fun i d hd ha =>
    List.mem_filter.mpr ⟨mem_indexed_iff.mpr hd, ha⟩
  obtain ⟨hreg, haccepts⟩ := List.mem_filter.mp hmem
  refine ⟨mem_indexed_iff.mp hreg, haccepts, fun d hd ha => ?_, fun i d hd ha => ?_⟩
  · obtain ⟨i, hi⟩ := List.mem_iff_getElem?.mp hd
    exact (hpick _ (hcandidate i d hi ha)).1
  · exact (hpick _ (hcandidate i d hd ha)).2

/-- No converter is found exactly if none accepts the mapping. -/
theorem scan_eq_none_iff : r.scan m = none ↔ ∀ d ∈ r, d.accepts m = false := by
  rw [scan, foldl_better_eq_none_iff, List.filter_eq_nil_iff]
  constructor
  · intro h d hd
    obtain ⟨i, hi⟩ := List.mem_iff_getElem?.mp hd
    exact Bool.eq_false_iff.mpr (h ⟨i, d⟩ (mem_indexed_iff.mpr hi))
  · intro h c hc
    rw [h _ (List.mem_of_getElem? (mem_indexed_iff.mp hc))]
    exact Bool.false_ne_true

/-- The converter that is found is the best one. -/
theorem scan_eq_some_iff : r.scan m = some c ↔ r.IsBest m c := by
  refine ⟨isBest_of_scan, fun h => ?_⟩
  cases hscan : r.scan m with
  | none =>
    have := scan_eq_none_iff.mp hscan _ (List.mem_of_getElem? h.registered)
    rw [h.accepts] at this
    cases this
  | some d => rw [h.unique (isBest_of_scan hscan)]

theorem at?_scan (r : Registry) (m : Mapping) :
    ((r.scan m).map Registered.index).bind r.at? = r.scan m := by
  cases h : r.scan m with
  | none => rfl
  | some c => simp [at?, (isBest_of_scan h).registered]

theorem mem_of_scan (h : r.scan m = some c) : c.converter ∈ r :=
  List.mem_of_getElem? (isBest_of_scan h).registered

/-- The best converter for decoding, or the failure that there is none. -/
def decoder (r : Registry) (host : HostType) (required : ManagedType) :
    Except CallError Converter :=
  match r.scan (.decoding host required) with
  | some c => .ok c.converter
  | none => .error (.noConverter host.text required.text)

theorem mem_of_decoder {host : HostType} {required : ManagedType} {c : Converter}
    (h : r.decoder host required = .ok c) : c ∈ r := by
  unfold decoder at h
  split at h
  · next d hscan =>
    obtain rfl := Except.ok.inj h
    exact mem_of_scan hscan
  · cases h

end Registry

/-! ## Remembered answers -/

/-- Every remembered answer is the one that a look-up among all converters gives. -/
def Memo.Truthful (r : Registry) (memo : Memo) : Prop :=
  ∀ m answer, memo.find? m = some answer → answer = (r.scan m).map Registered.index

namespace Memo

variable {r : Registry} {memo : Memo}

theorem truthful_empty (r : Registry) : empty.Truthful r := fun _ _ h => by cases h

theorem find?_remember (memo : Memo) (m m' : Mapping) (answer : Option Nat) :
    (memo.remember m answer).find? m' = if m' = m then some answer else memo.find? m' := by
  simp only [find?, remember, List.lookup_cons]
  by_cases h : m' = m
  · simp [h]
  · rw [if_neg h, beq_eq_false_iff_ne.mpr h]

theorem Truthful.remember (h : memo.Truthful r) (m : Mapping) :
    (memo.remember m ((r.scan m).map Registered.index)).Truthful r := by
  intro m' answer hfind
  rw [find?_remember] at hfind
  split at hfind
  · next heq =>
    subst heq
    exact (Option.some.inj hfind).symm
  · exact h m' answer hfind

end Memo

/-- Whatever is remembered, the answer is that of a look-up; what is remembered stays truthful, and
the heap is not touched. -/
theorem resolve_of_truthful {r : Registry} {s : MarshalState} (hs : s.memo.Truthful r) (m : Mapping) :
    ∃ s', resolve r m s = (r.scan m, s') ∧ s'.store.heap = s.store.heap ∧ s'.memo.Truthful r := by
  unfold resolve
  cases hfind : s.memo.find? m with
  | none => exact ⟨_, rfl, rfl, Memo.Truthful.remember hs m⟩
  | some answer =>
    obtain rfl := hs m answer hfind
    exact ⟨s, congrArg (·, s) (Registry.at?_scan r m), rfl, hs⟩

/-! ## Queries -/

/-- A question that can be put to a registry. -/
inductive Query where
  /-- Which converter takes a host value of this kind into a slot of this type. -/
  | decoding (host : HostType) (required : ManagedType)
  /-- Which converter takes a managed value of this type to the host. -/
  | encoding (runtime : ManagedType)

def Query.mapping : Query → Mapping
  | decoding host required => .decoding host required
  | encoding runtime => .encoding runtime

def afterQueries (r : Registry) (s : MarshalState) (queries : List Query) : MarshalState :=
  queries.foldl (fun s q => (resolve r q.mapping s).2) s

theorem truthful_afterQueries {r : Registry} {s : MarshalState} (hs : s.memo.Truthful r)
    (queries : List Query) : (afterQueries r s queries).memo.Truthful r := by
  induction queries generalizing s with
  | nil => exact hs
  | cons q queries ih =>
    obtain ⟨s', hrun, -, hs'⟩ := resolve_of_truthful hs q.mapping
    rw [afterQueries, List.foldl_cons, hrun]
    exact ih hs'

/-- **Remembered answers are those of the rule of the best converter.** After any questions, of either
direction, the registry finds no converter exactly if none accepts the mapping, and otherwise the best
one; what was asked before makes no difference. -/
theorem resolve_after_queries (r : Registry) (store : Store) (past : List Query) (q : Query) :
    let answer := (resolve r q.mapping (afterQueries r ⟨store, .empty⟩ past)).1
    (answer = none ↔ ∀ d ∈ r, d.accepts q.mapping = false) ∧
      (∀ c, answer = some c ↔ r.IsBest q.mapping c) ∧
      ∀ past', answer = (resolve r q.mapping (afterQueries r ⟨store, .empty⟩ past')).1 := by
  have hanswer : ∀ queries, (resolve r q.mapping (afterQueries r ⟨store, .empty⟩ queries)).1 =
      r.scan q.mapping := fun queries => by
    have hs := truthful_afterQueries (s := ⟨store, .empty⟩) (Memo.truthful_empty r) queries
    obtain ⟨s', hrun, -⟩ := resolve_of_truthful hs q.mapping
    rw [hrun]
  intro answer
  have hscan : answer = r.scan q.mapping := hanswer past
  refine ⟨?_, fun c => ?_, fun past' => hscan.trans (hanswer past').symm⟩
  · rw [hscan]
    exact Registry.scan_eq_none_iff
  · rw [hscan]
    exact Registry.scan_eq_some_iff

end Gridcall
