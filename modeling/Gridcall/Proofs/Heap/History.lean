import Gridcall.Heap
import Mathlib

/-!
# The heap and its history

What a heap answers is decided by what it was asked before. A `HeapEvent` is a request together with
its answer, and the events of a run are the heap's past.

* `Heap.run` : the events of a list of requests, and the heap that they leave;
* `Holds past handle o` : `o` was stored under `handle` and the handle was not released since;
* `Heap.Tracks past h` : the invariant, which ties the table, the next handle and the two counters to
  the past; `Tracks.mint`, `Tracks.release` and `Tracks.look` are the steps and `tracks_run` the run;
* `Heap.Faithful past h` : every answer of the heap is the one that its past demands
  (`faithful_run`).

Handles are 64-bit numbers, and the counter may only run as far as the greatest positive one.
-/

namespace Gridcall

/-! ## Requests and events -/

inductive HeapRequest where
  | mint (o : Object)
  | get (handle : Handle)
  | getOfClass (handle : Handle) (className : ClassName)
  | release (handle : Handle)

/-- A request with the answer that it got. -/
inductive HeapEvent where
  | minted (o : Object) (handle : Handle)
  | found (handle : Handle) (answer : Option Object)
  | foundOfClass (handle : Handle) (className : ClassName)
      (answer : Option (Except ClassName Object))
  /-- A handle was to be forgotten, whether it was live or not. -/
  | released (handle : Handle) (wasLive : Bool)

def HeapRequest.isMint : HeapRequest → Bool
  | mint _ => true
  | _ => false

def HeapEvent.issued? : HeapEvent → Option Handle
  | minted _ handle => some handle
  | _ => none

def HeapEvent.isRelease : HeapEvent → Bool
  | released _ wasLive => wasLive
  | _ => false

def issuedHandles (past : List HeapEvent) : List Handle := past.filterMap HeapEvent.issued?

/-- `o` was stored under `handle`, and no later event tried to release the handle. -/
def Holds (past : List HeapEvent) (handle : Handle) (o : Object) : Prop :=
  ∃ before since, past = before ++ .minted o handle :: since ∧
    ∀ wasLive, .released handle wasLive ∉ since

namespace Heap

def perform (h : Heap) : HeapRequest → HeapEvent × Heap
  | .mint o => (.minted o (h.mint o).1, (h.mint o).2)
  | .get handle => (.found handle (h.get? handle), h)
  | .getOfClass handle className => (.foundOfClass handle className (h.getOfClass? handle className), h)
  | .release handle => (.released handle (h.release handle).1, (h.release handle).2)

def extend (run : List HeapEvent × Heap) (request : HeapRequest) : List HeapEvent × Heap :=
  (run.1 ++ [(run.2.perform request).1], (run.2.perform request).2)

/-- The events of a list of requests, and the heap that they leave. -/
def run (h : Heap) (requests : List HeapRequest) : List HeapEvent × Heap :=
  requests.foldl extend ([], h)

theorem run_snoc (h : Heap) (requests : List HeapRequest) (request : HeapRequest) :
    h.run (requests ++ [request]) = extend (h.run requests) request := by
  rw [run, List.foldl_append]
  rfl

end Heap

/-! ## What a past holds -/

theorem issuedHandles_snoc (past : List HeapEvent) (e : HeapEvent) :
    issuedHandles (past ++ [e]) = issuedHandles past ++ e.issued?.toList := by
  rw [issuedHandles, List.filterMap_append]
  cases h : e.issued? <;> simp [issuedHandles, h]

theorem length_issuedHandles_snoc (past : List HeapEvent) (e : HeapEvent) :
    (issuedHandles (past ++ [e])).length = (issuedHandles past).length + e.issued?.toList.length := by
  rw [issuedHandles_snoc, List.length_append]

theorem Holds.mem_issuedHandles {past : List HeapEvent} {handle : Handle} {o : Object}
    (h : Holds past handle o) : handle ∈ issuedHandles past := by
  obtain ⟨before, since, rfl, -⟩ := h
  exact List.mem_filterMap.mpr ⟨.minted o handle, by simp, rfl⟩

/-- The last event either is the storing itself, or it left the handle alone. -/
theorem holds_snoc_iff {past : List HeapEvent} {e : HeapEvent} {handle : Handle} {o : Object} :
    Holds (past ++ [e]) handle o ↔
      e = .minted o handle ∨ (Holds past handle o ∧ ∀ wasLive, e ≠ .released handle wasLive) := by
  constructor
  · rintro ⟨before, since, heq, hsince⟩
    rcases List.eq_nil_or_concat since with rfl | ⟨since, last, rfl⟩
    · exact Or.inl (by simpa using (List.append_inj' heq rfl).2)
    · rw [List.concat_eq_append, ← List.cons_append, ← List.append_assoc] at heq
      obtain ⟨rfl, hlast⟩ := List.append_inj' heq rfl
      obtain rfl : e = last := by simpa using hlast
      refine Or.inr ⟨⟨before, since, rfl, fun b hb => hsince b ?_⟩, fun b hb => hsince b ?_⟩
      · simp [hb]
      · simp [hb]
  · rintro (rfl | ⟨⟨before, since, rfl, hsince⟩, hlast⟩)
    · exact ⟨past, [], rfl, by simp⟩
    · refine ⟨before, since ++ [e], by simp, fun b hb => ?_⟩
      rcases List.mem_append.mp hb with hb | hb
      · exact hsince b hb
      · exact hlast b (List.mem_singleton.mp hb).symm

namespace Heap

/-- The answers that a past demands of a heap. -/
structure Faithful (past : List HeapEvent) (h : Heap) : Prop where
  /-- A handle finds the very object that was stored under it, until it is released. -/
  get?_iff : ∀ handle o, h.get? handle = some o ↔ Holds past handle o
  /-- Any other handle finds nothing. -/
  get?_none_iff : ∀ handle, h.get? handle = none ↔ ¬ ∃ o, Holds past handle o
  /-- Zero and negative handles find nothing. -/
  get?_nonpos : ∀ handle : Handle, handle.raw.toInt ≤ 0 → h.get? handle = none
  /-- A look-up for a class finds the object if it is of the class. -/
  getOfClass?_ok_iff : ∀ handle className o,
    h.getOfClass? handle className = some (.ok o) ↔ Holds past handle o ∧ o.className = className
  /-- For an object of another class the look-up tells that class. -/
  getOfClass?_error_iff : ∀ handle className actual,
    h.getOfClass? handle className = some (.error actual) ↔
      ∃ o, Holds past handle o ∧ o.className = actual ∧ actual ≠ className
  /-- No handle was given out twice. -/
  issued_nodup : (issuedHandles past).Nodup
  /-- A release says whether the handle was live. -/
  release_iff : ∀ handle, (h.release handle).1 = true ↔ ∃ o, Holds past handle o
  /-- Releasing a handle that is not live changes nothing. -/
  release_dead : ∀ handle, (h.release handle).1 = false → (h.release handle).2 = h
  /-- The first counter counts the handles given out. -/
  stats_minted : h.stats.minted = (issuedHandles past).length
  /-- The second counter counts the releases of live handles. -/
  stats_released : h.stats.released = past.countP HeapEvent.isRelease
  /-- The live handles are those given out less those released. -/
  stats_live : h.stats.live + h.stats.released = h.stats.minted

end Heap

/-! ## The invariant -/

theorem handle_ofNat_inj {a b : Nat} (ha : a < 2 ^ 64) (hb : b < 2 ^ 64)
    (h : (⟨Int64.ofNat a⟩ : Handle) = ⟨Int64.ofNat b⟩) : a = b := by
  have hbits := congrArg (fun x : Handle => x.raw.toBitVec.toNat) h
  simp only [Int64.toBitVec_ofNat', BitVec.toNat_ofNat] at hbits
  rwa [Nat.mod_eq_of_lt ha, Nat.mod_eq_of_lt hb] at hbits

namespace Heap

/-- The handles are numbered from one. -/
def handleAt (i : Nat) : Handle := ⟨Int64.ofNat (i + 1)⟩

theorem handleAt_inj {i j : Nat} (hi : i < 2 ^ 63) (hj : j < 2 ^ 63) (h : handleAt i = handleAt j) :
    i = j := by
  have := handle_ofNat_inj (by omega) (by omega) h
  omega

/-- The handles on record, the table, the next handle and the counters agree with the past. -/
structure Tracks (past : List HeapEvent) (h : Heap) : Prop where
  /-- Handles were given out in order. -/
  issued : issuedHandles past = (List.range (issuedHandles past).length).map handleAt
  /-- The next handle continues the order. -/
  next : (⟨h.next⟩ : Handle) = handleAt (issuedHandles past).length
  /-- The table finds what the past holds. -/
  get?_iff : ∀ handle o, h.get? handle = some o ↔ Holds past handle o
  /-- No handle stands twice in the table. -/
  keys_nodup : (h.entries.map Prod.fst).Nodup
  /-- One counter counts the handles given out. -/
  minted : h.minted = (issuedHandles past).length
  /-- The other counts the handles taken away. -/
  released : h.released = past.countP HeapEvent.isRelease
  /-- What was given out and not taken away is in the table. -/
  size : h.size + h.released = h.minted

theorem tracks_empty : Tracks [] empty where
  issued := rfl
  next := rfl
  get?_iff handle o := by
    refine ⟨fun h => by simp [get?_empty] at h, ?_⟩
    rintro ⟨before, since, h, -⟩
    simp at h
  keys_nodup := List.nodup_nil
  minted := rfl
  released := rfl
  size := rfl

variable {past : List HeapEvent} {h : Heap}

/-- The next handle is none of those given out before. -/
theorem Tracks.next_not_mem (ht : Tracks past h) (hroom : (issuedHandles past).length < 2 ^ 63) :
    (⟨h.next⟩ : Handle) ∉ issuedHandles past := by
  intro hmem
  have hmem' : (⟨h.next⟩ : Handle) ∈ (List.range (issuedHandles past).length).map handleAt := by
    rw [← ht.issued]; exact hmem
  obtain ⟨i, hi, heq⟩ := List.mem_map.mp hmem'
  have hlt := List.mem_range.mp hi
  rw [ht.next] at heq
  have := handleAt_inj (by omega) hroom heq
  omega

theorem mem_keys_iff {handle : Handle} :
    handle ∈ h.entries.map Prod.fst ↔ (h.get? handle).isSome := by
  rw [get?, List.lookup_isSome_iff, List.mem_map]
  constructor
  · rintro ⟨e, he, rfl⟩
    exact ⟨e, he, by simp⟩
  · rintro ⟨e, he, heq⟩
    exact ⟨e, he, (beq_iff_eq.mp heq).symm⟩

theorem get?_next_eq_none (ht : Tracks past h) (hroom : (issuedHandles past).length < 2 ^ 63) :
    h.get? ⟨h.next⟩ = none := by
  cases hget : h.get? ⟨h.next⟩ with
  | none => rfl
  | some o => exact absurd ((ht.get?_iff _ o).mp hget).mem_issuedHandles (ht.next_not_mem hroom)

/-! ## One step -/

theorem entries_mint_of_fresh (o : Object) (hfresh : h.get? ⟨h.next⟩ = none) :
    (h.mint o).2.entries = (⟨h.next⟩, o) :: h.entries := by
  simp only [mint, List.cons.injEq, true_and, List.filter_eq_self]
  intro e he
  refine bne_iff_ne.mpr fun heq => ?_
  have hlive := mem_keys_iff.mp (List.mem_map.mpr ⟨e, he, heq⟩)
  simp [hfresh] at hlive

theorem keys_release_sublist (handle : Handle) :
    ((h.release handle).2.entries.map Prod.fst).Sublist (h.entries.map Prod.fst) := by
  unfold release
  split
  · exact List.filter_sublist.map Prod.fst
  · exact List.Sublist.refl _

/-- Releasing a live handle takes one entry out of the table. -/
theorem size_release (hkeys : (h.entries.map Prod.fst).Nodup) {handle : Handle}
    (hlive : (h.get? handle).isSome) : (h.release handle).2.size + 1 = h.size := by
  have hcount : h.entries.countP (fun e => e.1 == handle) = 1 := by
    have := List.count_eq_one_of_mem hkeys (mem_keys_iff.mpr hlive)
    rwa [List.count, List.countP_map] at this
  have hsplit := List.length_eq_countP_add_countP (fun e : Handle × Object => e.1 == handle) (l := h.entries)
  rw [hcount] at hsplit
  simp only [release, hlive, if_true, size, ← List.countP_eq_length_filter]
  simp only [bne, Bool.not_eq_true, Bool.decide_eq_false] at hsplit ⊢
  omega

theorem Tracks.mint (ht : Tracks past h) (hroom : (issuedHandles past).length < 2 ^ 63) (o : Object) :
    Tracks (past ++ [.minted o (h.mint o).1]) (h.mint o).2 := by
  have hfresh := get?_next_eq_none ht hroom
  have hentries := entries_mint_of_fresh o hfresh
  have hissued : issuedHandles (past ++ [.minted o (h.mint o).1]) = issuedHandles past ++ [⟨h.next⟩] :=
    issuedHandles_snoc past _
  have hlength : (issuedHandles (past ++ [.minted o (h.mint o).1])).length =
      (issuedHandles past).length + 1 := by
    rw [hissued, List.length_append, List.length_singleton]
  constructor
  case issued =>
    rw [hlength, List.range_succ, List.map_append, ← ht.issued, hissued, ht.next]
    rfl
  case next =>
    rw [hlength]
    have hnext := congrArg Handle.raw ht.next
    simp only [handleAt] at hnext ⊢
    rw [Int64.ofNat_add, ← hnext]
    rfl
  case get?_iff =>
    intro handle o'
    rw [get?_mint, holds_snoc_iff]
    by_cases hh : handle = ⟨h.next⟩
    · subst hh
      have hno : ¬ Holds past ⟨h.next⟩ o' := fun hold =>
        ht.next_not_mem hroom hold.mem_issuedHandles
      simp [Heap.mint, hno]
    · have hne : (.minted o (h.mint o).1 : HeapEvent) ≠ .minted o' handle := fun heq =>
        hh (HeapEvent.minted.inj heq).2.symm
      simp [hh, hne, ht.get?_iff]
  case keys_nodup =>
    rw [hentries, List.map_cons, List.nodup_cons]
    exact ⟨fun hmem => by simpa [hfresh] using mem_keys_iff.mp hmem, ht.keys_nodup⟩
  case minted => rw [hlength, ← ht.minted]; rfl
  case released =>
    rw [List.countP_append, ← ht.released]
    rfl
  case size =>
    have hsize := ht.size
    simp only [Heap.size, hentries, List.length_cons]
    simp only [Heap.mint, Heap.size] at hsize ⊢
    omega

theorem Tracks.release (ht : Tracks past h) (handle : Handle) :
    Tracks (past ++ [.released handle (h.release handle).1]) (h.release handle).2 := by
  have hissued : issuedHandles (past ++ [.released handle (h.release handle).1]) =
      issuedHandles past := (issuedHandles_snoc past _).trans (List.append_nil _)
  constructor
  case issued => rw [hissued]; exact ht.issued
  case next =>
    rw [hissued, ← ht.next]
    unfold Heap.release
    split <;> rfl
  case get?_iff =>
    intro handle' o
    rw [get?_release, holds_snoc_iff]
    by_cases hh : handle' = handle
    · simp [hh]
    · have hne : ¬ handle = handle' := fun heq => hh heq.symm
      simp [hh, hne, ht.get?_iff]
  case keys_nodup => exact ht.keys_nodup.sublist (keys_release_sublist handle)
  case minted =>
    rw [hissued, ← ht.minted]
    unfold Heap.release
    split <;> rfl
  case released =>
    rw [List.countP_append, ← ht.released]
    unfold Heap.release
    split <;> rfl
  case size =>
    have hsize := ht.size
    by_cases hlive : (h.get? handle).isSome
    · have hone := size_release ht.keys_nodup hlive
      simp only [Heap.release, hlive, if_true] at hone ⊢
      omega
    · simpa [Heap.release, hlive] using hsize

/-- A look-up leaves the heap as it was, and gives out and releases nothing. -/
theorem Tracks.look (ht : Tracks past h) {e : HeapEvent} (hmint : ∀ o handle, e ≠ .minted o handle)
    (hrelease : ∀ handle wasLive, e ≠ .released handle wasLive) : Tracks (past ++ [e]) h := by
  have hnone : e.issued? = none := by
    cases e <;> simp_all [HeapEvent.issued?]
  have hfalse : e.isRelease = false := by
    cases e <;> simp_all [HeapEvent.isRelease]
  have hissued : issuedHandles (past ++ [e]) = issuedHandles past := by
    rw [issuedHandles_snoc, hnone]; exact List.append_nil _
  refine ⟨?_, ?_, fun handle o => ?_, ht.keys_nodup, ?_, ?_, ht.size⟩
  · rw [hissued]; exact ht.issued
  · rw [hissued]; exact ht.next
  · rw [holds_snoc_iff, ht.get?_iff]
    simp [hmint, hrelease]
  · rw [hissued]; exact ht.minted
  · rw [List.countP_append, ← ht.released]
    simp [hfalse]

/-! ## Whole runs -/

def mintCount (requests : List HeapRequest) : Nat := requests.countP HeapRequest.isMint

theorem length_issuedHandles_run (requests : List HeapRequest) :
    (issuedHandles (h.run requests).1).length = mintCount requests := by
  induction requests using List.reverseRecOn with
  | nil => rfl
  | append_singleton requests request ih =>
    rw [run_snoc, extend, length_issuedHandles_snoc, ih, mintCount, mintCount, List.countP_append]
    cases request <;> rfl

/-- Every run that asks for no more handles than there are keeps the heap in step with its past. -/
theorem tracks_run (capacity : Nat) (requests : List HeapRequest)
    (hroom : mintCount requests ≤ 2 ^ 63 - 1) :
    Tracks ((withCapacity capacity).run requests).1 ((withCapacity capacity).run requests).2 := by
  induction requests using List.reverseRecOn with
  | nil => exact tracks_empty
  | append_singleton requests request ih =>
    rw [mintCount, List.countP_append] at hroom
    have ht := ih (Nat.le_trans (Nat.le_add_right _ _) hroom)
    rw [run_snoc]
    cases request with
    | mint o =>
      refine ht.mint ?_ o
      rw [length_issuedHandles_run]
      simp only [HeapRequest.isMint, List.countP_singleton, if_true] at hroom
      simp only [mintCount]
      omega
    | get handle => exact ht.look (by simp [perform]) (by simp [perform])
    | getOfClass handle className => exact ht.look (by simp [perform]) (by simp [perform])
    | release handle => exact ht.release handle

theorem Tracks.handle_pos (ht : Tracks past h) (hroom : (issuedHandles past).length ≤ 2 ^ 63 - 1)
    {handle : Handle} (hmem : handle ∈ issuedHandles past) : 0 < handle.raw.toInt := by
  rw [ht.issued] at hmem
  obtain ⟨i, hi, rfl⟩ := List.mem_map.mp hmem
  have hlt := List.mem_range.mp hi
  rw [handleAt, Int64.toInt_ofNat_of_lt (by omega)]
  omega

theorem Tracks.issued_nodup (ht : Tracks past h)
    (hroom : (issuedHandles past).length ≤ 2 ^ 63 - 1) : (issuedHandles past).Nodup := by
  rw [ht.issued]
  refine List.nodup_range.map_on fun i hi j hj heq => ?_
  have hi' := List.mem_range.mp hi
  have hj' := List.mem_range.mp hj
  exact handleAt_inj (by omega) (by omega) heq

theorem release_fst (handle : Handle) : (h.release handle).1 = (h.get? handle).isSome := by
  unfold release
  split
  · next hlive => exact hlive.symm
  · next hdead => simpa using hdead

theorem Tracks.faithful (ht : Tracks past h) (hroom : (issuedHandles past).length ≤ 2 ^ 63 - 1) :
    Faithful past h := by
  have hnone : ∀ handle, h.get? handle = none ↔ ¬ ∃ o, Holds past handle o := by
    intro handle
    simp only [Option.eq_none_iff_forall_ne_some, ne_eq, ht.get?_iff, not_exists]
  constructor
  case get?_iff => exact ht.get?_iff
  case get?_none_iff => exact hnone
  case get?_nonpos =>
    intro handle hle
    refine (hnone handle).mpr ?_
    rintro ⟨o, hold⟩
    have := ht.handle_pos hroom hold.mem_issuedHandles
    omega
  case getOfClass?_ok_iff =>
    intro handle className o
    rw [getOfClass?, Option.map_eq_some_iff]
    constructor
    · rintro ⟨o', hget, heq⟩
      split at heq
      · next hclass =>
        obtain rfl : o' = o := by simpa using heq
        exact ⟨(ht.get?_iff _ _).mp hget, hclass⟩
      · cases heq
    · rintro ⟨hold, hclass⟩
      exact ⟨o, (ht.get?_iff _ _).mpr hold, if_pos hclass⟩
  case getOfClass?_error_iff =>
    intro handle className actual
    rw [getOfClass?, Option.map_eq_some_iff]
    constructor
    · rintro ⟨o, hget, heq⟩
      split at heq
      · cases heq
      · next hclass =>
        obtain rfl : o.className = actual := by simpa using heq
        exact ⟨o, (ht.get?_iff _ _).mp hget, rfl, hclass⟩
    · rintro ⟨o, hold, rfl, hclass⟩
      exact ⟨o, (ht.get?_iff _ _).mpr hold, if_neg hclass⟩
  case issued_nodup => exact ht.issued_nodup hroom
  case release_iff =>
    intro handle
    simp only [release_fst, Option.isSome_iff_exists, ht.get?_iff]
  case release_dead =>
    intro handle hdead
    rw [release_fst] at hdead
    simp [Heap.release, hdead]
  case stats_minted => exact ht.minted
  case stats_released => exact ht.released
  case stats_live => exact ht.size

/-- **The heap answers as its past demands, at every point of every run.** Whatever the capacity and
whatever the order of the requests: after any number `n` of them the heap finds exactly what was
stored and not released, has given out no handle twice, and counts right. -/
theorem faithful_run (capacity : Nat) (requests : List HeapRequest)
    (hroom : mintCount requests ≤ 2 ^ 63 - 1) (n : Nat) :
    Faithful ((withCapacity capacity).run (requests.take n)).1
      ((withCapacity capacity).run (requests.take n)).2 := by
  have hle : mintCount (requests.take n) ≤ 2 ^ 63 - 1 :=
    Nat.le_trans (List.Sublist.countP_le (List.take_sublist n requests)) hroom
  refine (tracks_run capacity _ hle).faithful ?_
  rwa [length_issuedHandles_run]

/-- An object is stored again after its first handle was released. -/
theorem faithful_run_reissue :
    let o : Object := { id := ⟨0⟩, className := "Person", contents := .text "Ada" }
    let requests : List HeapRequest := [.mint o, .release ⟨1⟩, .mint o, .release ⟨1⟩, .get ⟨1⟩]
    mintCount requests ≤ 2 ^ 63 - 1 ∧
      Faithful ((withCapacity 8).run (requests.take 4)).1 ((withCapacity 8).run (requests.take 4)).2 :=
  ⟨by decide, faithful_run 8 _ (by decide) 4⟩

end Heap

end Gridcall
