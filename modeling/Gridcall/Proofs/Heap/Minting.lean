import Gridcall.Proofs.Heap.History

/-!
# Giving out handles

What becomes of a heap while handles are given out and none is released.

* `Heap.Reached past h` : a heap that a bridge can have, with its past; the past tells what is in it
  (`Reached.tracks`);
* `Heap.Mints h stored h'` : from `h` to `h'` handles were given out for `stored`, in that order;
* `Heap.Adds past h stored h'` : what that means for the table, the counters and the handles
  (`Mints.adds`), and which handles are live then (`Adds.isSome_get?_iff`).
-/

namespace Gridcall

/-- The objects that were stored, in order, each with its handle. -/
abbrev Stored := List (Handle × Object)

def Stored.events (stored : Stored) : List HeapEvent := stored.map fun e => .minted e.2 e.1

theorem Stored.issuedHandles_events (stored : Stored) :
    issuedHandles stored.events = stored.map Prod.fst := by
  rw [issuedHandles, events, List.filterMap_map, ← List.filterMap_eq_map]
  rfl

theorem Stored.events_snoc (stored : Stored) (handle : Handle) (o : Object) :
    Stored.events (stored ++ [(handle, o)]) = stored.events ++ [.minted o handle] := by
  rw [events, List.map_append]
  rfl

theorem Stored.not_released (stored : Stored) (handle : Handle) (wasLive : Bool) :
    .released handle wasLive ∉ stored.events := by
  intro hmem
  obtain ⟨e, -, he⟩ := List.mem_map.mp hmem
  cases he

namespace Heap

/-! ## Heaps that a bridge can have -/

/-- A heap reached by making objects, giving out handles and releasing them, with its past. -/
inductive Reached : List HeapEvent → Heap → Prop
  | start (capacity : Nat) : Reached [] (withCapacity capacity)
  | create {past : List HeapEvent} {h : Heap} (hr : Reached past h) (className : ClassName)
      (contents : Contents Managed) : Reached past (h.create className contents).2
  | mint {past : List HeapEvent} {h : Heap} (hr : Reached past h) (o : Object) :
      Reached (past ++ [.minted o (h.mint o).1]) (h.mint o).2
  | release {past : List HeapEvent} {h : Heap} (hr : Reached past h) (handle : Handle) :
      Reached (past ++ [.released handle (h.release handle).1]) (h.release handle).2

variable {past : List HeapEvent} {h h' h'' : Heap} {stored more : Stored}

theorem minted_release (h : Heap) (handle : Handle) : (h.release handle).2.minted = h.minted := by
  unfold release
  split <;> rfl

/-- Making an object leaves the table alone. -/
theorem Tracks.create (ht : Tracks past h) (className : ClassName) (contents : Contents Managed) :
    Tracks past (h.create className contents).2 :=
  ⟨ht.issued, ht.next, ht.get?_iff, ht.keys_nodup, ht.minted, ht.released, ht.size⟩

theorem Reached.length_issuedHandles (hr : Reached past h) :
    (issuedHandles past).length = h.minted := by
  induction hr with
  | start capacity => rfl
  | create hr className contents ih => exact ih
  | mint hr o ih =>
    rw [length_issuedHandles_snoc, ih]
    rfl
  | release hr handle ih =>
    rw [length_issuedHandles_snoc, ih, minted_release]
    rfl

/-- As long as there are handles left the heap is in step with its past. -/
theorem Reached.tracks (hr : Reached past h) (hroom : h.minted ≤ 2 ^ 63 - 1) : Tracks past h := by
  induction hr with
  | start capacity => exact tracks_empty
  | create hr className contents ih => exact (ih hroom).create className contents
  | @mint past h hr o ih =>
    have hone : h.minted + 1 ≤ 2 ^ 63 - 1 := hroom
    refine (ih (by omega)).mint ?_ o
    rw [hr.length_issuedHandles]
    omega
  | release hr handle ih =>
    rw [minted_release] at hroom
    exact (ih hroom).release handle

/-! ## Only giving out handles -/

/-- From `h` to `h'` handles were given out for `stored`, one after the other; objects may have been
made in between. -/
inductive Mints (h : Heap) : Stored → Heap → Prop
  | refl : Mints h [] h
  | create {stored : Stored} {h' : Heap} (hm : Mints h stored h') (className : ClassName)
      (contents : Contents Managed) : Mints h stored (h'.create className contents).2
  | mint {stored : Stored} {h' : Heap} (hm : Mints h stored h') (o : Object) :
      Mints h (stored ++ [((h'.mint o).1, o)]) (h'.mint o).2

namespace Mints

theorem trans (hm : h.Mints stored h') (hm' : h'.Mints more h'') :
    h.Mints (stored ++ more) h'' := by
  induction hm' with
  | refl =>
    rw [List.append_nil]
    exact hm
  | create _ className contents ih => exact ih.create className contents
  | mint _ o ih =>
    rw [← List.append_assoc]
    exact ih.mint o

theorem minted_eq (hm : h.Mints stored h') : h'.minted = h.minted + stored.length := by
  induction hm with
  | refl => rfl
  | create _ className contents ih => exact ih
  | @mint stored h' _ o ih =>
    have hone : (h'.mint o).2.minted = h'.minted + 1 := rfl
    rw [hone, ih, List.length_append, List.length_singleton]
    omega

theorem released_eq (hm : h.Mints stored h') : h'.released = h.released := by
  induction hm with
  | refl => rfl
  | create _ className contents ih => exact ih
  | mint _ o ih => exact ih

theorem reached (hr : Reached past h) (hm : h.Mints stored h') :
    Reached (past ++ stored.events) h' := by
  induction hm with
  | refl =>
    rw [show Stored.events [] = [] from rfl, List.append_nil]
    exact hr
  | create _ className contents ih => exact ih.create className contents
  | @mint stored h' _ o ih =>
    rw [Stored.events_snoc, ← List.append_assoc]
    exact ih.mint o

/-- Every new entry is put in front of those that were there. -/
theorem entries_eq (hr : Reached past h) (hm : h.Mints stored h') (hroom : h'.minted ≤ 2 ^ 63 - 1) :
    h'.entries = stored.reverse ++ h.entries := by
  induction hm with
  | refl => rfl
  | create _ className contents ih => exact ih hroom
  | @mint stored h' hm o ih =>
    -- the handle that is given out next was never given out, so no entry is overwritten
    have hone : h'.minted + 1 ≤ 2 ^ 63 - 1 := hroom
    have hreached := hm.reached hr
    have ht := hreached.tracks (by omega)
    have hfresh : h'.get? ⟨h'.next⟩ = none := by
      refine get?_next_eq_none ht ?_
      rw [hreached.length_issuedHandles]
      omega
    rw [entries_mint_of_fresh o hfresh, ih (by omega), List.reverse_append]
    rfl

end Mints

/-- From `h`, which has the given past, to `h'` exactly `stored` was added: one entry for each, under
a handle of its own. -/
structure Adds (past : List HeapEvent) (h : Heap) (stored : Stored) (h' : Heap) : Prop where
  /-- The entries that were there are as they were. -/
  entries : h'.entries = stored.reverse ++ h.entries
  released : h'.released = h.released
  minted : h'.minted = h.minted + stored.length
  /-- No handle was given out twice. -/
  nodup : (stored.map Prod.fst).Nodup
  /-- Nor was one of them given out before. -/
  fresh : ∀ e ∈ stored, e.1 ∉ issuedHandles past
  /-- Each handle finds the very object that was stored under it. -/
  found : ∀ e ∈ stored, h'.get? e.1 = some e.2

theorem Mints.adds (hr : Reached past h) (hm : h.Mints stored h') (hroom : h'.minted ≤ 2 ^ 63 - 1) :
    Adds past h stored h' := by
  have hreached := hm.reached hr
  have ht := hreached.tracks hroom
  have hissued : issuedHandles (past ++ stored.events) = issuedHandles past ++ stored.map Prod.fst := by
    rw [← Stored.issuedHandles_events]
    exact List.filterMap_append
  have hnodup := ht.issued_nodup (by rw [hreached.length_issuedHandles]; exact hroom)
  rw [hissued, List.nodup_append] at hnodup
  obtain ⟨-, hstored, hdisjoint⟩ := hnodup
  refine ⟨hm.entries_eq hr hroom, hm.released_eq, hm.minted_eq, hstored, ?_, ?_⟩
  · intro e he hbefore
    exact hdisjoint _ hbefore _ (List.mem_map_of_mem he) rfl
  · intro e he
    rw [ht.get?_iff]
    obtain ⟨before, since, rfl⟩ := List.append_of_mem he
    refine ⟨past ++ Stored.events before, Stored.events since, ?_, fun wasLive => ?_⟩
    · rw [List.append_assoc, Stored.events, List.map_append, List.map_cons]
      rfl
    · exact Stored.not_released since _ _

/-- The live handles after something was added are those before and those that were given out. -/
theorem Adds.isSome_get?_iff (ha : Adds past h stored h') (handle : Handle) :
    (h'.get? handle).isSome ↔ (h.get? handle).isSome ∨ handle ∈ stored.map Prod.fst := by
  rw [← mem_keys_iff, ← mem_keys_iff, ha.entries, List.map_append, List.mem_append,
    List.map_reverse, List.mem_reverse]
  exact Or.comm

end Heap

end Gridcall
