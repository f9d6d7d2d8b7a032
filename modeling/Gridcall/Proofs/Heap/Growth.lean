import Gridcall.Proofs.Heap.History

/-!
# Growing heaps

* `Heap.Grows h n h'` : from `h` to `h'`, `n` handles were given out, one after the other, and every
  other handle finds what it found before (`Grows.refl`, `Grows.trans`, `grows_mint`);
* `get?_next_of_grows` : an object stays under its handle until the handles have gone round once.
-/

namespace Gridcall.Heap

/-- From `h` to `h'`, `n` handles were given out, and every other handle finds what it found. -/
structure Grows (h : Heap) (n : Nat) (h' : Heap) : Prop where
  /-- The handles were given out one after the other. -/
  next : h'.next = h.next + Int64.ofNat n
  /-- The other handles were left alone. -/
  get?_eq : ∀ handle : Handle, (∀ i < n, handle ≠ ⟨h.next + Int64.ofNat i⟩) →
    h'.get? handle = h.get? handle

variable {h h' h'' : Heap} {n m : Nat}

theorem Grows.refl (h : Heap) : h.Grows 0 h := ⟨(Int64.add_zero h.next).symm, fun _ _ => rfl⟩

theorem Grows.trans (hn : h.Grows n h') (hm : h'.Grows m h'') : h.Grows (n + m) h'' := by
  have hnext : ∀ i, h'.next + Int64.ofNat i = h.next + Int64.ofNat (n + i) := fun i => by
    rw [hn.next, Int64.ofNat_add, Int64.add_assoc]
  refine ⟨by rw [hm.next, hnext], fun handle hother => ?_⟩
  rw [hm.get?_eq handle, hn.get?_eq handle]
  · exact fun i hi => hother i (by omega)
  · intro i hi
    rw [hnext]
    exact hother (n + i) (by omega)

theorem grows_mint (h : Heap) (o : Object) : h.Grows 1 (h.mint o).2 := by
  refine ⟨rfl, fun handle hother => ?_⟩
  have hne : handle ≠ ⟨h.next⟩ := by
    have hzero := hother 0 Nat.one_pos
    rwa [show Int64.ofNat 0 = 0 from rfl, Int64.add_zero] at hzero
  rw [get?_mint, if_neg hne]

/-- An object stays under its handle until the handles have gone round once. -/
theorem get?_next_of_grows {o : Object} (hm : (h.mint o).2.Grows m h') (hroom : m + 1 ≤ 2 ^ 64) :
    h'.get? ⟨h.next⟩ = some o := by
  rw [hm.get?_eq, get?_mint, if_pos rfl]
  intro i hi heq
  have hraw : h.next + Int64.ofNat 0 = h.next + Int64.ofNat (1 + i) := by
    rw [Int64.ofNat_add, ← Int64.add_assoc]
    exact (Int64.add_zero h.next).trans (congrArg Handle.raw heq)
  have hzero := handle_ofNat_inj (by omega) (by omega)
    (congrArg Handle.mk ((Int64.add_right_inj h.next).mp hraw))
  omega

end Gridcall.Heap
