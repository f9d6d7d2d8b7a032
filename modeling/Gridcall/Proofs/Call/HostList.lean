import Gridcall.Call.Run
import Gridcall.Proofs.Call.Registration

/-!
# The host's list of exports

The registered numbers are compared with those that the host was given, as two sets: what is missing and
what is unexpected is listed in ascending order, and the order and the repetitions of the host's list do
not matter.

* `Ascending` : rows of numbers that ascend strictly. They are determined by what is in them
  (`Ascending.eq_of_mem_iff`);
* `ascending_sortedIds`, `mem_sortedIds` : sorting and dropping repetitions leaves such a row of the same
  numbers;
* `binSearchContains_iff` : a number is found in it by halving exactly if it is there;
* `Lacking` : what one row has and another one lacks, listed;
* `Bridge.b.Compares registered` : what a bridge answers to any list of the host's;
* `compares_run` : it does so after any requests to register.
-/

namespace Gridcall

variable {a b c id : ExportId} {ids given others left left' : List ExportId}

/-! ## Ascending rows -/

/-- The numbers ascend strictly, so none stands there twice. -/
def Ascending (ids : List ExportId) : Prop := ids.Pairwise fun a b => a.raw < b.raw

namespace ExportId

theorem raw_inj (h : a.raw = b.raw) : a = b := by
  cases a
  cases b
  exact congrArg mk h

theorem lt_iff : a.lt b = true ↔ a.raw < b.raw := decide_eq_true_iff

theorem le_iff : a.le b = true ↔ a.raw ≤ b.raw := decide_eq_true_iff

end ExportId

/-- Ascending rows of the same numbers are one row. -/
theorem Ascending.eq_of_mem_iff (h : Ascending left) (h' : Ascending left')
    (hmem : ∀ id, id ∈ left ↔ id ∈ left') : left = left' := by
  have hirrefl : Std.Irrefl fun a b : ExportId => a.raw < b.raw := ⟨fun a => UInt32.lt_irrefl a.raw⟩
  have hantisymm : Std.Antisymm fun a b : ExportId => a.raw < b.raw :=
    ⟨fun _ _ hab hba => absurd hba (UInt32.lt_asymm hab)⟩
  exact List.Pairwise.eq_of_mem_iff h h' hmem

/-! ## Sorting -/

/-- Dropping repetitions, with the numbers that are kept so far in reverse: as long as what is left is
sorted and does not go below them, they ascend, and no number is lost. -/
theorem ascending_loop (kept rest : List ExportId) (a : ExportId)
    (hkept : Ascending (kept.reverse ++ [a])) (hrest : (a :: rest).Pairwise fun a b => a.raw ≤ b.raw) :
    Ascending (List.eraseRepsBy.loop (· == ·) a rest kept) ∧
      ∀ id, id ∈ List.eraseRepsBy.loop (· == ·) a rest kept ↔ id ∈ kept ∨ id ∈ a :: rest := by
  induction rest generalizing a kept with
  | nil => exact ⟨by simpa [List.eraseRepsBy.loop] using hkept, by simp [List.eraseRepsBy.loop, or_comm]⟩
  | cons b rest ih =>
    obtain ⟨hfirst, hrest'⟩ := List.pairwise_cons.mp hrest
    by_cases hab : a = b
    · subst hab
      obtain ⟨hloop, hmem⟩ := ih kept a hkept hrest'
      simp only [List.eraseRepsBy.loop, beq_self_eq_true]
      exact ⟨hloop, fun id => by rw [hmem id]; simp⟩
    · have hlt : a.raw < b.raw :=
        UInt32.lt_of_le_of_ne (hfirst b List.mem_cons_self) fun h => hab (ExportId.raw_inj h)
      have hkept' : Ascending ((a :: kept).reverse ++ [b]) := by
        rw [List.reverse_cons]
        refine List.pairwise_append.mpr ⟨hkept, List.pairwise_singleton _ _, fun c hc d hd => ?_⟩
        rw [List.mem_singleton.mp hd]
        rcases List.mem_append.mp hc with hc | hc
        · exact UInt32.lt_trans ((List.pairwise_append.mp hkept).2.2 c hc a List.mem_cons_self) hlt
        · rwa [List.mem_singleton.mp hc]
      obtain ⟨hloop, hmem⟩ := ih (a :: kept) b hkept' hrest'
      simp only [List.eraseRepsBy.loop, beq_eq_false_iff_ne.mpr hab]
      exact ⟨hloop, fun id => by rw [hmem id]; simp [or_assoc, or_left_comm]⟩

theorem pairwise_mergeSort_le (ids : List ExportId) :
    (ids.mergeSort ExportId.le).Pairwise fun a b => a.raw ≤ b.raw := by
  refine (List.pairwise_mergeSort (fun a b c hab hbc => ?_) (fun a b => ?_) ids).imp ExportId.le_iff.mp
  · exact ExportId.le_iff.mpr (UInt32.le_trans (ExportId.le_iff.mp hab) (ExportId.le_iff.mp hbc))
  · rw [Bool.or_eq_true, ExportId.le_iff, ExportId.le_iff]
    exact UInt32.le_total a.raw b.raw

theorem ascending_sortedIds_and_mem (ids : List ExportId) :
    Ascending (Exports.sortedIds ids) ∧ ∀ id, id ∈ Exports.sortedIds ids ↔ id ∈ ids := by
  have hsorted := pairwise_mergeSort_le ids
  have hmem : ∀ id, id ∈ ids.mergeSort ExportId.le ↔ id ∈ ids := fun id => List.mem_mergeSort
  unfold Exports.sortedIds List.eraseReps
  generalize ids.mergeSort ExportId.le = sorted at hsorted hmem
  cases sorted with
  | nil => exact ⟨List.Pairwise.nil, hmem⟩
  | cons a rest =>
    obtain ⟨hloop, hloop'⟩ := ascending_loop [] rest a (List.pairwise_singleton _ _) hsorted
    exact ⟨hloop, fun id => by rw [← hmem id]; exact (hloop' id).trans (by simp)⟩

theorem ascending_sortedIds (ids : List ExportId) : Ascending (Exports.sortedIds ids) :=
  (ascending_sortedIds_and_mem ids).1

theorem mem_sortedIds : id ∈ Exports.sortedIds ids ↔ id ∈ ids := (ascending_sortedIds_and_mem ids).2 id

/-! ## Halving -/

section Halving

variable {row : Array ExportId} {i j : Nat}

/-- In an ascending row the lesser number comes first. -/
theorem Ascending.lt_of_raw_lt (h : Ascending row.toList) (hi : row[i]? = some a) (hj : row[j]? = some b)
    (hlt : a.raw < b.raw) : i < j := by
  rw [← Array.getElem?_toList] at hi hj
  obtain ⟨hi', rfl⟩ := List.getElem?_eq_some_iff.mp hi
  obtain ⟨hj', rfl⟩ := List.getElem?_eq_some_iff.mp hj
  by_contra hle
  rcases Nat.lt_or_eq_of_le (Nat.le_of_not_lt hle) with hji | rfl
  · exact UInt32.lt_asymm hlt (List.pairwise_iff_getElem.mp h j i hj' hi' hji)
  · exact UInt32.lt_irrefl _ hlt

/-- Halving finds a number between two places, these included, exactly if it stands there. -/
theorem binSearchAux_iff (h : Ascending row.toList) (low : Fin (row.size + 1)) (high : Fin row.size)
    (hle : low.val ≤ high.val) :
    Array.binSearchAux ExportId.lt Option.isSome row id low high hle = true ↔
      ∃ i, low.val ≤ i ∧ i ≤ high.val ∧ row[i]? = some id := by
  fun_induction Array.binSearchAux ExportId.lt Option.isSome row id low high hle with
  | case1 low high hle middle found hless hnext _ ih =>
    rw [ih]
    refine exists_congr fun i => ⟨fun ⟨hlow, hrest⟩ => ⟨by dsimp only at hlow; omega, hrest⟩, ?_⟩
    rintro ⟨-, hhigh, hid⟩
    exact ⟨h.lt_of_raw_lt (Array.getElem?_eq_getElem _) hid (ExportId.lt_iff.mp hless), hhigh, hid⟩
  | case2 low high hle middle found hless hlast _ =>
    refine iff_of_false (by simp) ?_
    rintro ⟨i, -, hhigh, hid⟩
    have hlt := h.lt_of_raw_lt (Array.getElem?_eq_getElem _) hid (ExportId.lt_iff.mp hless)
    omega
  | case3 low high hle middle found hless hgreater hfirst _ =>
    refine iff_of_false (by simp) ?_
    rintro ⟨i, hlow, -, hid⟩
    have hlt := h.lt_of_raw_lt hid (Array.getElem?_eq_getElem _) (ExportId.lt_iff.mp hgreater)
    omega
  | case4 low high hle middle found hless hgreater hprevious _ ih =>
    rw [ih]
    refine exists_congr fun i => and_congr_right fun _ => ⟨fun ⟨hhigh, hid⟩ => ⟨?_, hid⟩, ?_⟩
    · dsimp only at hhigh
      omega
    · rintro ⟨-, hid⟩
      have hlt := h.lt_of_raw_lt hid (Array.getElem?_eq_getElem _) (ExportId.lt_iff.mp hgreater)
      exact ⟨Nat.le_pred_of_lt hlt, hid⟩
  | case5 low high hle middle found hless hgreater _ =>
    have heq : found = id := by
      rw [ExportId.lt_iff, UInt32.not_lt] at hless hgreater
      exact ExportId.raw_inj (UInt32.le_antisymm hgreater hless)
    exact iff_of_true rfl ⟨middle, by omega, by omega, heq ▸ Array.getElem?_eq_getElem _⟩

/-- A number is found in an ascending row by halving exactly if it is there. -/
theorem binSearchContains_iff (h : Ascending ids) :
    ids.toArray.binSearchContains id ExportId.lt = true ↔ id ∈ ids := by
  unfold Array.binSearchContains
  cases ids with
  | nil => simp
  | cons first rest =>
    simp only [List.size_toArray, List.length_cons, Nat.zero_lt_succ, dite_true, Nat.zero_le]
    rw [binSearchAux_iff h, List.mem_iff_getElem?]
    refine exists_congr fun i => ?_
    rw [List.getElem?_toArray]
    refine ⟨fun ⟨_, _, hid⟩ => hid, fun hid => ⟨Nat.zero_le i, ?_, hid⟩⟩
    obtain ⟨hi, -⟩ := List.getElem?_eq_some_iff.mp hid
    rw [List.length_cons] at hi
    split <;> exact Nat.le_of_lt_succ hi

end Halving

/-! ## Comparing -/

/-- What one row has and another one lacks, in ascending order. -/
structure Lacking (left given others : List ExportId) : Prop where
  mem_iff : ∀ id, id ∈ left ↔ id ∈ given ∧ id ∉ others
  ascending : Ascending left

theorem Lacking.eq_nil_iff (h : Lacking left given others) : left = [] ↔ ∀ id ∈ given, id ∈ others := by
  rw [List.eq_nil_iff_forall_not_mem]
  exact forall_congr' fun id => by rw [h.mem_iff]; tauto

/-- The two lists that a comparison leaves when `done` was registered. -/
theorem Exports.Tabulates.exists_verify {done : List Export} {x : Exports} (h : x.Tabulates done)
    (expected : List ExportId) : ∃ missing unexpected,
      Lacking missing expected (done.map Export.id) ∧ Lacking unexpected (done.map Export.id) expected ∧
        x.verify expected =
          if missing.isEmpty && unexpected.isEmpty then .ok ()
          else .error (.mismatch missing unexpected) := by
  have hascending := ascending_sortedIds expected
  refine ⟨_, _, ⟨fun id => ?_, hascending.filter _⟩, ⟨fun id => ?_, ?_⟩, rfl⟩
  · rw [List.mem_filter, mem_sortedIds, Option.isNone_iff_eq_none, h.find?_eq_none_iff, List.mem_map]
    push Not
    exact Iff.rfl
  · rw [List.mem_filter, (x.sorted_perm_table.map Export.id).mem_iff, h.table, Bool.not_eq_true',
      ← Bool.not_eq_true, binSearchContains_iff hascending, mem_sortedIds]
  · exact List.Pairwise.filter _ (List.pairwise_map.mpr (List.pairwise_map.mp h.sorted_ascending))

/-- What a bridge answers when the host's list is compared with the numbers that are registered. -/
structure Bridge.Compares (b : Bridge) (registered : List ExportId) : Prop where
  /-- A list of the same numbers is accepted. -/
  accepts : ∀ expected s, (∀ id, id ∈ expected ↔ id ∈ registered) → b.verify expected s = (.ok (), s)
  /-- Any other list is refused, with the numbers in which it differs, and the journal notes them. -/
  refuses : ∀ expected s, (¬ ∀ id, id ∈ expected ↔ id ∈ registered) → ∃ missing unexpected,
    Lacking missing expected registered ∧ Lacking unexpected registered expected ∧
      b.verify expected s =
        (.error (.mismatch missing unexpected), s.note (.exportMismatch missing unexpected))
  /-- The order of a list and its repetitions do not matter. -/
  regardless : ∀ expected expected' s, (∀ id, id ∈ expected ↔ id ∈ expected') →
    b.verify expected s = b.verify expected' s

theorem Bridge.verify_of_ok {b : Bridge} {expected : List ExportId}
    (h : b.exports.verify expected = .ok ()) (s : MarshalState) : b.verify expected s = (.ok (), s) := by
  unfold Bridge.verify
  rw [h]
  rfl

theorem Bridge.verify_of_mismatch {b : Bridge} {expected missing unexpected : List ExportId}
    (h : b.exports.verify expected = .error (.mismatch missing unexpected)) (s : MarshalState) :
    b.verify expected s =
      (.error (.mismatch missing unexpected), s.note (.exportMismatch missing unexpected)) := by
  unfold Bridge.verify
  rw [h]
  rfl

theorem Exports.Tabulates.compares {done : List Export} {b : Bridge} (h : b.exports.Tabulates done) :
    b.Compares (done.map Export.id) where
  accepts expected s hsame := by
    obtain ⟨missing, unexpected, hmissing, hunexpected, hverify⟩ := h.exists_verify expected
    obtain rfl := hmissing.eq_nil_iff.mpr fun id => (hsame id).mp
    obtain rfl := hunexpected.eq_nil_iff.mpr fun id => (hsame id).mpr
    exact Bridge.verify_of_ok hverify s
  refuses expected s hdiffer := by
    obtain ⟨missing, unexpected, hmissing, hunexpected, hverify⟩ := h.exists_verify expected
    refine ⟨missing, unexpected, hmissing, hunexpected, Bridge.verify_of_mismatch ?_ s⟩
    rw [hverify, if_neg]
    rw [Bool.and_eq_true, List.isEmpty_iff, List.isEmpty_iff, hmissing.eq_nil_iff, hunexpected.eq_nil_iff]
    exact fun hsame => hdiffer fun id => ⟨hsame.1 id, hsame.2 id⟩
  regardless expected expected' s hsame := by
    obtain ⟨missing, unexpected, hmissing, hunexpected, hverify⟩ := h.exists_verify expected
    obtain ⟨missing', unexpected', hmissing', hunexpected', hverify'⟩ := h.exists_verify expected'
    obtain rfl := hmissing.ascending.eq_of_mem_iff hmissing'.ascending fun id => by
      rw [hmissing.mem_iff, hmissing'.mem_iff, hsame]
    obtain rfl := hunexpected.ascending.eq_of_mem_iff hunexpected'.ascending fun id => by
      rw [hunexpected.mem_iff, hunexpected'.mem_iff, hsame]
    unfold Bridge.verify
    rw [hverify, hverify']

/-- **The host's list is compared as a set.** After any requests to register, some of which may fail,
a list is accepted exactly if its numbers are those of the registrations that succeeded. -/
theorem compares_run (requests : List RegistrationRequest) (settings : Settings) (r : Registry) :
    (Bridge.mk settings r (Exports.run requests).2).Compares ((Exports.run requests).1.map Export.id) :=
  Exports.Tabulates.compares (Exports.tabulates_run requests)

end Gridcall
