import Gridcall.Proofs.Host.Sameness

/-!
# Sameness and hashes

The same values are those that become identical when the classes that references claim are erased. What
is fed to a hash leaves these classes out as well, so the same values are found under the same hash.

* `HostValue.same_iff` : sameness is equality of what `HostValue.forgetClasses` leaves, hence an
  equivalence;
* `HostValue.digest_forgetClasses` : erasing classes does not change a digest;
* `DigestSet.contains_insert` : a set knows what was added to it;
* `HostValue.mem_newIndices_iff` : which values of a list are new to a set;
* `HostValue.tableIndices` : the same question put to a hash table, whatever the hash makes of digests
  (`tableIndices_eq`, `lawfulHashable_hashBy`);
* `HostValue.beq_consistent` : all of this together.
-/

namespace Gridcall

namespace HostValue

/-! ## Sameness by erasing classes -/

theorem forgetCells_eq (cells : List HostValue) : forgetCells cells = cells.map forgetClasses := by
  induction cells with
  | nil => rfl
  | cons v cells ih => rw [forgetCells, ih, List.map_cons]

theorem forgetClasses_array (g : HostGrid) :
    (array g).forgetClasses = array { g with cells := g.cells.map forgetClasses } := by
  obtain ⟨rows, columns, cells⟩ := g
  rw [forgetClasses, forgetGrid, forgetCells_eq]

theorem hostType_forgetClasses (v : HostValue) : v.forgetClasses.hostType = v.hostType := by
  cases v <;> rfl

/-- Only references and grids hold classes. -/
theorem forgetClasses_eq_self {v : HostValue} (hobject : v.hostType ≠ .object)
    (harray : v.hostType ≠ .array) : v.forgetClasses = v := by
  cases v with
  | object => exact absurd rfl hobject
  | array => exact absurd rfl harray
  | _ => rfl

theorem same_self_of_single {v : HostValue} (harray : v.hostType ≠ .array) : Same v v := by
  cases v with
  | array => exact absurd rfl harray
  | _ => simp [Same, same, ObjectHandle.same]

theorem same_iff_of_single {v w : HostValue} (hobject : v.hostType ≠ .object)
    (harray : v.hostType ≠ .array) : Same v w ↔ v.forgetClasses = w.forgetClasses := by
  rw [forgetClasses_eq_self hobject harray]
  constructor
  · intro h
    rcases cases_of_same h with ⟨rfl, -⟩ | ⟨a, b, rfl, -⟩ | ⟨g, g', rfl, -⟩
    · exact (forgetClasses_eq_self hobject harray).symm
    · exact absurd rfl hobject
    · exact absurd rfl harray
  · intro h
    have hkind : v.hostType = w.hostType := by rw [h, hostType_forgetClasses]
    rw [forgetClasses_eq_self (hkind ▸ hobject) (hkind ▸ harray)] at h
    subst h
    exact same_self_of_single harray

theorem forall₂_congr_left {α β : Type} {R S : α → β → Prop} {as : List α} {bs : List β}
    (h : ∀ a ∈ as, ∀ b, R a b ↔ S a b) : List.Forall₂ R as bs ↔ List.Forall₂ S as bs := by
  constructor
  · intro hR
    exact ((List.forall₂_and_left as bs).mpr ⟨h, hR⟩).imp fun a b hab => (hab.1 b).mp hab.2
  · intro hS
    exact ((List.forall₂_and_left as bs).mpr ⟨h, hS⟩).imp fun a b hab => (hab.1 b).mpr hab.2

theorem map_eq_map_iff_forall₂ {α β γ : Type} {f : α → γ} {g : β → γ} {as : List α} {bs : List β} :
    as.map f = bs.map g ↔ List.Forall₂ (fun a b => f a = g b) as bs := by
  rw [← List.forall₂_eq_eq_eq, List.forall₂_map_left_iff, List.forall₂_map_right_iff]

/-- Values are the same if they are identical but for the classes that references claim. -/
theorem same_iff {v w : HostValue} : Same v w ↔ v.forgetClasses = w.forgetClasses := by
  induction hsize : sizeOf v using Nat.strongRecOn generalizing v w with
  | ind size ih =>
    cases v with
    | object a =>
      cases w with
      | object b => simp [Same, same, ObjectHandle.same, forgetClasses]
      | _ => exact ⟨(fun h => by cases h), (fun h => by cases h)⟩
    | array g =>
      cases w with
      | array g' =>
        have hcells : List.Forall₂ Same g.cells g'.cells ↔
            g.cells.map forgetClasses = g'.cells.map forgetClasses := by
          rw [map_eq_map_iff_forall₂]
          refine forall₂_congr_left fun cell hcell cell' => ?_
          have hlt := sizeOf_lt_of_mem_cells hcell
          exact ih _ (by omega) rfl
        rw [same_array_iff, forgetClasses_array, forgetClasses_array, array.injEq, Grid.mk.injEq,
          ← hcells]
        constructor
        · intro h
          exact ⟨h.rows, h.columns, h.cells⟩
        · rintro ⟨hrows, hcolumns, h⟩
          exact ⟨hrows, hcolumns, h⟩
      | _ => exact ⟨(fun h => by cases h), (fun h => by cases h)⟩
    | _ => exact same_iff_of_single (by rintro ⟨⟩) (by rintro ⟨⟩)

theorem beq_iff {v w : HostValue} : (v == w) = true ↔ v.forgetClasses = w.forgetClasses := same_iff

/-- Sameness is an equivalence, since equality is one. -/
theorem equivalence_beq : Equivalence fun v w : HostValue => (v == w) = true where
  refl _ := beq_iff.mpr rfl
  symm h := beq_iff.mpr (beq_iff.mp h).symm
  trans h h' := beq_iff.mpr ((beq_iff.mp h).trans (beq_iff.mp h'))

instance : EquivBEq HostValue where
  rfl := equivalence_beq.refl _
  symm := equivalence_beq.symm
  trans := equivalence_beq.trans

/-- Numbers are the same if their bits are, so the two zeros are not, and a NaN is the same as itself. -/
theorem number_beq_iff {x y : Double} : (number x == number y) = true ↔ x.toBits = y.toBits := by
  have hsame : (number x == number y) = (x == y) := rfl
  rw [hsame, beq_iff_eq]
  constructor
  · exact congrArg _
  · intro h
    rw [← Binary.ofBits_toBits x, h, Binary.ofBits_toBits]

/-! ## Digests -/

theorem digestCells_eq (cells : List HostValue) : digestCells cells = cells.flatMap digest := by
  induction cells with
  | nil => rfl
  | cons v cells ih => rw [digestCells, ih, List.flatMap_cons]

/-- A digest leaves claimed classes out. -/
theorem digest_forgetClasses (v : HostValue) : v.forgetClasses.digest = v.digest := by
  induction hsize : sizeOf v using Nat.strongRecOn generalizing v with
  | ind size ih =>
    cases v with
    | array g =>
      have hcells : (g.cells.map forgetClasses).flatMap digest = g.cells.flatMap digest := by
        rw [List.flatMap_map]
        refine List.flatMap_congr fun cell hcell => ?_
        have hlt := sizeOf_lt_of_mem_cells hcell
        exact ih _ (by omega) cell rfl
      rw [forgetClasses_array, digest, digest]
      obtain ⟨rows, columns, cells⟩ := g
      rw [digestGrid, digestGrid, digestCells_eq, digestCells_eq, List.length_map, hcells]
    | _ => rfl

theorem digest_eq_of_beq {v w : HostValue} (h : (v == w) = true) : v.digest = w.digest := by
  rw [← digest_forgetClasses v, beq_iff.mp h, digest_forgetClasses]

end HostValue

/-! ## Sets -/

theorem DigestSet.contains_congr (s : DigestSet) {v w : HostValue} (h : (v == w) = true) :
    s.contains v = s.contains w := by
  have hmember : ∀ m : HostValue, m.same v = m.same w := fun m => BEq.congr_right h
  rw [contains, contains, HostValue.digest_eq_of_beq h]
  simp only [hmember]

/-- What was added to a set is in it, and so is what was in it before; nothing else is. -/
theorem DigestSet.contains_insert (s : DigestSet) (v w : HostValue) :
    (s.insert v).2.contains w = (s.contains w || v == w) := by
  unfold insert
  split
  · next hv =>
    cases h : v == w with
    | false => rw [Bool.or_false]
    | true => rw [Bool.or_true, ← s.contains_congr h, hv]
  · have hmember : (⟨(v.digest, v) :: s.members⟩ : DigestSet).contains w =
        ((v.digest == w.digest && v == w) || s.contains w) := rfl
    rw [hmember, Bool.or_comm]
    cases h : v == w with
    | false => rw [Bool.and_false]
    | true => rw [HostValue.digest_eq_of_beq h, beq_self_eq_true, Bool.and_true]

theorem DigestSet.insert_fst (s : DigestSet) (v : HostValue) : (s.insert v).1 = !s.contains v := by
  unfold insert
  split <;> simp [*]

namespace HostValue

theorem newIndices_cons (start : Nat) (s : DigestSet) (v : HostValue) (vs : List HostValue) :
    newIndices start s (v :: vs) =
      (if s.contains v then [] else [start]) ++ newIndices (start + 1) (s.insert v).2 vs := by
  have hstep : newIndices start s (v :: vs) =
      if (s.insert v).1 then start :: newIndices (start + 1) (s.insert v).2 vs
      else newIndices (start + 1) (s.insert v).2 vs := rfl
  rw [hstep, s.insert_fst v]
  cases s.contains v <;> rfl

/-- A value of a list is new if it was not in the set before and is the same as no earlier value. -/
theorem mem_newIndices_iff {start i : Nat} {s : DigestSet} {vs : List HostValue} :
    i ∈ newIndices start s vs ↔ ∃ k v, i = start + k ∧ vs[k]? = some v ∧ s.contains v = false ∧
      ∀ j < k, ∀ w, vs[j]? = some w → (w == v) = false := by
  induction vs generalizing start s with
  | nil => simp [newIndices]
  | cons v vs ih =>
    rw [newIndices_cons, List.mem_append, ih]
    constructor
    · rintro (h | ⟨k, u, rfl, hu, hnew, hearlier⟩)
      · obtain ⟨hv, rfl⟩ : s.contains v = false ∧ i = start := by
          cases hv : s.contains v <;> simp_all
        exact ⟨0, v, rfl, rfl, hv, fun j hj => absurd hj (Nat.not_lt_zero j)⟩
      · rw [DigestSet.contains_insert, Bool.or_eq_false_iff] at hnew
        refine ⟨k + 1, u, by omega, hu, hnew.1, fun j hj w hw => ?_⟩
        cases j with
        | zero =>
          obtain rfl := Option.some.inj hw
          exact hnew.2
        | succ j => exact hearlier j (by omega) w hw
    · rintro ⟨k, u, rfl, hu, hnew, hearlier⟩
      cases k with
      | zero =>
        obtain rfl := Option.some.inj hu
        exact .inl (by simp [hnew])
      | succ k =>
        refine .inr ⟨k, u, by omega, hu, ?_, fun j hj w hw => hearlier (j + 1) (by omega) w hw⟩
        rw [DigestSet.contains_insert, hnew, hearlier 0 (by omega) v rfl, Bool.or_false]

theorem pairwise_newIndices (start : Nat) (s : DigestSet) (vs : List HostValue) :
    (newIndices start s vs).Pairwise (· < ·) := by
  induction vs generalizing start s with
  | nil => exact .nil
  | cons v vs ih =>
    rw [newIndices_cons, List.pairwise_append]
    refine ⟨by split <;> simp, ih _ _, fun i hi j hj => ?_⟩
    obtain ⟨k, -, rfl, -⟩ := mem_newIndices_iff.mp hj
    have hi : i = start := by
      cases hv : s.contains v <;> simp_all
    omega

/-! ## Hash tables -/

/-- The indices, counted from `start`, of the values that are new to a hash table when all are added in
order. -/
def tableIndices [Hashable HostValue] (start : Nat) (table : Std.HashSet HostValue) :
    List HostValue → List Nat
  | [] => []
  | v :: vs =>
    let (known, table) := table.containsThenInsert v
    let rest := tableIndices (start + 1) table vs
    if known then rest else start :: rest

@[reducible] def hashBy (mix : List DigestToken → UInt64) : Hashable HostValue := ⟨fun v => mix v.digest⟩

theorem lawfulHashable_hashBy (mix : List DigestToken → UInt64) :
    @LawfulHashable HostValue _ (hashBy mix) :=
  @LawfulHashable.mk _ _ (hashBy mix) fun _ _ h => congrArg mix (digest_eq_of_beq h)

/-- A hash table answers like the set of digests, if the same values have the same hash. -/
theorem tableIndices_eq [Hashable HostValue] [LawfulHashable HostValue] {table : Std.HashSet HostValue}
    {s : DigestSet} (h : ∀ v, table.contains v = s.contains v) (start : Nat) (vs : List HostValue) :
    tableIndices start table vs = newIndices start s vs := by
  induction vs generalizing start table s with
  | nil => rfl
  | cons v vs ih =>
    have hinsert : ∀ w, (table.insert v).contains w = (s.insert v).2.contains w := fun w => by
      rw [Std.HashSet.contains_insert, DigestSet.contains_insert, h, Bool.or_comm]
    have hstep : tableIndices start table (v :: vs) =
        if (table.containsThenInsert v).1 then tableIndices (start + 1) (table.containsThenInsert v).2 vs
        else start :: tableIndices (start + 1) (table.containsThenInsert v).2 vs := rfl
    rw [hstep, Std.HashSet.containsThenInsert_fst, Std.HashSet.containsThenInsert_snd, h, ih hinsert,
      newIndices_cons]
    cases s.contains v <;> rfl

/-! ## Equality and hashing together -/

/-- **Equality and hashing of host values are consistent.** Values are the same exactly if they are
identical but for the classes that references claim, at any depth; numbers are compared by their bits. So
sameness is an equivalence, the same values feed the same tokens to a hash, and of values that are added
in order to a set those are new that are the same as no earlier one: to the set of digests and to a hash
table, whatever its hash makes of the tokens. -/
theorem beq_consistent :
    (∀ v w : HostValue, (v == w) = true ↔ v.forgetClasses = w.forgetClasses) ∧
    (∀ x y : Double, (number x == number y) = true ↔ x.toBits = y.toBits) ∧
    Equivalence (fun v w : HostValue => (v == w) = true) ∧
    (∀ v w : HostValue, (v == w) = true → v.digest = w.digest) ∧
    ∀ vs : List HostValue, (firstIndices vs).Pairwise (· < ·) ∧
      (∀ i, i ∈ firstIndices vs ↔
        ∃ v, vs[i]? = some v ∧ ∀ j < i, ∀ w, vs[j]? = some w → (w == v) = false) ∧
      ∀ mix : List DigestToken → UInt64, @tableIndices (hashBy mix) 0 ∅ vs = firstIndices vs := by
  refine ⟨fun _ _ => beq_iff, fun _ _ => number_beq_iff, equivalence_beq,
    fun _ _ => digest_eq_of_beq, fun vs => ⟨pairwise_newIndices 0 .empty vs, fun i => ?_, fun mix => ?_⟩⟩
  · rw [firstIndices, mem_newIndices_iff]
    constructor
    · rintro ⟨k, v, rfl, hv, -, hearlier⟩
      rw [Nat.zero_add]
      exact ⟨v, hv, hearlier⟩
    · rintro ⟨v, hv, hearlier⟩
      exact ⟨i, v, (Nat.zero_add i).symm, hv, rfl, hearlier⟩
  · let := hashBy mix
    have := lawfulHashable_hashBy mix
    exact tableIndices_eq (fun v => by rw [Std.HashSet.contains_empty]; rfl) 0 vs

/-- One object under two classes, next to a NaN, is one value; the two zeros are two. -/
theorem beq_consistent_claims :
    let v : HostValue := .array ⟨1, 2, [.object ⟨"Person", ⟨1⟩⟩, .number .nan]⟩
    let w : HostValue := .array ⟨1, 2, [.object ⟨"Order", ⟨1⟩⟩, .number .nan]⟩
    let zero : HostValue := .number (.zero false)
    let negativeZero : HostValue := .number (.zero true)
    (v == w) = true ∧ v.digest = w.digest ∧ ¬ (zero == negativeZero) = true ∧
      firstIndices [v, zero, w, negativeZero] = [0, 1, 3] ∧ 2 ∉ firstIndices [v, zero, w, negativeZero] := by
  intro v w zero negativeZero
  obtain ⟨hbeq, hnumber, -, hdigest, hnew⟩ := beq_consistent
  have hsame : (v == w) = true := (hbeq v w).mpr rfl
  refine ⟨hsame, hdigest v w hsame, ?_, by decide +kernel, fun h => ?_⟩
  · rw [hnumber]
    decide
  · obtain ⟨u, hu, hearlier⟩ := ((hnew [v, zero, w, negativeZero]).2.1 2).mp h
    obtain rfl := Option.some.inj hu
    have hother := hearlier 0 (by decide) v rfl
    rw [hsame] at hother
    cases hother

end HostValue

end Gridcall
