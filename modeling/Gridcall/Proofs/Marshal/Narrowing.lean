import Gridcall.Marshal.Narrow
import Gridcall.Proofs.Number.Exact

/-!
# Narrowing

What the numbers that come from the host become.

* `runtimeType?_of_narrow`, `runtimeType?_of_readNumber` : a number that is narrowed or read is of the
  type that was asked for;
* `IntegerKind.Fits` : an integer between the bounds of a type and of at most 53 bits;
* `narrow_ofInt`, `narrow_convert` : such an integer, and a single precision number, come back from
  the way through a double.
-/

namespace Gridcall

/-! ## Types -/

namespace IntegerKind

theorem ofManagedType?_eq_some_iff {type : ManagedType} {k : IntegerKind} :
    ofManagedType? type = some k ↔ type = k.managedType := by
  cases type <;> cases k <;> simp [ofManagedType?, managedType]

theorem contains_iff {k : IntegerKind} {i : Int} :
    k.contains i = true ↔ k.least ≤ i ∧ i ≤ k.greatest := by
  simp [contains]

theorem runtimeType?_wrap (k : IntegerKind) (i : Int) :
    (k.wrap i).runtimeType? = some k.managedType := by
  cases k <;> rfl

end IntegerKind

theorem runtimeType?_of_narrowInteger {k : IntegerKind} {i : Int} {m : Managed}
    (h : narrowInteger k i = .ok m) : m.runtimeType? = some k.managedType := by
  unfold narrowInteger at h
  split at h
  · rw [← Except.ok.inj h]
    exact k.runtimeType?_wrap i
  · cases h

theorem runtimeType?_of_narrowDouble {k : IntegerKind} {x : Double} {m : Managed}
    (h : narrowDouble k x = .ok m) : m.runtimeType? = some k.managedType := by
  unfold narrowDouble at h
  split at h
  · cases h
  · next i _ =>
    split at h
    · rw [← Except.ok.inj h]
      exact k.runtimeType?_wrap i
    · split at h
      · rw [← Except.ok.inj h]
        exact k.runtimeType?_wrap k.greatest
      · cases h

theorem runtimeType?_of_narrow {target : ManagedType} {x : Double} {m : Managed}
    (h : narrow target x = .ok m) : m.runtimeType? = some target := by
  unfold narrow at h
  split at h
  · rw [← Except.ok.inj h]
    rfl
  · rw [← Except.ok.inj h]
    rfl
  · next hk =>
    rw [IntegerKind.ofManagedType?_eq_some_iff.mp hk]
    exact runtimeType?_of_narrowDouble h
  · cases h

theorem runtimeType?_of_readNumber {target : ManagedType} {text : String} {m : Managed}
    (h : readNumber target text = .ok m) : m.runtimeType? = some target := by
  unfold readNumber at h
  dsimp only at h
  split at h
  · next hk _ =>
    rw [IntegerKind.ofManagedType?_eq_some_iff.mp hk]
    exact runtimeType?_of_narrowInteger h
  · split at h
    · exact runtimeType?_of_narrow h
    · cases h

/-! ## Numbers that are kept -/

/-- An integer between the bounds of a type that a double holds exactly. -/
structure IntegerKind.Fits (k : IntegerKind) (i : Int) : Prop where
  contains : k.contains i = true
  natAbs_le : i.natAbs ≤ 2 ^ 53

theorem narrow_ofInt {k : IntegerKind} {i : Int} (h : k.Fits i) :
    narrow k.managedType (.ofInt i) = .ok (k.wrap i) := by
  have hdouble : narrowDouble k (.ofInt i) = .ok (k.wrap i) := by
    rw [narrowDouble, Binary.truncate?_ofInt h.natAbs_le]
    simp only [h.contains, if_true]
  cases k <;> exact hdouble

/-- A single precision number comes back from the way through a double. -/
theorem narrow_convert {x : Single} (hx : x.isNaN = false) : narrow .float x.convert = .ok (.float x) := by
  have hback : ((x.convert : Double).convert : Single) = x :=
    Binary.convert_convert FloatFormat.single_widens_double hx
  rw [narrow, hback]

/-- What is not a number stays so. -/
theorem narrow_convert_of_isNaN {x : Single} (hx : x.isNaN) :
    narrow .float x.convert = .ok (.float .nan) := by
  rw [Binary.convert_nan hx, narrow, Binary.convert_nan Binary.isNaN_nan]

namespace IntegerKind

/-- A double holds all integers of the smaller types exactly. -/
theorem fits_of_bounds {k : IntegerKind} (hk : -2 ^ 53 ≤ k.least ∧ k.greatest ≤ 2 ^ 53) {i : Int}
    (hlow : k.least ≤ i) (hhigh : i < k.greatest + 1) : k.Fits i := by
  obtain ⟨hleast, hgreatest⟩ := hk
  exact ⟨contains_iff.mpr ⟨hlow, Int.le_of_lt_add_one hhigh⟩, by omega⟩

theorem fits_byte (v : Int8) : byte.Fits v.toInt :=
  fits_of_bounds (by decide) v.le_toInt v.toInt_lt

theorem fits_short (v : Int16) : short.Fits v.toInt :=
  fits_of_bounds (by decide) v.le_toInt v.toInt_lt

theorem fits_int (v : Int32) : int.Fits v.toInt :=
  fits_of_bounds (by decide) v.le_toInt v.toInt_lt

theorem fits_long {v : Int64} (hv : v.toInt.natAbs ≤ 2 ^ 53) : long.Fits v.toInt :=
  ⟨contains_iff.mpr ⟨v.le_toInt, Int.le_of_lt_add_one v.toInt_lt⟩, hv⟩

end IntegerKind

end Gridcall
