import Gridcall.Proofs.Marshal.IntegerText

/-!
# Integers from doubles

A double that is decoded as an integer loses its fraction and is refused if nothing in the range is left.
Only the widest type takes a number beyond its range: two to the 63, the double nearest to its greatest
value.

* `IntegerKind.Takes` : the integer that a type takes a double for;
* `narrowDouble_eq` : narrowing, read off the exact value;
* `decode_integer_of_double` : what becomes of any double.
-/

namespace Gridcall

/-- A type takes a double for an integer: its integer part, if that lies between the bounds, and the
greatest long for two to the 63. -/
def IntegerKind.Takes (k : IntegerKind) (x : Double) (i : Int) : Prop :=
  x.isFinite ∧
    (i = towardZero x.value ∧ k.least ≤ i ∧ i ≤ k.greatest ∨
      k = .long ∧ x.value = 2 ^ 63 ∧ i = k.greatest)

/-- A double whose integer part is two to the 63 has no fraction. -/
theorem towardZero_value_eq_iff {x : Double} : towardZero x.value = 2 ^ 63 ↔ x.value = 2 ^ 63 := by
  have hcast : (((2 : Int) ^ 63 : Int) : ℚ) = 2 ^ 63 := by norm_num
  constructor
  · intro h
    have hle : (2 : ℚ) ^ 63 ≤ x.value := by
      have hpart := towardZero_le_of_pos (q := x.value) (by rw [h]; norm_num)
      rwa [h, hcast] at hpart
    have hwide : 2 ^ FloatFormat.double.fractionBits ≤ FloatFormat.double.magnitude x.word := by
      rw [← Binary.abs_value]
      refine le_trans ?_ (hle.trans (le_abs_self _))
      norm_num [FloatFormat.double]
    obtain ⟨n, hn⟩ := FloatFormat.exists_natCast_magnitude hwide
    rw [Binary.value_eq_towardZero hn, h, hcast]
  · intro h
    rw [h, ← hcast, towardZero_intCast]

/-- Narrowing, read off the exact value. -/
theorem narrowDouble_eq (k : IntegerKind) (x : Double) : narrowDouble k x =
    if x.isFinite ∧ k.contains (towardZero x.value) then .ok (k.wrap (towardZero x.value))
    else if x.isFinite ∧ k = .long ∧ x.value = 2 ^ 63 then .ok (k.wrap k.greatest)
    else .error (outOfRange k.managedType (toString x)) := by
  cases hx : x.isFinite with
  | false =>
    have hnone : x.truncate? = none := if_neg (by rw [hx]; exact Bool.false_ne_true)
    rw [narrowDouble_of_none hnone]
    simp
  | true =>
    rw [narrowDouble_of_some (Binary.truncate?_of_isFinite hx)]
    simp only [true_and]
    by_cases hcontains : k.contains (towardZero x.value) = true
    · rw [if_pos hcontains, if_pos hcontains]
    · rw [if_neg hcontains, if_neg hcontains]
      refine if_congr ?_ rfl rfl
      by_cases hk : k = .long
      · rw [if_pos hk, and_iff_right hk, towardZero_value_eq_iff]
      · refine iff_of_false (fun heq => hcontains ?_) fun h => hk h.1
        rw [heq, if_neg hk]
        cases k <;> rfl

/-- The integer that a type takes a double for is the one that narrowing gives. -/
theorem narrowDouble_eq_ok_iff {k : IntegerKind} {x : Double} {i : Int} :
    (∃ m, narrowDouble k x = .ok m ∧ m.runtimeType? = some k.managedType ∧ m.integer? = some i) ↔
      k.Takes x i := by
  have hgreatest : k.contains k.greatest = true := by cases k <;> rfl
  have hwrap : ∀ {j : Int} {m : Managed}, k.contains j = true → k.wrap j = m → m.integer? = some i →
      i = j := by
    rintro j _ hj rfl hi
    rw [IntegerKind.integer?_wrap hj] at hi
    exact (Option.some.inj hi).symm
  unfold IntegerKind.Takes
  rw [narrowDouble_eq]
  constructor
  · rintro ⟨m, hm, -, hi⟩
    split_ifs at hm with hpart hbeyond
    · have hvalue := hwrap hpart.2 (Except.ok.inj hm) hi
      exact ⟨hpart.1, .inl ⟨hvalue, hvalue ▸ IntegerKind.contains_iff.mp hpart.2⟩⟩
    · exact ⟨hbeyond.1, .inr ⟨hbeyond.2.1, hbeyond.2.2, hwrap hgreatest (Except.ok.inj hm) hi⟩⟩
  · rintro ⟨hfinite, ⟨rfl, hbounds⟩ | ⟨hk, hvalue, rfl⟩⟩
    · have hcontains := IntegerKind.contains_iff.mpr hbounds
      exact ⟨_, if_pos ⟨hfinite, hcontains⟩, k.runtimeType?_wrap _, IntegerKind.integer?_wrap hcontains⟩
    · have hbeyond : k.contains (towardZero x.value) = false := by
        rw [towardZero_value_eq_iff.mpr hvalue, hk]
        rfl
      refine ⟨k.wrap k.greatest, ?_, k.runtimeType?_wrap _, IntegerKind.integer?_wrap hgreatest⟩
      rw [hbeyond, if_neg (fun h => Bool.false_ne_true h.2), if_pos ⟨hfinite, hk, hvalue⟩]

theorem narrowDouble_eq_error_iff {k : IntegerKind} {x : Double} :
    narrowDouble k x = .error (outOfRange k.managedType (toString x)) ↔ ∀ i, ¬ k.Takes x i := by
  constructor
  · intro h i htakes
    obtain ⟨m, hm, -⟩ := narrowDouble_eq_ok_iff.mpr htakes
    rw [h] at hm
    cases hm
  · intro h
    rw [narrowDouble_eq, if_neg, if_neg]
    · rintro ⟨hfinite, hbeyond⟩
      exact h _ ⟨hfinite, .inr ⟨hbeyond.1, hbeyond.2, rfl⟩⟩
    · rintro ⟨hfinite, hcontains⟩
      exact h _ ⟨hfinite, .inl ⟨rfl, IntegerKind.contains_iff.mp hcontains⟩⟩

/-- **Doubles are cut to integers and never wrap.** Decoding a number as an integer, with the converter
for the type or with the standard ones, gives the integer part of a finite double if it lies between the
bounds of the type, and the greatest long for two to the 63. All other doubles, what is not a number and
the infinities among them, are refused as out of range. -/
theorem decode_integer_of_double (k : IntegerKind) (x : Double) : ∃ answer : Except CallError Managed,
    (∀ r required s,
      decodeUsing r (.number k.managedType) required (.number x) s = (answer, s)) ∧
    (∀ heap, onHeap (decode Converter.defaults (.number x) k.managedType) heap = (answer, heap)) ∧
    (∀ i, (∃ m, answer = .ok m ∧ m.runtimeType? = some k.managedType ∧ m.integer? = some i) ↔
      k.Takes x i) ∧
    (answer = .error (.conversion k.managedType.text (toString x ++ " is out of range")) ↔
      ∀ i, ¬ k.Takes x i) := by
  have hnumber : ∀ r required s,
      decodeUsing r (.number k.managedType) required (.number x) s = (narrowDouble k x, s) :=
    fun r required s => by rw [decodeUsing_number, k.narrow_managedType]
  refine ⟨narrowDouble k x, hnumber, fun heap => ?_, fun i => narrowDouble_eq_ok_iff,
    narrowDouble_eq_error_iff⟩
  have hpick : Converter.standardDecoder? (HostValue.number x).hostType k.managedType =
      some (.number k.managedType) := Converter.standardDecoder?_number (by cases k <;> rfl)
  rw [onHeap_decode_of hpick]
  unfold onHeap
  rw [hnumber]

/-- Beyond the least byte a fraction is cut off, and a whole step is too far. -/
example : (narrowDouble .byte (.ofBits 0xC0601FFFFFFFFFFF)).toOption.bind Managed.integer? = some (-128) ∧
    (narrowDouble .byte (.ofBits 0xC060200000000000)).toOption.bind Managed.integer? = none := by
  decide +kernel

end Gridcall
