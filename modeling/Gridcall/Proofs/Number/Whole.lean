import Gridcall.Proofs.Number.Rounding

/-!
# Integers and numbers

* `towardZero` : the integer part of an exact value. It is what `Binary.truncate?` computes
  (`truncate?_of_isFinite`);
* `FloatFormat.exists_natCast_magnitude` : from a significand of full width on all magnitudes are whole;
* `Binary.nearestInteger` : the double nearest to an integer is an integer again (`value_ofInt`). It is the
  integer itself up to 53 bits, keeps the order, and is its own nearest one.
-/

namespace Gridcall

/-! ## Integer parts -/

/-- The integer part of an exact value, toward zero. -/
def towardZero (q : ℚ) : Int := if 0 ≤ q then ⌊q⌋ else ⌈q⌉

theorem towardZero_of_nonneg {q : ℚ} (h : 0 ≤ q) : towardZero q = ⌊q⌋ := if_pos h

theorem towardZero_neg (q : ℚ) : towardZero (-q) = -towardZero q := by
  rcases lt_trichotomy q 0 with hneg | rfl | hpos
  · rw [towardZero_of_nonneg (neg_nonneg.mpr hneg.le), towardZero, if_neg hneg.not_ge, Int.floor_neg]
  · simp [towardZero]
  · rw [towardZero_of_nonneg hpos.le, towardZero, if_neg (neg_neg_of_pos hpos).not_ge, Int.ceil_neg]

theorem towardZero_intCast (i : Int) : towardZero i = i := by
  unfold towardZero
  split_ifs
  · exact Int.floor_intCast i
  · exact Int.ceil_intCast i

/-- A positive integer part is not beyond the value. -/
theorem towardZero_le_of_pos {q : ℚ} (h : 0 < towardZero q) : towardZero q ≤ q := by
  unfold towardZero at h ⊢
  split_ifs at h ⊢ with hq
  · exact Int.floor_le q
  · have hceil : ⌈q⌉ ≤ 0 := Int.ceil_le.mpr (by rw [Int.cast_zero]; exact (not_le.mp hq).le)
    omega

namespace FloatFormat

variable {f : FloatFormat}

theorem floor_magnitude (w : Nat) : ⌊f.magnitude w⌋ = (f.unitsOf w / f.scale : Nat) := by
  rw [magnitude, Rat.floor_natCast_div_natCast, Int.natCast_ediv]

/-- Magnitudes with a significand of full width before the point are whole. -/
theorem exists_natCast_magnitude {w : Nat} (h : 2 ^ f.fractionBits ≤ f.magnitude w) :
    ∃ n : Nat, f.magnitude w = n := by
  have hfirst : f.magnitude ((f.unitExponent + 0 + 1) * 2 ^ f.fractionBits + 0) = 2 ^ f.fractionBits := by
    rw [f.magnitude_whole 0 (Nat.two_pow_pos _), Nat.cast_zero, add_zero, pow_zero, mul_one]
  have hle : (f.unitExponent + 0 + 1) * 2 ^ f.fractionBits + 0 ≤ w :=
    f.magnitude_strictMono.le_iff_le.mp (hfirst ▸ h)
  have hfield : f.unitExponent + 1 ≤ w / 2 ^ f.fractionBits :=
    (Nat.le_div_iff_mul_le (Nat.two_pow_pos _)).mpr hle
  obtain ⟨k, hk⟩ := Nat.exists_eq_add_of_le hfield
  have hw : w = (f.unitExponent + k + 1) * 2 ^ f.fractionBits + w % 2 ^ f.fractionBits := by
    rw [show f.unitExponent + k + 1 = w / 2 ^ f.fractionBits by omega, Nat.mul_comm]
    exact (Nat.div_add_mod _ _).symm
  refine ⟨(2 ^ f.fractionBits + w % 2 ^ f.fractionBits) * 2 ^ k, ?_⟩
  rw [hw, f.magnitude_whole k (Nat.mod_lt _ (Nat.two_pow_pos _)), ← hw]
  push_cast
  rfl

end FloatFormat

namespace Binary

variable {f : FloatFormat}

/-- The integer part of a finite number is that of its exact value. -/
theorem truncate?_of_isFinite {x : Binary f} (hx : x.isFinite) :
    x.truncate? = some (towardZero x.value) := by
  have hpart : towardZero (f.magnitude x.word) = (x.units / f.scale : Nat) := by
    rw [towardZero_of_nonneg (f.magnitude_nonneg _), FloatFormat.floor_magnitude]
    rfl
  rw [truncate?, if_pos hx, value]
  split_ifs
  · rw [towardZero_neg, hpart]
  · rw [hpart]

theorem isFinite_of_truncate? {x : Binary f} {i : Int} (h : x.truncate? = some i) : x.isFinite := by
  unfold truncate? at h
  exact (Option.ite_none_right_eq_some.mp h).1

/-- A number with a whole magnitude is its own integer part. -/
theorem value_eq_towardZero {x : Binary f} {n : Nat} (h : f.magnitude x.word = n) :
    x.value = towardZero x.value := by
  obtain ⟨i, hi⟩ : ∃ i : Int, x.value = i := by
    unfold value
    split_ifs
    · exact ⟨-n, by rw [h, Int.cast_neg, Int.cast_natCast]⟩
    · exact ⟨n, by rw [h, Int.cast_natCast]⟩
  rw [hi, towardZero_intCast]

/-! ## Integers as numbers -/

theorem rounds_ofInt (i : Int) : f.Rounds i.natAbs (ofInt i : Binary f).word := by
  have h := f.rounds_roundWord i.natAbs Nat.one_pos
  rwa [Nat.cast_one, div_one] at h

theorem value_ofInt_of_neg {i : Int} (h : i < 0) :
    (ofInt i : Binary f).value = -f.magnitude (ofInt i : Binary f).word :=
  if_pos (decide_eq_true h)

theorem value_ofInt_of_nonneg {i : Int} (h : 0 ≤ i) :
    (ofInt i : Binary f).value = f.magnitude (ofInt i : Binary f).word :=
  if_neg (mt of_decide_eq_true (Int.not_lt.mpr h))

theorem magnitude_ofInt_mono {i j : Int} (h : i.natAbs ≤ j.natAbs) :
    f.magnitude (ofInt i : Binary f).word ≤ f.magnitude (ofInt j : Binary f).word :=
  f.magnitude_strictMono.monotone ((rounds_ofInt i).mono (rounds_ofInt j) (Nat.cast_le.mpr h))

/-- Rounding keeps the order of integers. -/
theorem value_ofInt_mono {i j : Int} (h : i ≤ j) :
    (ofInt i : Binary f).value ≤ (ofInt j : Binary f).value := by
  have hi := f.magnitude_nonneg (ofInt i : Binary f).word
  have hj := f.magnitude_nonneg (ofInt j : Binary f).word
  rcases Int.lt_or_le i 0 with hneg | hnonneg
  · rw [value_ofInt_of_neg hneg]
    rcases Int.lt_or_le j 0 with hneg' | hnonneg'
    · rw [value_ofInt_of_neg hneg', neg_le_neg_iff]
      exact magnitude_ofInt_mono (by omega)
    · rw [value_ofInt_of_nonneg hnonneg']
      exact (neg_nonpos.mpr hi).trans hj
  · rw [value_ofInt_of_nonneg hnonneg, value_ofInt_of_nonneg (hnonneg.trans h)]
    exact magnitude_ofInt_mono (by omega)

/-! ## Integers as doubles -/

/-- The integer that is left of `i` when it becomes a double. -/
def nearestInteger (i : Int) : Int := towardZero (ofInt i : Double).value

theorem truncate?_ofInt_eq {i : Int} (h : (ofInt i : Double).isFinite) :
    (ofInt i : Double).truncate? = some (nearestInteger i) := truncate?_of_isFinite h

theorem magnitude_ofInt_of_natAbs_le {i : Int} (hi : i.natAbs ≤ 2 ^ 53) :
    FloatFormat.double.magnitude (ofInt i : Double).word = i.natAbs := by
  have hunits : FloatFormat.double.unitsOf (ofInt i : Double).word =
      i.natAbs * FloatFormat.double.scale := (units_ofInt hi).2
  rw [FloatFormat.magnitude, hunits, Nat.cast_mul, mul_div_cancel_right₀ _ FloatFormat.double.scale_pos'.ne']

theorem nearestInteger_of_natAbs_le {i : Int} (hi : i.natAbs ≤ 2 ^ 53) : nearestInteger i = i :=
  Option.some.inj ((truncate?_ofInt_eq (units_ofInt hi).1).symm.trans (truncate?_ofInt hi))

/-- The double nearest to an integer is an integer. -/
theorem value_ofInt (i : Int) : (ofInt i : Double).value = nearestInteger i := by
  obtain ⟨n, hn⟩ : ∃ n : Nat, FloatFormat.double.magnitude (ofInt i : Double).word = n := by
    rcases Nat.le_total i.natAbs (2 ^ 53) with hi | hi
    · exact ⟨_, magnitude_ofInt_of_natAbs_le hi⟩
    · have hbound : FloatFormat.double.magnitude (ofInt (2 ^ 53 : Nat) : Double).word = (2 ^ 53 : Nat) :=
        magnitude_ofInt_of_natAbs_le (Int.natAbs_natCast _).le
      have hle := magnitude_ofInt_mono (f := .double) ((Int.natAbs_natCast (2 ^ 53)).trans_le hi)
      rw [hbound] at hle
      refine FloatFormat.exists_natCast_magnitude (le_trans ?_ hle)
      norm_num [FloatFormat.double]
  exact value_eq_towardZero hn

theorem nearestInteger_mono {i j : Int} (h : i ≤ j) : nearestInteger i ≤ nearestInteger j := by
  have hvalue := value_ofInt_mono (f := .double) h
  rw [value_ofInt, value_ofInt] at hvalue
  exact_mod_cast hvalue

theorem natAbs_nearestInteger (i : Int) :
    ((nearestInteger i).natAbs : ℚ) = FloatFormat.double.magnitude (ofInt i : Double).word := by
  rw [← abs_value, value_ofInt, Nat.cast_natAbs, Int.cast_abs]

theorem nearestInteger_neg_iff {i : Int} : nearestInteger i < 0 ↔ i < 0 := by
  constructor
  · intro h
    by_contra hnonneg
    have hmono := nearestInteger_mono (Int.not_lt.mp hnonneg)
    rw [nearestInteger_of_natAbs_le (i := 0) (by decide)] at hmono
    omega
  · intro h
    have hmono := nearestInteger_mono (Int.le_sub_one_of_lt h)
    rw [nearestInteger_of_natAbs_le (i := 0 - 1) (by decide)] at hmono
    omega

/-- The double nearest to an integer is determined by the sign and the word. -/
theorem ofInt_eq_iff {i j : Int} : (ofInt i : Double) = ofInt j ↔
    (i < 0 ↔ j < 0) ∧ (ofInt i : Double).word = (ofInt j : Double).word := by
  simp only [ofInt, ofRatio, mk.injEq, decide_eq_decide]

/-- What is left of an integer becomes the same double. -/
theorem ofInt_nearestInteger (i : Int) : (ofInt (nearestInteger i) : Double) = ofInt i := by
  refine ofInt_eq_iff.mpr ⟨nearestInteger_neg_iff, (rounds_ofInt _).unique ?_⟩
  rw [natAbs_nearestInteger]
  exact FloatFormat.rounds_magnitude (rounds_ofInt i).le_infinityWord

end Binary

end Gridcall
