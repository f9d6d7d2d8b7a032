import Gridcall.Number.Binary
import Mathlib

/-!
# Values that rounding keeps

A number whose exact value is given comes back from rounding with the same word.

* `FloatFormat.unitsOf_normal`, `unitsOf_subnormal` : the magnitude of a word from its two fields;
* `exists_word` : a significand of full width under any exponent in range is the magnitude of a word;
* `roundWord_eq_of_units` : the magnitude of a finite word is rounded to that word;
* `Binary.truncate?_ofInt` : integers of at most 53 bits are doubles;
* `Binary.convert_convert` : numbers of one format are numbers of a wider one, such as single
  precision numbers are doubles.
-/

namespace Gridcall

theorem roundHalfEven_mul (n : Nat) {den : Nat} (hden : 0 < den) : roundHalfEven (den * n) den = n := by
  simp [roundHalfEven, Nat.mul_div_cancel_left _ hden, hden]

namespace FloatFormat

variable {f : FloatFormat}

theorem scale_eq (f : FloatFormat) : f.scale = 2 ^ f.unitExponent := rfl

theorem infinityWord_eq (f : FloatFormat) :
    f.infinityWord = (2 ^ f.exponentBits - 1) * 2 ^ f.fractionBits := rfl

theorem scale_pos : 0 < f.scale := Nat.two_pow_pos _

/-! ## Words and magnitudes -/

theorem unitsOf_subnormal {w : Nat} (hw : w < 2 ^ f.fractionBits) : f.unitsOf w = w := by
  simp [unitsOf, Nat.div_eq_of_lt hw, Nat.mod_eq_of_lt hw]

theorem unitsOf_normal (field : Nat) {fraction : Nat} (h : fraction < 2 ^ f.fractionBits) :
    f.unitsOf ((field + 1) * 2 ^ f.fractionBits + fraction) =
      (2 ^ f.fractionBits + fraction) * 2 ^ field := by
  have hdiv : ((field + 1) * 2 ^ f.fractionBits + fraction) / 2 ^ f.fractionBits = field + 1 := by
    rw [Nat.mul_comm, Nat.mul_add_div (Nat.two_pow_pos _), Nat.div_eq_of_lt h, Nat.add_zero]
  have hmod : ((field + 1) * 2 ^ f.fractionBits + fraction) % 2 ^ f.fractionBits = fraction := by
    rw [Nat.mul_comm, Nat.mul_add_mod, Nat.mod_eq_of_lt h]
  simp [unitsOf, hdiv, hmod]

/-- Every word is its fraction, or has an exponent field that is not zero. -/
theorem word_cases (f : FloatFormat) (w : Nat) :
    w < 2 ^ f.fractionBits ∨ ∃ field fraction, fraction < 2 ^ f.fractionBits ∧
      w = (field + 1) * 2 ^ f.fractionBits + fraction := by
  rcases Nat.lt_or_ge w (2 ^ f.fractionBits) with hw | hw
  · exact Or.inl hw
  · have hpos := Nat.two_pow_pos f.fractionBits
    have hfield : 0 < w / 2 ^ f.fractionBits := Nat.div_pos hw hpos
    refine Or.inr ⟨w / 2 ^ f.fractionBits - 1, w % 2 ^ f.fractionBits, Nat.mod_lt _ hpos, ?_⟩
    rw [Nat.sub_add_cancel hfield, Nat.mul_comm]
    exact (Nat.div_add_mod _ _).symm

/-- A significand that fits the fraction field and the leading bit, under an exponent that leaves
room below infinity, is the magnitude of a finite word. -/
theorem exists_word (f : FloatFormat) {m : Nat} (hm : m < 2 ^ (f.fractionBits + 1)) (e : Nat)
    (he : e + 3 ≤ 2 ^ f.exponentBits) : ∃ w < f.infinityWord, f.unitsOf w = m * 2 ^ e := by
  induction e generalizing m with
  | zero =>
    have hle : 2 * 2 ^ f.fractionBits ≤ f.infinityWord := by
      rw [infinityWord_eq]
      exact Nat.mul_le_mul_right _ (by omega)
    rw [Nat.pow_succ] at hm
    refine ⟨m, by omega, ?_⟩
    rcases Nat.lt_or_ge m (2 ^ f.fractionBits) with hlt | hge
    · rw [unitsOf_subnormal hlt, Nat.pow_zero, Nat.mul_one]
    · obtain ⟨fraction, rfl⟩ := Nat.exists_eq_add_of_le hge
      have := f.unitsOf_normal 0 (show fraction < 2 ^ f.fractionBits by omega)
      rwa [Nat.zero_add, Nat.one_mul] at this
  | succ e ih =>
    rw [Nat.pow_succ] at hm
    rcases Nat.lt_or_ge m (2 ^ f.fractionBits) with hlt | hge
    · obtain ⟨w, hw, hunits⟩ := ih (m := 2 * m) (by rw [Nat.pow_succ]; omega) (by omega)
      refine ⟨w, hw, ?_⟩
      rw [hunits, Nat.pow_succ, Nat.mul_comm 2 m, Nat.mul_assoc, Nat.mul_comm 2]
    · obtain ⟨fraction, rfl⟩ := Nat.exists_eq_add_of_le hge
      have hfraction : fraction < 2 ^ f.fractionBits := by omega
      refine ⟨(e + 1 + 1) * 2 ^ f.fractionBits + fraction, ?_, f.unitsOf_normal (e + 1) hfraction⟩
      have hle : (e + 1 + 1) * 2 ^ f.fractionBits + 2 ^ f.fractionBits ≤ f.infinityWord := by
        rw [← Nat.succ_mul, infinityWord_eq]
        exact Nat.mul_le_mul_right _ (by omega)
      exact Nat.lt_of_lt_of_le (Nat.add_lt_add_left hfraction _) hle

/-! ## Rounding -/

theorem log2_significand (k : Nat) {m p : Nat} (hlow : 2 ^ p ≤ m) (hhigh : m < 2 ^ (p + 1)) :
    (m * 2 ^ k).log2 = p + k := by
  have hpos := Nat.two_pow_pos k
  have hne : m * 2 ^ k ≠ 0 := Nat.mul_ne_zero (by have := Nat.two_pow_pos p; omega) (by omega)
  rw [Nat.log2_eq_iff hne]
  constructor
  · rw [Nat.pow_add]
    exact Nat.mul_le_mul_right _ hlow
  · rw [show p + k + 1 = p + 1 + k by omega, Nat.pow_add]
    exact Nat.mul_lt_mul_of_pos_right hhigh hpos

/-- The magnitude of a finite word is rounded to that word. -/
theorem roundWord_eq_of_units {num den w : Nat} (hden : 0 < den) (hw : w < f.infinityWord)
    (h : num * f.scale = den * f.unitsOf w) : f.roundWord num den = w := by
  simp only [roundWord, Nat.pow_eq, h, Nat.mul_div_cancel_left _ hden]
  rcases f.word_cases w with hlt | ⟨field, fraction, hfraction, rfl⟩
  · rw [unitsOf_subnormal hlt]
    have hlog : w.log2 - f.fractionBits = 0 := by
      rcases Nat.eq_zero_or_pos w with rfl | hpos
      · simp
      · have := (Nat.log2_lt (by omega)).mpr hlt
        omega
    simp only [hlog, Nat.zero_mul, Nat.pow_zero, Nat.mul_one, roundHalfEven_mul _ hden]
    omega
  · rw [f.unitsOf_normal field hfraction,
      log2_significand field (Nat.le_add_right _ _) (by rw [Nat.pow_succ]; omega)]
    simp only [Nat.add_sub_cancel_left]
    rw [Nat.mul_comm (2 ^ f.fractionBits + fraction), ← Nat.mul_assoc,
      roundHalfEven_mul _ (Nat.mul_pos hden (Nat.two_pow_pos _))]
    have hsplit : field * 2 ^ f.fractionBits + (2 ^ f.fractionBits + fraction) =
        (field + 1) * 2 ^ f.fractionBits + fraction := by
      rw [Nat.succ_mul, Nat.add_assoc]
    rw [hsplit]
    exact Nat.min_eq_right (Nat.le_of_lt hw)

/-- The magnitude of a finite word is a significand under an exponent. -/
theorem exists_significand (f : FloatFormat) {w : Nat} (hw : w < f.infinityWord) :
    ∃ m e, m < 2 ^ (f.fractionBits + 1) ∧ (e = 0 ∨ e + 3 ≤ 2 ^ f.exponentBits) ∧
      f.unitsOf w = m * 2 ^ e := by
  rcases f.word_cases w with hlt | ⟨field, fraction, hfraction, rfl⟩
  · refine ⟨w, 0, ?_, Or.inl rfl, by rw [unitsOf_subnormal hlt, Nat.pow_zero, Nat.mul_one]⟩
    rw [Nat.pow_succ]
    omega
  · refine ⟨2 ^ f.fractionBits + fraction, field, ?_, Or.inr ?_, f.unitsOf_normal field hfraction⟩
    · rw [Nat.pow_succ]
      omega
    · have hlt : field + 1 < 2 ^ f.exponentBits - 1 := by
        rw [infinityWord_eq] at hw
        exact Nat.lt_of_mul_lt_mul_right (Nat.lt_of_le_of_lt (Nat.le_add_right _ fraction) hw)
      omega

/-- Every number of format `f` is a number of format `g`. -/
structure Widens (f g : FloatFormat) : Prop where
  /-- The significands are at least as long. -/
  fraction_le : f.fractionBits ≤ g.fractionBits
  /-- The least positive number is at least as small. -/
  unit_le : f.unitExponent ≤ g.unitExponent
  /-- The exponents reach at least as far up. -/
  exponent_le : 2 ^ f.exponentBits + (g.unitExponent - f.unitExponent) ≤ 2 ^ g.exponentBits
  /-- There are exponents besides those of the infinities and of the least numbers. -/
  three_le : 3 ≤ 2 ^ f.exponentBits

theorem single_widens_double : single.Widens double := ⟨by decide, by decide, by decide, by decide⟩

end FloatFormat

namespace Binary

variable {f g : FloatFormat}

theorem not_isNaN_of_isFinite {x : Binary f} (hx : x.isFinite) : ¬ x.isNaN := by
  simp only [isFinite, isNaN, decide_eq_true_eq] at *
  omega

theorem not_isInfinite_of_isFinite {x : Binary f} (hx : x.isFinite) : ¬ x.isInfinite := by
  simp only [isFinite, isInfinite, decide_eq_true_eq, beq_iff_eq] at *
  omega

theorem ofRatio_eq {num den : Nat} {x : Binary f} (hden : 0 < den) (hx : x.isFinite)
    (h : num * f.scale = den * x.units) : ofRatio x.negative num den = x := by
  obtain ⟨negative, word, hword⟩ := x
  simp only [isFinite, decide_eq_true_eq] at hx
  simp only [ofRatio, mk.injEq, true_and]
  exact FloatFormat.roundWord_eq_of_units hden hx h

/-- A quotient that is a significand under an exponent in range is rounded to itself. -/
theorem units_ofRatio (negative : Bool) {num den m e : Nat} (hden : 0 < den)
    (hm : m < 2 ^ (f.fractionBits + 1)) (he : e + 3 ≤ 2 ^ f.exponentBits)
    (h : num * f.scale = den * (m * 2 ^ e)) :
    (ofRatio negative num den : Binary f).isFinite ∧
      (ofRatio negative num den : Binary f).units = m * 2 ^ e := by
  obtain ⟨w, hw, hunits⟩ := f.exists_word hm e he
  have hword := FloatFormat.roundWord_eq_of_units hden hw (by rw [hunits]; exact h)
  simp only [isFinite, units, ofRatio, hword, decide_eq_true_eq]
  exact ⟨hw, hunits⟩

/-! ## Integers as doubles -/

theorem units_ofInt {i : Int} (hi : i.natAbs ≤ 2 ^ 53) :
    (ofInt i : Double).isFinite ∧ (ofInt i : Double).units = i.natAbs * FloatFormat.double.scale := by
  rw [FloatFormat.scale_eq]
  rcases Nat.lt_or_ge i.natAbs (2 ^ 53) with hlt | hge
  · refine units_ofRatio _ Nat.one_pos hlt (by decide) ?_
    rw [Nat.one_mul, FloatFormat.scale_eq]
  · have hpow : i.natAbs * 2 ^ FloatFormat.double.unitExponent =
        1 * 2 ^ (53 + FloatFormat.double.unitExponent) := by
      rw [Nat.le_antisymm hi hge, Nat.pow_add, Nat.one_mul]
    rw [hpow]
    refine units_ofRatio _ Nat.one_pos (by decide) (by decide) ?_
    rw [Nat.one_mul, FloatFormat.scale_eq]
    exact hpow

/-- An integer of at most 53 bits is its own double. -/
theorem truncate?_ofInt {i : Int} (hi : i.natAbs ≤ 2 ^ 53) : (ofInt i : Double).truncate? = some i := by
  obtain ⟨hfinite, hunits⟩ := units_ofInt hi
  simp only [truncate?, hfinite, if_true, hunits, Nat.mul_div_cancel _ FloatFormat.scale_pos]
  simp only [ofInt, ofRatio, decide_eq_true_eq]
  split <;> simp only [Option.some.injEq] <;> omega

/-! ## Wider formats -/

theorem convert_nan {x : Binary f} (hx : x.isNaN) : (x.convert : Binary g) = nan := by
  simp [convert, hx]

theorem isNaN_nan : (nan : Binary f).isNaN := by
  have hpos := Nat.two_pow_pos (f.fractionBits - 1)
  exact decide_eq_true (Nat.lt_add_of_pos_right hpos)

theorem convert_of_isFinite {x : Binary f} (hx : x.isFinite) :
    (x.convert : Binary g) = ofRatio x.negative x.units f.scale := by
  rw [convert, if_neg (not_isNaN_of_isFinite hx), if_neg (not_isInfinite_of_isFinite hx)]

theorem convert_infinity (negative : Bool) :
    ((infinity negative : Binary f).convert : Binary g) = infinity negative := by
  simp [convert, isNaN, isInfinite, infinity]

/-- A number that is a number survives the way through a wider format. -/
theorem convert_convert (h : f.Widens g) {x : Binary f} (hx : x.isNaN = false) :
    ((x.convert : Binary g).convert : Binary f) = x := by
  by_cases hinf : x.isInfinite
  · obtain ⟨negative, word, hword⟩ := x
    obtain rfl : word = f.infinityWord := by simpa [isInfinite] using hinf
    exact (congrArg convert (convert_infinity negative)).trans (convert_infinity negative)
  · have hfinite : x.isFinite := by
      simp only [isNaN, isInfinite, isFinite, decide_eq_false_iff_not, decide_eq_true_eq,
        beq_iff_eq] at *
      omega
    obtain ⟨m, e, hm, he, hunits⟩ := f.exists_significand (decide_eq_true_eq.mp hfinite)
    have hscale : g.scale = f.scale * 2 ^ (g.unitExponent - f.unitExponent) := by
      rw [FloatFormat.scale_eq, FloatFormat.scale_eq, ← Nat.pow_add, Nat.add_sub_cancel' h.unit_le]
    have hpow : x.units * g.scale = f.scale * (m * 2 ^ (e + (g.unitExponent - f.unitExponent))) := by
      rw [units, hunits, hscale, Nat.pow_add]
      ac_rfl
    have hroom : e + (g.unitExponent - f.unitExponent) + 3 ≤ 2 ^ g.exponentBits := by
      have h3 := h.three_le
      have hle := h.exponent_le
      omega
    obtain ⟨hwide, hback⟩ := units_ofRatio (f := g) x.negative FloatFormat.scale_pos
      (Nat.lt_of_lt_of_le hm (Nat.pow_le_pow_right (by decide) (Nat.succ_le_succ h.fraction_le)))
      hroom hpow
    rw [convert_of_isFinite hfinite, convert_of_isFinite hwide]
    refine ofRatio_eq FloatFormat.scale_pos hfinite ?_
    rw [hback, Nat.mul_comm, ← hpow, Nat.mul_comm]

end Binary

end Gridcall
