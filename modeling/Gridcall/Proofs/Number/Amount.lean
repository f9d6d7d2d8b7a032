import Gridcall.Proofs.Number.Whole

/-!
# What a number stands for

`Amount` is what any number stands for, whatever its format: an exact value, an infinity, or nothing that
is a number. Going to a wider format keeps it, and so do integers that fit the significand.

* `Binary.amount` : what a binary number stands for;
* `FloatFormat.exists_magnitude_of_widens` : every magnitude of a format is one of any wider format;
* `Binary.amount_convert` : conversion to a wider format keeps what a number stands for;
* `Binary.amount_ofInt` : integers of no more bits than the significand has become numbers unchanged.
-/

namespace Gridcall

inductive Amount where
  | notANumber
  | infinite (negative : Bool)
  | finite (value : ℚ)

namespace FloatFormat

variable {f g : FloatFormat}

/-- A value that is a magnitude is rounded to it. -/
theorem Rounds.magnitude_eq {w word : Nat} (hw : w < f.infinityWord)
    (h : f.Rounds (f.magnitude w) word) : word = w := h.unique (rounds_magnitude hw.le)

/-- A significand under an exponent stands for the same value in a wider format. -/
theorem exists_magnitude_of_widens (h : f.Widens g) {w : Nat} (hw : w < f.infinityWord) :
    ∃ w' < g.infinityWord, g.magnitude w' = f.magnitude w := by
  obtain ⟨m, e, hm, he, hunits⟩ := f.exists_significand hw
  have hlonger : m < 2 ^ (g.fractionBits + 1) :=
    hm.trans_le (Nat.pow_le_pow_right (by decide) (Nat.succ_le_succ h.fraction_le))
  have hroom : e + (g.unitExponent - f.unitExponent) + 3 ≤ 2 ^ g.exponentBits := by
    have h3 := h.three_le
    have hle := h.exponent_le
    omega
  obtain ⟨w', hw', hunits'⟩ := g.exists_word hlonger _ hroom
  have hscale : g.scale = f.scale * 2 ^ (g.unitExponent - f.unitExponent) := by
    rw [scale_eq, scale_eq, ← Nat.pow_add, Nat.add_sub_cancel' h.unit_le]
  refine ⟨w', hw', ?_⟩
  rw [magnitude, magnitude, div_eq_div_iff g.scale_pos'.ne' f.scale_pos'.ne', hunits, hunits', hscale]
  push_cast
  ring

/-- A natural number that fits the significand is a magnitude. -/
theorem exists_magnitude_of_lt {n : Nat} (hroom : f.unitExponent + 3 ≤ 2 ^ f.exponentBits)
    (hn : n < 2 ^ (f.fractionBits + 1)) : ∃ w < f.infinityWord, f.magnitude w = n := by
  obtain ⟨w, hw, hunits⟩ := f.exists_word hn f.unitExponent hroom
  refine ⟨w, hw, ?_⟩
  rw [magnitude, div_eq_iff f.scale_pos'.ne', hunits, scale_eq, Nat.cast_mul]

end FloatFormat

namespace Binary

variable {f g : FloatFormat}

def amount (x : Binary f) : Amount :=
  if x.isNaN then .notANumber else if x.isInfinite then .infinite x.negative else .finite x.value

theorem amount_of_isNaN {x : Binary f} (hx : x.isNaN) : x.amount = .notANumber := if_pos hx

theorem amount_infinity (negative : Bool) :
    (infinity negative : Binary f).amount = .infinite negative := by
  simp [amount, isNaN, isInfinite, infinity]

theorem amount_of_isFinite {x : Binary f} (hx : x.isFinite) : x.amount = .finite x.value := by
  rw [amount, if_neg (not_isNaN_of_isFinite hx), if_neg (not_isInfinite_of_isFinite hx)]

/-- A number is finite, an infinity, or none at all. -/
theorem finite_or (x : Binary f) : x.isFinite ∨ (∃ negative, x = infinity negative) ∨ x.isNaN := by
  rcases Nat.lt_trichotomy x.word f.infinityWord with hlt | heq | hgt
  · exact .inl (decide_eq_true hlt)
  · obtain ⟨negative, word, hword⟩ := x
    obtain rfl : word = f.infinityWord := heq
    exact .inr (.inl ⟨negative, rfl⟩)
  · exact .inr (.inr (decide_eq_true hgt))

/-- Conversion to a wider format keeps what a number stands for. -/
theorem amount_convert (h : f.Widens g) (x : Binary f) : (x.convert : Binary g).amount = x.amount := by
  rcases x.finite_or with hx | ⟨negative, rfl⟩ | hx
  · obtain ⟨w, hw, hmagnitude⟩ := FloatFormat.exists_magnitude_of_widens h (of_decide_eq_true hx)
    have hword : (x.convert : Binary g).word = w :=
      FloatFormat.Rounds.magnitude_eq hw (hmagnitude ▸ rounds_convert hx)
    have hfinite : (x.convert : Binary g).isFinite := decide_eq_true (hword ▸ hw)
    rw [amount_of_isFinite hx, amount_of_isFinite hfinite, value, value, negative_convert hx, hword,
      hmagnitude]
  · rw [convert_infinity, amount_infinity, amount_infinity]
  · rw [convert_nan hx, amount_of_isNaN isNaN_nan, amount_of_isNaN hx]

/-- An integer that fits the significand becomes a number unchanged. -/
theorem amount_ofInt {i : Int} (hroom : f.unitExponent + 3 ≤ 2 ^ f.exponentBits)
    (hi : i.natAbs < 2 ^ (f.fractionBits + 1)) : (ofInt i : Binary f).amount = .finite i := by
  obtain ⟨w, hw, hmagnitude⟩ := FloatFormat.exists_magnitude_of_lt hroom hi
  have hword : (ofInt i : Binary f).word = w :=
    FloatFormat.Rounds.magnitude_eq hw (hmagnitude ▸ rounds_ofInt i)
  rw [amount_of_isFinite (decide_eq_true (hword ▸ hw))]
  rcases Int.lt_or_le i 0 with hneg | hnonneg
  · rw [value_ofInt_of_neg hneg, hword, hmagnitude, Nat.cast_natAbs, abs_of_neg hneg, Int.cast_neg,
      neg_neg]
  · rw [value_ofInt_of_nonneg hnonneg, hword, hmagnitude, Nat.cast_natAbs, abs_of_nonneg hnonneg]

end Binary

end Gridcall
