import Gridcall.Proofs.Number.Rounding

/-!
# Decimals and words

* `Decimal.value` : the exact value of a decimal. `strip` keeps it, and `Binary.expansion` has that of
  its number;
* `Decimal.rounds_toWord` : a decimal is read as the word nearest to its value, also where the place of
  its leading digit settles the word. So the word depends on the value alone (`toWord_congr`);
* `Binary.rounds_shortest` : the shortest digits of a number are rounded to it;
* `Binary.shortest_near_or_few` : they are eight at most, or as near to the number as nine digits come.
-/

namespace Gridcall

namespace FloatFormat

variable {f : FloatFormat}

/-- The first midpoint is half of the least positive number. -/
theorem midpoint_zero (f : FloatFormat) : f.midpoint 0 = 1 / (2 * f.scale) := by
  have hone : f.unitsOf 1 = 1 := unitsOf_subnormal (Nat.one_lt_two_pow f.fractionBits_pos.ne')
  have hzero : f.unitsOf 0 = 0 := unitsOf_subnormal (Nat.two_pow_pos _)
  unfold midpoint magnitude
  rw [hone, hzero]
  have := f.scale_pos'
  field_simp
  push_cast
  ring

/-- No finite number reaches two to the power of the number of exponents. -/
theorem magnitude_infinityWord_le (f : FloatFormat) :
    f.magnitude f.infinityWord ≤ 2 ^ 2 ^ f.exponentBits := by
  unfold magnitude
  rw [div_le_iff₀ f.scale_pos']
  have hscale : 2 ^ f.fractionBits ≤ f.scale := Nat.pow_le_pow_right (by decide) (Nat.le_add_left _ _)
  have hunits : f.unitsOf f.infinityWord ≤ 2 ^ f.fractionBits * 2 ^ 2 ^ f.exponentBits := by
    rw [infinityWord_eq]
    rcases Nat.eq_zero_or_pos (2 ^ f.exponentBits - 1) with hzero | hpos
    · rw [hzero, Nat.zero_mul, unitsOf_subnormal (Nat.two_pow_pos _)]
      exact Nat.zero_le _
    · obtain ⟨field, hfield⟩ := Nat.exists_eq_add_of_lt hpos
      have hnormal := f.unitsOf_normal field (Nat.two_pow_pos _)
      rw [Nat.add_zero, Nat.add_zero] at hnormal
      rw [hfield, Nat.zero_add, hnormal]
      exact Nat.mul_le_mul_left _ (Nat.pow_le_pow_right (by decide) (by omega))
  calc (f.unitsOf f.infinityWord : ℚ) ≤ (2 ^ f.fractionBits * 2 ^ 2 ^ f.exponentBits : Nat) :=
        Nat.cast_le.mpr hunits
    _ ≤ (f.scale * 2 ^ 2 ^ f.exponentBits : Nat) := Nat.cast_le.mpr (Nat.mul_le_mul_right _ hscale)
    _ = 2 ^ 2 ^ f.exponentBits * f.scale := by
        push_cast
        ring

theorem rounds_zero {q : ℚ} (h : q ≤ f.midpoint 0) : f.Rounds q 0 :=
  rounds_of_passes (Nat.zero_le _) (fun _ hw => absurd hw (by omega)) fun _ hpasses => by
    rcases hpasses with hlt | ⟨-, hodd⟩
    · exact hlt.not_ge h
    · cases hodd

theorem rounds_infinityWord {q : ℚ} (h : f.magnitude f.infinityWord ≤ q) :
    f.Rounds q f.infinityWord := by
  refine rounds_of_passes le_rfl (fun w hw => .inl ?_) fun hlt => absurd hlt (lt_irrefl _)
  rw [hw] at h
  exact (f.midpoint_lt_magnitude w).trans_le h

end FloatFormat

theorem decimalLength_eq_toDigits (n : Nat) : decimalLength n = (Nat.toDigits 10 n).length := by
  rw [decimalLength, ← String.length_toList, Nat.toList_repr]

namespace Decimal

variable {f : FloatFormat}

def value (d : Decimal) : ℚ := d.digits * 10 ^ d.exponent

theorem value_eq_div (d : Decimal) : d.value =
    (d.digits * Nat.pow 10 d.exponent.toNat : Nat) / (Nat.pow 10 (-d.exponent).toNat : Nat) := by
  unfold value
  simp only [Nat.pow_eq]
  obtain ⟨n, h | h⟩ := d.exponent.eq_nat_or_neg
  · rw [h, Int.toNat_natCast, show (-(n : Int)).toNat = 0 by omega, zpow_natCast]
    push_cast
    simp
  · rw [h, neg_neg, Int.toNat_natCast, show (-(n : Int)).toNat = 0 by omega, zpow_neg, zpow_natCast]
    push_cast
    simp [div_eq_mul_inv]

/-! ## The place of the leading digit -/

theorem lt_ten_pow_decimalLength (n : Nat) : n < 10 ^ decimalLength n :=
  (Nat.length_repr_le_iff Nat.length_repr_pos).mp le_rfl

theorem ten_pow_decimalLength_le {n : Nat} (h : n ≠ 0) : 10 ^ (decimalLength n - 1) ≤ n := by
  have hpos : 0 < decimalLength n := Nat.length_repr_pos
  by_contra hlt
  rcases Nat.eq_zero_or_pos (decimalLength n - 1) with hone | hmore
  · rw [hone] at hlt
    omega
  · have : decimalLength n ≤ decimalLength n - 1 :=
      (Nat.length_repr_le_iff hmore).mpr (Nat.lt_of_not_le hlt)
    omega

theorem value_lt (d : Decimal) : d.value < 10 ^ d.position := by
  have hlt' : (d.digits : ℚ) < 10 ^ decimalLength d.digits := by
    exact_mod_cast lt_ten_pow_decimalLength d.digits
  unfold value position
  rw [zpow_add₀ (by norm_num), mul_comm, zpow_natCast]
  exact mul_lt_mul_of_pos_left hlt' (by positivity)

theorem le_value {d : Decimal} (h : d.digits ≠ 0) : 10 ^ (d.position - 1) ≤ d.value := by
  have hpos : 0 < decimalLength d.digits := Nat.length_repr_pos
  have hle' : (10 : ℚ) ^ (decimalLength d.digits - 1) ≤ d.digits := by
    exact_mod_cast ten_pow_decimalLength_le h
  have hplace : d.position - 1 = d.exponent + ((decimalLength d.digits - 1 : Nat) : Int) := by
    unfold position
    omega
  unfold value
  rw [hplace, zpow_add₀ (by norm_num), mul_comm, zpow_natCast]
  exact mul_le_mul_of_nonneg_right hle' (by positivity)

/-! ## Words -/

/-- A decimal is read as the word nearest to its value. -/
theorem rounds_toWord (f : FloatFormat) (d : Decimal) : f.Rounds d.value (d.toWord f) := by
  have hscale := f.scale_pos'
  unfold toWord
  split_ifs with hdigits hlow hhigh
  · refine FloatFormat.rounds_zero ?_
    rw [f.midpoint_zero, value, hdigits, Nat.cast_zero, zero_mul]
    positivity
  · refine FloatFormat.rounds_zero (d.value_lt.le.trans ?_)
    calc (10 : ℚ) ^ d.position ≤ 10 ^ (-((f.unitExponent + 1 : Nat) : Int)) :=
          zpow_le_zpow_right₀ (by norm_num) (by omega)
      _ = 1 / 10 ^ (f.unitExponent + 1) := by rw [zpow_neg, zpow_natCast, one_div]
      _ ≤ 1 / 2 ^ (f.unitExponent + 1) :=
          one_div_le_one_div_of_le (by positivity) (pow_le_pow_left₀ (by norm_num) (by norm_num) _)
      _ = f.midpoint 0 := by
          rw [f.midpoint_zero, f.scale_eq]
          push_cast
          rw [pow_succ']
  · refine FloatFormat.rounds_infinityWord (f.magnitude_infinityWord_le.trans ?_)
    calc (2 : ℚ) ^ 2 ^ f.exponentBits ≤ 10 ^ 2 ^ f.exponentBits :=
          pow_le_pow_left₀ (by norm_num) (by norm_num) _
      _ = 10 ^ ((2 ^ f.exponentBits : Nat) : Int) := (zpow_natCast _ _).symm
      _ ≤ 10 ^ (d.position - 1) :=
          zpow_le_zpow_right₀ (by norm_num) (by rw [Nat.pow_eq] at hhigh; omega)
      _ ≤ d.value := d.le_value hdigits
  · rw [value_eq_div]
    exact f.rounds_roundWord _ (Nat.pow_pos (by decide))

theorem toWord_congr {d d' : Decimal} (h : d.value = d'.value) : d.toWord f = d'.toWord f :=
  (d.rounds_toWord f).unique (h ▸ d'.rounds_toWord f)

theorem value_strip (d : Decimal) : d.strip.value = d.value := by
  fun_induction strip d with
  | case1 d h ih =>
    rw [ih, value, value, zpow_add_one₀ (by norm_num), ← mul_assoc, mul_right_comm]
    congr 1
    exact_mod_cast Nat.div_mul_cancel (Nat.dvd_of_mod_eq_zero h.2)
  | case2 d h => rfl

end Decimal

namespace Binary

variable {f : FloatFormat}

theorem value_expansion (x : Binary f) : x.expansion.value = f.magnitude x.word := by
  -- reduced, the denominator is a power of two, of which five to the same power makes a power of ten
  obtain ⟨j, hj, hgcd⟩ :=
    (Nat.dvd_prime_pow Nat.prime_two).mp (Nat.gcd_dvd_right x.units (2 ^ f.unitExponent))
  have hdvd : 2 ^ j ∣ x.units := hgcd ▸ Nat.gcd_dvd_left x.units (2 ^ f.unitExponent)
  obtain ⟨units, hunits⟩ := hdvd
  obtain ⟨places, hplaces⟩ := Nat.exists_eq_add_of_le hj
  have hvalue : x.expansion.value = ((units * 5 ^ places : Nat) : ℚ) * 10 ^ (-(places : Int)) := by
    unfold expansion Decimal.value
    dsimp only
    rw [f.scale_eq, hgcd, hunits, Nat.log2_two_pow, Nat.mul_div_cancel_left _ (Nat.two_pow_pos j),
      hplaces, Nat.add_sub_cancel_left, Nat.pow_eq]
  have hmagnitude : f.magnitude x.word = x.units / f.scale := rfl
  rw [hvalue, hmagnitude, hunits, f.scale_eq, hplaces, zpow_neg, zpow_natCast,
    show (10 : ℚ) = 5 * 2 by norm_num, mul_pow, Nat.pow_add]
  push_cast
  field_simp

/-- What is selected for a number reads back to it. -/
theorem readsBack_of_ofLength? {x : Binary f} {tie : Tie} {count : Nat} {d : Decimal}
    (h : x.ofLength? tie count = some d) : x.readsBack d = true := by
  unfold ofLength? at h
  dsimp only at h
  split at h
  · next hbelow habove =>
    rw [← Option.some.inj h]
    split_ifs
    · exact habove
    · exact hbelow
  · next hbelow _ => exact Option.some.inj h ▸ hbelow
  · next habove => exact Option.some.inj h ▸ habove
  · cases h

/-- The shortest digits as they are found, before trailing zeros are cut off. -/
def found (x : Binary f) (tie : Tie) : Decimal :=
  ((List.range 17).findSome? fun i => x.ofLength? tie (i + 1)).getD x.expansion

theorem value_shortest (x : Binary f) (tie : Tie) : (x.shortest tie).value = (x.found tie).value :=
  (x.found tie).value_strip

theorem found_cases (x : Binary f) (tie : Tie) : x.found tie = x.expansion ∨
    ∃ count, x.ofLength? tie (count + 1) = some (x.found tie) := by
  unfold found
  cases hsearch : (List.range 17).findSome? fun i => x.ofLength? tie (i + 1) with
  | none => exact .inl rfl
  | some d =>
    obtain ⟨count, -, hlength⟩ := List.exists_of_findSome?_eq_some hsearch
    exact .inr ⟨count, hlength⟩

/-- The shortest digits of a number are rounded to it. -/
theorem rounds_shortest {x : Binary f} (hx : x.isFinite) (tie : Tie) :
    f.Rounds (x.shortest tie).value x.word := by
  rw [value_shortest]
  rcases x.found_cases tie with hexact | ⟨count, hlength⟩
  · rw [hexact, value_expansion]
    exact FloatFormat.rounds_magnitude (Nat.le_of_lt (of_decide_eq_true hx))
  · have hword : (x.found tie).toWord f = x.word := eq_of_beq (readsBack_of_ofLength? hlength)
    rw [← hword]
    exact (x.found tie).rounds_toWord f

/-! ## How many digits -/

/-- What is selected has the wanted number of digits at most, or is the next power of ten. -/
theorem ofLength?_cases {x : Binary f} {tie : Tie} {count : Nat} {d : Decimal}
    (h : x.ofLength? tie count = some d) : ∃ cut, cut = decimalLength x.expansion.digits - count ∧
      d.exponent = x.expansion.exponent + cut ∧
      (d.digits = x.expansion.digits / 10 ^ cut ∨ d.digits = x.expansion.digits / 10 ^ cut + 1) := by
  refine ⟨_, rfl, ?_⟩
  unfold ofLength? at h
  dsimp only at h
  split at h
  · rw [← Option.some.inj h]
    split_ifs
    · exact ⟨rfl, .inr rfl⟩
    · exact ⟨rfl, .inl rfl⟩
  · rw [← Option.some.inj h]
    exact ⟨rfl, .inl rfl⟩
  · rw [← Option.some.inj h]
    exact ⟨rfl, .inr rfl⟩
  · cases h

theorem digits_le_of_ofLength? {x : Binary f} {tie : Tie} {count : Nat} {d : Decimal}
    (h : x.ofLength? tie count = some d) : d.digits ≤ 10 ^ count := by
  obtain ⟨cut, hcut, -, hdigits⟩ := ofLength?_cases h
  have hlt : x.expansion.digits / 10 ^ cut < 10 ^ count := by
    rw [Nat.div_lt_iff_lt_mul (Nat.pow_pos (by decide)), ← Nat.pow_add]
    exact (Decimal.lt_ten_pow_decimalLength _).trans_le (Nat.pow_le_pow_right (by decide) (by omega))
  rcases hdigits with hdigits | hdigits <;> omega

/-- If there are digits enough, the exact value is selected. -/
theorem ofLength?_of_length_le {x : Binary f} (hx : x.isFinite) {tie : Tie} {count : Nat}
    (h : decimalLength x.expansion.digits ≤ count) : x.ofLength? tie count = some x.expansion := by
  have hexact : x.readsBack x.expansion = true := by
    refine beq_iff_eq.mpr ((x.expansion.rounds_toWord f).unique ?_)
    rw [value_expansion]
    exact FloatFormat.rounds_magnitude (Nat.le_of_lt (of_decide_eq_true hx))
  have hcut : decimalLength x.expansion.digits - count = 0 := Nat.sub_eq_zero_of_le h
  unfold ofLength?
  simp only [hcut, Nat.pow_eq, Nat.pow_zero, Nat.div_one, Nat.mod_one, Nat.cast_zero, add_zero, hexact]
  cases x.readsBack ⟨x.expansion.digits + 1, x.expansion.exponent⟩ <;> rfl

/-- Digits that are cut off are less than one of the last place that is kept. -/
theorem abs_cut_sub_le {kept exact cut : Nat} (h : kept = exact / 10 ^ cut ∨ kept = exact / 10 ^ cut + 1) :
    |(kept * 10 ^ cut - exact : ℚ)| ≤ 10 ^ cut := by
  have hsplit : (10 ^ cut * (exact / 10 ^ cut : Nat) + (exact % 10 ^ cut : Nat) : ℚ) = exact := by
    exact_mod_cast Nat.div_add_mod exact (10 ^ cut)
  have hrest : ((exact % 10 ^ cut : Nat) : ℚ) < 10 ^ cut := by
    exact_mod_cast Nat.mod_lt exact (Nat.pow_pos (show 0 < 10 by decide))
  have hrest' : (0 : ℚ) ≤ (exact % 10 ^ cut : Nat) := Nat.cast_nonneg _
  rw [abs_le]
  rcases h with rfl | rfl
  · constructor <;> linarith
  · rw [Nat.cast_succ]
    constructor <;> linarith

/-- What is selected is as near to the number as its count of digits allows. -/
theorem abs_sub_le_of_ofLength? {x : Binary f} (hx : x.isFinite) (hne : x.word ≠ 0) {tie : Tie}
    {count : Nat} {d : Decimal} (h : x.ofLength? tie (count + 1) = some d) :
    |d.value - f.magnitude x.word| ≤ f.magnitude x.word / 10 ^ count := by
  have hpos := f.magnitude_pos hne
  rcases Nat.lt_or_ge (decimalLength x.expansion.digits) (count + 1) with hlt | hge
  · obtain rfl : x.expansion = d := Option.some.inj ((ofLength?_of_length_le hx hlt.le).symm.trans h)
    rw [value_expansion, sub_self, abs_zero]
    positivity
  · obtain ⟨cut, hcut, hexponent, hdigits⟩ := ofLength?_cases h
    rw [← value_expansion] at hpos ⊢
    generalize x.expansion = exact at *
    have hzero : exact.digits ≠ 0 := by
      intro hzero
      rw [Decimal.value, hzero, Nat.cast_zero, zero_mul] at hpos
      exact lt_irrefl _ hpos
    have hoff := abs_cut_sub_le hdigits
    have hplace : (10 ^ cut * 10 ^ count : ℚ) ≤ exact.digits := by
      have hle := Decimal.ten_pow_decimalLength_le hzero
      rw [show decimalLength exact.digits - 1 = cut + count by omega, Nat.pow_add] at hle
      exact_mod_cast hle
    have hvalue : d.value - exact.value = (d.digits * 10 ^ cut - exact.digits) * 10 ^ exact.exponent := by
      unfold Decimal.value
      rw [hexponent, zpow_add₀ (by norm_num), zpow_natCast]
      ring
    have hunit : (0 : ℚ) < 10 ^ exact.exponent := by positivity
    rw [hvalue, abs_mul, abs_of_pos hunit, le_div_iff₀ (by positivity)]
    calc |(d.digits * 10 ^ cut - exact.digits : ℚ)| * 10 ^ exact.exponent * 10 ^ count
        ≤ 10 ^ cut * 10 ^ exact.exponent * 10 ^ count := by gcongr
      _ = 10 ^ cut * 10 ^ count * 10 ^ exact.exponent := by ring
      _ ≤ exact.digits * 10 ^ exact.exponent := by gcongr

/-- The shortest digits of a number are eight at most, or very near to it. -/
theorem shortest_near_or_few {x : Binary f} (hx : x.isFinite) (hne : x.word ≠ 0) (tie : Tie) :
    |(x.shortest tie).value - f.magnitude x.word| ≤ f.magnitude x.word / 10 ^ 8 ∨
      ∃ (n : Nat) (k : Int), n ≤ 10 ^ 8 ∧ (x.shortest tie).value = n * 10 ^ k := by
  have hnonneg := f.magnitude_nonneg x.word
  rw [value_shortest]
  rcases x.found_cases tie with hexact | ⟨count, hlength⟩
  · rw [hexact, value_expansion, sub_self, abs_zero]
    exact .inl (by positivity)
  · rcases Nat.lt_or_ge count 8 with hfew | hmany
    · refine .inr ⟨_, _, (digits_le_of_ofLength? hlength).trans ?_, rfl⟩
      exact Nat.pow_le_pow_right (by decide) hfew
    · refine .inl ((abs_sub_le_of_ofLength? hx hne hlength).trans ?_)
      gcongr
      norm_num

end Binary

end Gridcall
