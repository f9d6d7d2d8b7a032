import Gridcall.Proofs.Number.ShortDecimals
import Gridcall.Proofs.Number.Spelling

/-!
# Rounding twice

A value that is rounded to a double first and then to single precision comes out as if it had been
rounded once, unless the double is a midpoint between single precision numbers that the value itself
is not. So it comes out with the text of a single precision number, which is read as a double: where its
digits are many they are too near to the number for that, and where they are few they are one of the
decimals in `nearMidpoints`.

* `FloatFormat.exists_double_midpoint` : the midpoints between single precision numbers are doubles;
* `FloatFormat.Rounds.eq_or_midpoint` : the two roundings agree with one, or the double is a midpoint;
* `Binary.exists_nearMidpoint` : then the digits are in the list;
* `Binary.throughText_eq` : what the text of a finite number is read as.
-/

namespace Gridcall

namespace FloatFormat

variable {f : FloatFormat}

/-! ## Spacing -/

theorem magnitude_stretch (f : FloatFormat) (shift : Nat) {m : Nat}
    (hlow : shift = 0 ∨ 2 ^ f.fractionBits ≤ m) (hhigh : m ≤ 2 ^ (f.fractionBits + 1)) :
    f.magnitude (shift * 2 ^ f.fractionBits + m) = m * 2 ^ shift / f.scale := by
  unfold magnitude
  rw [unitsOf_stretch shift hlow hhigh]
  push_cast
  rfl

theorem midpoint_stretch (f : FloatFormat) (shift : Nat) {m : Nat}
    (hlow : shift = 0 ∨ 2 ^ f.fractionBits ≤ m) (hhigh : m < 2 ^ (f.fractionBits + 1)) :
    f.midpoint (shift * 2 ^ f.fractionBits + m) = (2 * m + 1 : Nat) * 2 ^ shift / (2 * f.scale) := by
  rw [midpoint, f.magnitude_stretch shift hlow hhigh.le, Nat.add_assoc,
    f.magnitude_stretch shift (hlow.imp_right Nat.le_succ_of_le) hhigh]
  have := f.scale_pos'
  push_cast
  field_simp
  ring

theorem magnitude_succ_sub (f : FloatFormat) (shift : Nat) {m : Nat}
    (hlow : shift = 0 ∨ 2 ^ f.fractionBits ≤ m) (hhigh : m < 2 ^ (f.fractionBits + 1)) :
    f.magnitude (shift * 2 ^ f.fractionBits + m + 1) - f.magnitude (shift * 2 ^ f.fractionBits + m) =
      2 ^ shift / f.scale := by
  rw [f.magnitude_stretch shift hlow hhigh.le, Nat.add_assoc,
    f.magnitude_stretch shift (hlow.imp_right Nat.le_succ_of_le) hhigh]
  push_cast
  ring

/-- One unit is this part of a full significand at most. -/
theorem unit_le_div (f : FloatFormat) (shift : Nat) {m : Nat} (h : 2 ^ f.fractionBits ≤ m) :
    (2 ^ shift / f.scale : ℚ) ≤ m * 2 ^ shift / f.scale / 2 ^ f.fractionBits := by
  have hm : (2 ^ f.fractionBits : ℚ) ≤ m := by exact_mod_cast h
  rw [le_div_iff₀ (by positivity), mul_comm, mul_div_assoc]
  gcongr

/-- Behind a number with a full significand the spacing is this part of it at most, -/
theorem magnitude_succ_sub_le {w : Nat} (h : 2 ^ f.fractionBits ≤ w) :
    f.magnitude (w + 1) - f.magnitude w ≤ f.magnitude w / 2 ^ f.fractionBits := by
  obtain ⟨shift, m, rfl, hlow, hhigh⟩ := f.exists_stretch w
  have hm : 2 ^ f.fractionBits ≤ m := by
    rcases hlow with rfl | hm
    · omega
    · exact hm
  rw [f.magnitude_succ_sub shift hlow hhigh, f.magnitude_stretch shift hlow hhigh.le]
  exact f.unit_le_div shift hm

/-- and so it is before it. -/
theorem magnitude_succ_sub_le_succ {w : Nat} (h : 2 ^ f.fractionBits ≤ w + 1) :
    f.magnitude (w + 1) - f.magnitude w ≤ f.magnitude (w + 1) / 2 ^ f.fractionBits := by
  obtain ⟨shift, m, rfl, hlow, hhigh⟩ := f.exists_stretch w
  have hm : 2 ^ f.fractionBits ≤ m + 1 := by
    rcases hlow with rfl | hm
    · omega
    · omega
  rw [f.magnitude_succ_sub shift hlow hhigh, Nat.add_assoc,
    f.magnitude_stretch shift (hlow.imp_right Nat.le_succ_of_le) hhigh]
  exact f.unit_le_div shift hm

/-- The relative error of rounding. -/
theorem Rounds.abs_sub_le_div {q : ℚ} {word : Nat} (h : f.Rounds q word) (hfinite : word < f.infinityWord)
    (hnormal : 2 ^ f.fractionBits ≤ word) :
    |q - f.magnitude word| ≤ f.magnitude word / 2 ^ (f.fractionBits + 1) := by
  have hhalf : f.magnitude word / 2 ^ (f.fractionBits + 1) = f.magnitude word / 2 ^ f.fractionBits / 2 := by
    rw [pow_succ, div_div]
  rw [hhalf, abs_le]
  have habove := h.le_midpoint hfinite
  have hbehind := magnitude_succ_sub_le hnormal
  have hpos := (Nat.two_pow_pos f.fractionBits).trans_le hnormal
  obtain ⟨v, rfl⟩ : ∃ v, word = v + 1 := Nat.exists_eq_succ_of_ne_zero hpos.ne'
  have hbelow := h.passes.midpoint_le
  have hbefore := magnitude_succ_sub_le_succ hnormal
  unfold midpoint at habove hbelow
  constructor <;> linarith

/-! ## Midpoints as doubles -/

theorem shift_lt_of_lt_infinityWord {shift m : Nat}
    (h : shift * 2 ^ single.fractionBits + m < single.infinityWord)
    (hlow : shift = 0 ∨ 2 ^ single.fractionBits ≤ m) : shift < 254 := by
  have hword : single.infinityWord = 255 * 2 ^ single.fractionBits := rfl
  by_contra hle
  have := Nat.mul_le_mul_right (2 ^ single.fractionBits) (Nat.le_of_not_lt hle)
  omega

/-- The midpoints between single precision numbers are doubles with a full significand. -/
theorem exists_double_midpoint {w : Nat} (hw : w < single.infinityWord) :
    ∃ t < double.infinityWord, 2 ^ double.fractionBits ≤ t ∧ double.magnitude t = single.midpoint w := by
  obtain ⟨shift, m, rfl, hlow, hhigh⟩ := single.exists_stretch w
  obtain ⟨gap, hgap, hwide, hroom⟩ : ∃ gap, double.unitExponent = gap + (single.unitExponent + 1) ∧
      double.fractionBits ≤ gap ∧ 253 + gap + 3 ≤ 2 ^ double.exponentBits :=
    ⟨924, rfl, by decide, by decide⟩
  have hscale : double.scale = 2 ^ gap * (2 * single.scale) := by
    rw [double.scale_eq, hgap, Nat.pow_add, pow_succ' 2 single.unitExponent, single.scale_eq]
  have hshift := shift_lt_of_lt_infinityWord hw hlow
  have hm : 2 * m + 1 < 2 ^ (double.fractionBits + 1) := by
    change m < 2 ^ 24 at hhigh
    change 2 * m + 1 < 2 ^ 53
    omega
  obtain ⟨t, ht, hunits⟩ := double.exists_word hm (shift + gap) (by omega)
  refine ⟨t, ht, ?_, ?_⟩
  · by_contra hlt
    rw [unitsOf_subnormal (Nat.lt_of_not_le hlt)] at hunits
    refine hlt ?_
    calc 2 ^ double.fractionBits ≤ 2 ^ (shift + gap) := Nat.pow_le_pow_right (by decide) (by omega)
      _ ≤ (2 * m + 1) * 2 ^ (shift + gap) := Nat.le_mul_of_pos_left _ (Nat.succ_pos _)
      _ = t := hunits.symm
  · rw [single.midpoint_stretch shift hlow hhigh, magnitude, hunits, hscale, Nat.pow_add,
      ← Nat.mul_assoc, Nat.mul_comm (2 ^ gap), Nat.cast_mul, Nat.cast_mul, Nat.cast_mul,
      mul_div_mul_right _ _ (Nat.cast_ne_zero.mpr (Nat.two_pow_pos gap).ne')]
    push_cast
    rfl

/-! ## Two roundings -/

/-- A value that is rounded to a double first comes out as the number that it is rounded to, unless that
number is odd and the double is a midpoint next to it. -/
theorem Rounds.eq_or_midpoint {q : ℚ} {w t w' : Nat} (h : single.Rounds q w) (hw : w < single.infinityWord)
    (ht : double.Rounds q t) (h' : single.Rounds (double.magnitude t) w') :
    w' = w ∨ w % 2 = 1 ∧ ∃ u, (u = w ∨ u + 1 = w) ∧ double.magnitude t = single.midpoint u := by
  have hle : ∀ u < single.infinityWord, q ≤ single.midpoint u →
      double.magnitude t ≤ single.midpoint u := by
    intro u hu hq
    obtain ⟨v, hv, -, hmid⟩ := exists_double_midpoint hu
    rw [← hmid] at hq ⊢
    exact double.magnitude_strictMono.monotone (ht.mono (rounds_magnitude hv.le) hq)
  have hge : ∀ u < single.infinityWord, single.midpoint u ≤ q →
      single.midpoint u ≤ double.magnitude t := by
    intro u hu hq
    obtain ⟨v, hv, -, hmid⟩ := exists_double_midpoint hu
    rw [← hmid] at hq ⊢
    exact double.magnitude_strictMono.monotone ((rounds_magnitude hv.le).mono ht hq)
  by_cases hmid : w % 2 = 1 ∧ ∃ u, (u = w ∨ u + 1 = w) ∧ double.magnitude t = single.midpoint u
  · exact .inr hmid
  · refine .inl (h'.unique (rounds_of_passes hw.le ?_ fun _ hpasses => ?_))
    · rintro u rfl
      rcases (hge u (by omega) h.passes.midpoint_le).lt_or_eq with hlt | heq
      · exact .inl hlt
      · refine .inr ⟨heq, ?_⟩
        by_contra heven
        exact hmid ⟨by omega, u, .inr rfl, heq.symm⟩
    · rcases hpasses with hlt | ⟨heq, hodd⟩
      · exact hlt.not_ge (hle w hw (h.le_midpoint hw))
      · exact hmid ⟨hodd, w, .inl rfl, heq.symm⟩

/-- The value differs from such a midpoint by no more than the rounding error of a double. -/
theorem Rounds.near_midpoint {q : ℚ} {u t : Nat} (hu : u < single.infinityWord) (ht : double.Rounds q t)
    (hmid : double.magnitude t = single.midpoint u) :
    |q - single.midpoint u| ≤ single.midpoint u / 2 ^ 53 := by
  obtain ⟨v, hv, hnormal, hvmid⟩ := exists_double_midpoint hu
  obtain rfl : t = v := double.magnitude_strictMono.injective (hmid.trans hvmid.symm)
  rw [← hmid]
  exact ht.abs_sub_le_div hv hnormal

/-- And it is not the midpoint, which is rounded to the even number. -/
theorem Rounds.ne_midpoint {f : FloatFormat} {q : ℚ} {w u : Nat} (h : f.Rounds q w)
    (hw : w < f.infinityWord) (hodd : w % 2 = 1) (hu : u = w ∨ u + 1 = w) : q ≠ f.midpoint u := by
  rintro rfl
  rcases hu with rfl | rfl
  · exact h.not_passes hw (.inr ⟨rfl, hodd⟩)
  · rcases h.passes with hlt | ⟨-, hodd'⟩
    · exact lt_irrefl _ hlt
    · omega

/-! ## Short decimals -/

/-- Next to an odd number the midpoints are an odd number of units, and one unit away. -/
theorem exists_odd_midpoint {w u : Nat} (hw : w < single.infinityWord) (hodd : w % 2 = 1)
    (hu : u = w ∨ u + 1 = w) : ∃ s m, s < 254 ∧ m < 2 ^ 25 ∧ m % 2 = 1 ∧ leastOdd s ≤ m ∧
      single.midpoint u = m * 2 ^ s / 2 ^ 150 ∧
      |single.magnitude w - single.midpoint u| = 2 ^ s / 2 ^ 150 ∧
      single.magnitude w ≤ 2 ^ 25 * (2 ^ s / 2 ^ 150) := by
  obtain ⟨s, m, rfl, hlow, hhigh⟩ : ∃ s m, w = s * 2 ^ 23 + m ∧ (s = 0 ∨ 2 ^ 23 ≤ m) ∧ m < 2 ^ 24 :=
    single.exists_stretch w
  have hs : s < 254 := shift_lt_of_lt_infinityWord hw hlow
  obtain ⟨p, rfl, hp⟩ : ∃ p, u = s * 2 ^ 23 + p ∧ (p = m ∨ p + 1 = m) := by
    rcases hu with rfl | hu
    · exact ⟨m, rfl, .inl rfl⟩
    · exact ⟨m - 1, by omega, .inr (by omega)⟩
  have hlow' : s = 0 ∨ 2 ^ 23 ≤ p := by omega
  have hhigh' : p < 2 ^ 24 := by omega
  have hscale : (2 * single.scale : ℚ) = 2 ^ 150 := by
    have hpow : 2 * single.scale = 2 ^ 150 := by decide
    exact_mod_cast congrArg (Nat.cast : Nat → ℚ) hpow
  have hmagnitude : single.magnitude (s * 2 ^ 23 + m) = (2 * m : Nat) * (2 ^ s / 2 ^ 150) := by
    refine (single.magnitude_stretch s hlow hhigh.le).trans ?_
    rw [← hscale]
    have := single.scale_pos'
    push_cast
    field_simp
  have hmidpoint : single.midpoint (s * 2 ^ 23 + p) = (2 * p + 1 : Nat) * 2 ^ s / 2 ^ 150 := by
    rw [← hscale]
    exact single.midpoint_stretch s hlow' hhigh'
  have hleast : leastOdd s ≤ 2 * p + 1 := by
    unfold leastOdd
    split_ifs <;> omega
  refine ⟨s, 2 * p + 1, hs, by omega, by omega, hleast, hmidpoint, ?_, ?_⟩
  · have hone : |((2 * m : Nat) - (2 * p + 1 : Nat) : ℚ)| = 1 := by
      rcases hp with rfl | rfl
      · push_cast
        norm_num
      · push_cast
        ring_nf
        norm_num
    rw [hmagnitude, hmidpoint, mul_div_assoc, ← sub_mul, abs_mul, hone, one_mul,
      abs_of_nonneg (by positivity)]
  · rw [hmagnitude]
    gcongr
    exact_mod_cast (by omega : 2 * m ≤ 2 ^ 25)

end FloatFormat

theorem exists_eight_digits {n : Nat} (hpos : n ≠ 0) (hle : n ≤ 10 ^ 8) (k : Int) :
    ∃ (n' : Nat) (k' : Int), 10 ^ 7 ≤ n' ∧ n' < 10 ^ 8 ∧ (n * 10 ^ k : ℚ) = n' * 10 ^ k' := by
  rcases Nat.lt_or_eq_of_le hle with hlt | rfl
  · have hlow := Decimal.ten_pow_decimalLength_le hpos
    have hhigh := Decimal.lt_ten_pow_decimalLength n
    have hlength : decimalLength n ≤ 8 := (Nat.length_repr_le_iff (by decide)).mpr hlt
    have hlength' : 0 < decimalLength n := Nat.length_repr_pos
    obtain ⟨fill, hfill⟩ := Nat.exists_eq_add_of_le hlength
    refine ⟨n * 10 ^ fill, k - fill, ?_, ?_, ?_⟩
    · calc 10 ^ 7 = 10 ^ (decimalLength n - 1) * 10 ^ fill := by
            rw [← Nat.pow_add]
            congr 1
            omega
        _ ≤ n * 10 ^ fill := Nat.mul_le_mul_right _ hlow
    · calc n * 10 ^ fill < 10 ^ decimalLength n * 10 ^ fill :=
            Nat.mul_lt_mul_of_pos_right hhigh (Nat.pow_pos (by decide))
        _ = 10 ^ 8 := by rw [← Nat.pow_add, ← hfill]
    · rw [zpow_sub₀ (by norm_num), zpow_natCast]
      push_cast
      field_simp
  · refine ⟨10 ^ 7, k + 1, le_rfl, by decide, ?_⟩
    rw [zpow_add_one₀ (by norm_num)]
    push_cast
    ring

/-- If the shortest digits of an odd number are read as a double that is a midpoint next to it, they are
in the list of the decimals near to midpoints. -/
theorem Binary.exists_nearMidpoint {x : Single} (hx : x.isFinite) (hodd : x.word % 2 = 1) (tie : Tie)
    {u t : Nat} (hu : u = x.word ∨ u + 1 = x.word)
    (ht : FloatFormat.double.Rounds (x.shortest tie).value t)
    (hmid : FloatFormat.double.magnitude t = FloatFormat.single.midpoint u) :
    ∃ d ∈ nearMidpoints, d.value = (x.shortest tie).value := by
  have hword : x.word < FloatFormat.single.infinityWord := of_decide_eq_true hx
  have hrounds := rounds_shortest hx tie
  obtain ⟨s, m, hs, hm, hmodd, hleast, hvalue, hunit, hbound⟩ :=
    FloatFormat.exists_odd_midpoint hword hodd hu
  have hnear := ht.near_midpoint (by omega) hmid
  have hne := hrounds.ne_midpoint hword hodd hu
  have hmpos : (0 : ℚ) < m := by exact_mod_cast (by omega : 0 < m)
  have hpos : (0 : ℚ) < m * 2 ^ s / 2 ^ 150 := by positivity
  rw [hvalue] at hnear hne hunit
  rcases shortest_near_or_few hx (by omega) tie with hclose | ⟨n, k, hn, hdigits⟩
  · have hstep : (0 : ℚ) < 2 ^ s / 2 ^ 150 := by positivity
    generalize FloatFormat.single.magnitude x.word = v at *
    generalize (m * 2 ^ s / 2 ^ 150 : ℚ) = mid at *
    generalize (2 ^ s / 2 ^ 150 : ℚ) = step at *
    have htriangle := abs_sub_le v (x.shortest tie).value mid
    rw [hunit, abs_sub_comm v] at htriangle
    have hover := neg_abs_le (v - mid)
    linarith
  · have hn0 : n ≠ 0 := by
      rintro rfl
      have hhalf := (factor_two_of_near hpos hnear).1
      rw [hdigits, Nat.cast_zero, zero_mul] at hhalf
      linarith
    obtain ⟨n', k', hlow, hhigh, height⟩ := exists_eight_digits hn0 hn k
    rw [hdigits, height] at hnear hne ⊢
    rcases mem_nearMidpoints hs hm hmodd hleast hlow hhigh hnear with heq | hmem
    · exact absurd heq hne
    · exact ⟨⟨n', k'⟩, hmem, rfl⟩

/-! ## The way through text -/

namespace Binary

variable {f g : FloatFormat}

theorem eq_of_sign_of_word {x y : Binary f} (hsign : x.negative = y.negative) (hword : x.word = y.word) :
    x = y := by
  obtain ⟨negative, word, hlt⟩ := x
  obtain ⟨negative', word', hlt'⟩ := y
  obtain rfl : negative = negative' := hsign
  obtain rfl : word = word' := hword
  rfl

theorem toBinary_shortest (x : Binary f) (tie : Tie) (negative : Bool) :
    ((x.shortest tie).toBinary negative : Binary g) = (x.found tie).toBinary negative := by
  have hword : (x.shortest tie).toWord g = (x.found tie).toWord g :=
    Decimal.toWord_congr (x.value_shortest tie)
  simp only [Decimal.toBinary, hword]

/-- The single precision number that the text of one becomes when it is read as a double. -/
def throughText (x : Single) : Single := (x.shown.toBinary x.negative : Double).convert

theorem throughText_of_mem {d : Decimal} (hd : d ∈ nearMidpoints) (negative : Bool) :
    (((d.toBinary negative : Single).found .up).toBinary negative : Double).convert =
      if (d.toBinary negative : Single).word = 0x15AE43FD then ⟨negative, 0x15AE43FE, by decide⟩
      else (d.toBinary negative : Single) := by
  have hall : ∀ d ∈ nearMidpoints, ∀ negative,
      (((d.toBinary negative : Single).found .up).toBinary negative : Double).convert =
        if (d.toBinary negative : Single).word = 0x15AE43FD then ⟨negative, 0x15AE43FE, by decide⟩
        else (d.toBinary negative : Single) := by
    simp only [found, ofLength?, readsBack, Decimal.toBinary, Decimal.toWord, Decimal.position,
      decimalLength_eq_toDigits]
    decide +kernel
  exact hall d hd negative

/-- The text of a finite number is read as a double that rounds to it, or that is a midpoint next to it
while it is odd. -/
theorem throughText_cases {x : Single} (hx : x.isFinite) : x.throughText = x ∨
    x.word % 2 = 1 ∧ ∃ u, (u = x.word ∨ u + 1 = x.word) ∧
      FloatFormat.double.magnitude (x.shown.toWord .double) = FloatFormat.single.midpoint u := by
  have hword : x.word < FloatFormat.single.infinityWord := of_decide_eq_true hx
  have hrounds := rounds_shown hx
  have ht := x.shown.rounds_toWord .double
  have hfinite : (x.shown.toBinary x.negative : Double).isFinite := by
    obtain ⟨v, hv, -, hmid⟩ := FloatFormat.exists_double_midpoint hword
    have hle : x.shown.value ≤ FloatFormat.double.magnitude v := by
      rw [hmid]
      exact hrounds.le_midpoint hword
    exact decide_eq_true (Nat.lt_of_le_of_lt (ht.mono (FloatFormat.rounds_magnitude hv.le) hle) hv)
  have hback : FloatFormat.single.Rounds (FloatFormat.double.magnitude (x.shown.toWord .double))
      x.throughText.word := rounds_convert hfinite
  have hsign : x.throughText.negative = x.negative := negative_convert hfinite
  exact (hrounds.eq_or_midpoint hword ht hback).imp_left (eq_of_sign_of_word hsign)

theorem throughText_of_toWord {x : Single} (hzero : x.word ≠ 0) {d : Decimal} (hd : d ∈ nearMidpoints)
    (hword : d.toWord .single = x.word) : x.throughText =
      if x.word = 0x15AE43FD then ⟨x.negative, 0x15AE43FE, by decide⟩ else x := by
  have hshown : x.shown = x.shortest .up := if_neg fun h => hzero (eq_of_beq h)
  have hx : d.toBinary x.negative = x := eq_of_sign_of_word rfl hword
  have hthrough := throughText_of_mem hd x.negative
  rw [hx] at hthrough
  rw [throughText, hshown, toBinary_shortest, hthrough]

/-- The text of a finite number is read as that number, with one exception. -/
theorem throughText_eq {x : Single} (hx : x.isFinite) : x.throughText =
    if x.word = 0x15AE43FD then ⟨x.negative, 0x15AE43FE, by decide⟩ else x := by
  by_cases hword : x.word = 0x15AE43FD
  · refine throughText_of_toWord (by omega) (d := ⟨70385310, -33⟩) (by decide) ?_
    rw [hword]
    decide +kernel
  · rcases throughText_cases hx with heq | ⟨hodd, u, hu, hmid⟩
    · rw [if_neg hword, heq]
    · have hzero : x.word ≠ 0 := by omega
      have hshown : x.shown = x.shortest .up := if_neg fun h => hzero (eq_of_beq h)
      have ht := x.shown.rounds_toWord .double
      rw [hshown] at hmid ht
      obtain ⟨d, hd, hvalue⟩ := exists_nearMidpoint hx hodd .up hu ht hmid
      refine throughText_of_toWord hzero hd ((d.rounds_toWord .single).unique ?_)
      rw [hvalue]
      exact rounds_shortest hx .up

end Binary

end Gridcall
