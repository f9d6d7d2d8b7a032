import Gridcall.Number.Decimal
import Gridcall.Proofs.Number.Neighbours

/-!
# Decimals of eight digits next to midpoints

The midpoints between single precision numbers are the odd numbers of 25 bits, times powers of two; the
lowest ones have fewer bits. Decimals of eight digits that come as near to one as the rounding error of
a double, and are not equal to it, are listed here.

* `nearMidpoints` : the list;
* `mem_nearMidpoints` : it is complete. For each power of two and each power of ten, a decimal near to a
  midpoint is a fraction near to the ratio of the powers, so it is a multiple of one of two fractions
  around that ratio, and of these there are few enough to look at them all (`nearListed_of_lt`).
-/

namespace Gridcall

/-- The decimals of eight digits that are very near to a midpoint between two single precision numbers. -/
def nearMidpoints : List Decimal :=
  [⟨93137999, -40⟩, ⟨93503233, -37⟩, ⟨82381273, -35⟩, ⟨35192655, -33⟩, ⟨70385310, -33⟩,
   ⟨14077062, -32⟩, ⟨28154124, -32⟩, ⟨56308248, -32⟩, ⟨25645849, -15⟩, ⟨51291698, -15⟩,
   ⟨28874659, 15⟩, ⟨57749318, 15⟩, ⟨60991247, 18⟩, ⟨41358803, 27⟩, ⟨82717606, 27⟩]

/-- The least number of units in a midpoint: of full width, except among the lowest numbers. -/
def leastOdd (s : Nat) : Nat := if s = 0 then 1 else 2 ^ 24

/-- Whether no multiple `t * p / (t * q)` of a fraction is a decimal near to a midpoint that is not
listed. Its distance to the ratio with numerator `num` is `error`: it is none, or too far, or the
multiples have too many digits or are even, or there is one multiple and it is listed or too small. -/
def multiplesListed (num s j p q error : Nat) : Bool :=
  error == 0 || q * num < 2 ^ 53 * error || 10 ^ 8 ≤ p || q % 2 == 0 ||
    ((2 ^ 25 ≤ 3 * q || 10 ^ 8 ≤ 3 * p) &&
      (p < 10 ^ 7 || q < leastOdd s || nearMidpoints.contains ⟨p, j - 53⟩))

/-- Whether all decimals with exponent `j - 53` near to a midpoint of `2 ^ s / 2 ^ 150` are listed, if
`num / den` is the ratio of the two powers. Either it is too large or too small for such decimals, or
the fractions around it are looked at. -/
def nearListed (s j num den : Nat) : Bool :=
  2 * 2 ^ 25 * num < 10 ^ 7 * den || 2 * 10 ^ 8 * den < leastOdd s * num ||
    let n := Neighbours.search (2 ^ 25) num den
    decide (n.Enclose (2 ^ 25) num den) &&
      multiplesListed num s j n.low n.lowDen (n.lowDen * num - n.low * den) &&
      multiplesListed num s j n.high n.highDen (n.high * den - n.highDen * num)

theorem nearListed_of_lt {s j : Nat} (hs : s < 254) (hj : j < 85) :
    nearListed s j (2 ^ s * 10 ^ 53) (2 ^ 150 * 10 ^ j) = true := by
  have hall : ((List.range 254).all fun s => (List.range 85).all fun j =>
      nearListed s j (2 ^ s * 10 ^ 53) (2 ^ 150 * 10 ^ j)) = true := by
    decide +kernel
  exact List.all_eq_true.mp (List.all_eq_true.mp hall s (List.mem_range.mpr hs)) j
    (List.mem_range.mpr hj)

section

variable {s j m n : Nat}

/-- A decimal and a midpoint that are `t` times a fraction, in units of which they are `t * error` apart. -/
theorem mem_of_multiplesListed {num den p q error t : Nat}
    (h : multiplesListed num s j p q error = true) (hm : m < 2 ^ 25) (hodd : m % 2 = 1)
    (hleast : leastOdd s ≤ m) (hn : 10 ^ 7 ≤ n) (hn' : n < 10 ^ 8) (hp : n = t * p) (hq : m = t * q)
    (herror : |(n * den - m * num : Int)| = t * error)
    (hnear : 2 ^ 53 * |(n * den - m * num : Int)| ≤ m * num) :
    n * den = m * num ∨ (⟨n, j - 53⟩ : Decimal) ∈ nearMidpoints := by
  have ht : 0 < t := Nat.pos_of_ne_zero fun h => by
    subst h
    omega
  obtain ⟨htodd, hqodd⟩ : t % 2 = 1 ∧ q % 2 = 1 := by
    rwa [hq, ← Nat.odd_iff, Nat.odd_mul, Nat.odd_iff, Nat.odd_iff] at hodd
  have htp : p ≤ t * p := Nat.le_mul_of_pos_left p ht
  simp only [multiplesListed, Bool.or_eq_true, Bool.and_eq_true, beq_iff_eq, decide_eq_true_eq,
    List.contains_iff_mem] at h
  rcases h with (((hnone | hfar) | hlong) | heven) | ⟨hsingle, hlisted⟩
  · rw [hnone, Nat.cast_zero, mul_zero, abs_eq_zero, sub_eq_zero] at herror
    exact .inl (by exact_mod_cast herror)
  · have hlt : t * (q * num) < t * (2 ^ 53 * error) := Nat.mul_lt_mul_of_pos_left hfar ht
    rw [← Nat.mul_assoc, ← hq, Nat.mul_left_comm] at hlt
    rw [herror] at hnear
    exact absurd hlt (not_lt.mpr (by exact_mod_cast hnear))
  · omega
  · omega
  · have hone : t = 1 := by
      by_contra hne
      have hthree : 3 ≤ t := by omega
      have := Nat.mul_le_mul_right p hthree
      have := Nat.mul_le_mul_right q hthree
      omega
    subst hone
    rw [Nat.one_mul] at hp hq
    subst hp hq
    rcases hlisted with (hfew | hsmall) | hmem
    · omega
    · omega
    · exact .inr hmem

theorem mem_of_nearListed {num den : Nat} (h : nearListed s j num den = true) (hnum : 0 < num)
    (hm : m < 2 ^ 25) (hodd : m % 2 = 1) (hleast : leastOdd s ≤ m) (hn : 10 ^ 7 ≤ n) (hn' : n < 10 ^ 8)
    (hnear : 2 ^ 53 * |(n * den - m * num : Int)| ≤ m * num) :
    n * den = m * num ∨ (⟨n, j - 53⟩ : Decimal) ∈ nearMidpoints := by
  have hpos : 0 < m := by omega
  have hclose : n * den ≤ 2 * (m * num) ∧ m * num ≤ 2 * (n * den) := by
    have hle := le_abs_self (n * den - m * num : Int)
    have hge := neg_le_abs (n * den - m * num : Int)
    zify
    constructor <;> linarith
  obtain ⟨hlarge, hsmall⟩ := hclose
  have hnum' : m * num < 2 ^ 25 * num := Nat.mul_lt_mul_of_pos_right hm hnum
  have hden : 10 ^ 7 * den ≤ n * den := Nat.mul_le_mul_right den hn
  have hden' : n * den ≤ 10 ^ 8 * den := Nat.mul_le_mul_right den hn'.le
  have hleast' : leastOdd s * num ≤ m * num := Nat.mul_le_mul_right num hleast
  simp only [nearListed, Bool.or_eq_true, Bool.and_eq_true, decide_eq_true_eq] at h
  rcases h with (hout | hout) | ⟨⟨henclose, hlow⟩, hhigh⟩
  · linarith
  · linarith
  · generalize Neighbours.search (2 ^ 25) num den = f at *
    have hprecision : m * num * 2 ^ 25 < 2 ^ 53 * den := by
      have : 0 < m * num := Nat.mul_pos hpos hnum
      omega
    obtain ⟨t, ⟨hp, hq⟩ | ⟨hp, hq⟩⟩ := henclose.exists_multiple hpos hm hprecision hnear
    · refine mem_of_multiplesListed hlow hm hodd hleast hn hn' hp hq ?_ hnear
      have hnonneg : (0 : Int) ≤ t * (f.lowDen * num - f.low * den) :=
        mul_nonneg (by positivity) (sub_nonneg.mpr (by exact_mod_cast henclose.low_le))
      rw [Nat.cast_sub henclose.low_le, hp, hq, abs_sub_comm]
      push_cast
      rw [mul_assoc, mul_assoc, ← mul_sub, abs_of_nonneg hnonneg]
    · refine mem_of_multiplesListed hhigh hm hodd hleast hn hn' hp hq ?_ hnear
      have hnonneg : (0 : Int) ≤ t * (f.high * den - f.highDen * num) :=
        mul_nonneg (by positivity) (sub_nonneg.mpr (by exact_mod_cast henclose.le_high))
      rw [Nat.cast_sub henclose.le_high, hp, hq]
      push_cast
      rw [mul_assoc, mul_assoc, ← mul_sub, abs_of_nonneg hnonneg]

/-- Nearness of quotients by one unit is nearness of the numbers of units. -/
theorem near_of_div {unit : ℚ} (hunit : 0 < unit) {x y : Nat}
    (h : |(x / unit - y / unit : ℚ)| ≤ y / unit / 2 ^ 53) : 2 ^ 53 * |((x : Int) - y)| ≤ y := by
  rw [← sub_div, abs_div, abs_of_pos hunit, div_right_comm, div_le_div_iff_of_pos_right hunit,
    le_div_iff₀ (by positivity)] at h
  rw [mul_comm]
  exact_mod_cast h

/-- Near to each other is within a factor of two. -/
theorem factor_two_of_near {x y : ℚ} (hy : 0 < y) (h : |x - y| ≤ y / 2 ^ 53) : y / 2 ≤ x ∧ x ≤ 2 * y := by
  obtain ⟨hlow, hhigh⟩ := abs_le.mp h
  have hsmall : y / 2 ^ 53 ≤ y / 2 := by gcongr; norm_num
  constructor <;> linarith

/-- The powers of ten that bring eight digits near to a midpoint. -/
theorem exponent_bounds {k : Int} (hs : s < 254) (hmpos : 0 < m) (hm : m < 2 ^ 25) (hn : 10 ^ 7 ≤ n)
    (hn' : n < 10 ^ 8) (hlow : (m * 2 ^ s / 2 ^ 150 / 2 : ℚ) ≤ n * 10 ^ k)
    (hhigh : (n * 10 ^ k : ℚ) ≤ 2 * (m * 2 ^ s / 2 ^ 150)) : -54 < k ∧ k < 32 := by
  have hm₁ : (1 : ℚ) ≤ m := by exact_mod_cast hmpos
  have hm₂ : (m : ℚ) ≤ 2 ^ 25 := by exact_mod_cast hm.le
  have hn₁ : (10 ^ 7 : ℚ) ≤ n := by exact_mod_cast hn
  have hn₂ : (n : ℚ) ≤ 10 ^ 8 := by exact_mod_cast hn'.le
  constructor
  · by_contra hle
    have hpow : (10 : ℚ) ^ k ≤ 10 ^ (-54 : Int) := zpow_le_zpow_right₀ (by norm_num) (by omega)
    have hout : (10 ^ 8 * 10 ^ (-54 : Int) : ℚ) < 1 / 2 ^ 150 / 2 := by norm_num
    refine absurd hout (not_lt.mpr ?_)
    calc (1 / 2 ^ 150 / 2 : ℚ) ≤ m * 2 ^ s / 2 ^ 150 / 2 := by
          gcongr
          exact one_le_mul_of_one_le_of_one_le hm₁ (one_le_pow₀ (by norm_num))
      _ ≤ n * 10 ^ k := hlow
      _ ≤ 10 ^ 8 * 10 ^ (-54 : Int) := by gcongr
  · by_contra hge
    have hpow : (10 : ℚ) ^ (32 : Int) ≤ 10 ^ k := zpow_le_zpow_right₀ (by norm_num) (by omega)
    have hout : (2 * (2 ^ 25 * 2 ^ 253 / 2 ^ 150) : ℚ) < 10 ^ 7 * 10 ^ (32 : Int) := by norm_num
    refine absurd hout (not_lt.mpr ?_)
    calc (10 ^ 7 * 10 ^ (32 : Int) : ℚ) ≤ n * 10 ^ k := by gcongr
      _ ≤ 2 * (m * 2 ^ s / 2 ^ 150) := hhigh
      _ ≤ 2 * (2 ^ 25 * 2 ^ 253 / 2 ^ 150) := by
          gcongr
          · norm_num
          · omega

/-- **The list is complete.** A decimal of eight digits that is as near to a midpoint as a double is to
what it was rounded from is the midpoint itself or in the list. -/
theorem mem_nearMidpoints {k : Int} (hs : s < 254) (hm : m < 2 ^ 25) (hodd : m % 2 = 1)
    (hleast : leastOdd s ≤ m) (hn : 10 ^ 7 ≤ n) (hn' : n < 10 ^ 8)
    (hnear : |(n * 10 ^ k - m * 2 ^ s / 2 ^ 150 : ℚ)| ≤ m * 2 ^ s / 2 ^ 150 / 2 ^ 53) :
    (n * 10 ^ k : ℚ) = m * 2 ^ s / 2 ^ 150 ∨ (⟨n, k⟩ : Decimal) ∈ nearMidpoints := by
  have hmpos : 0 < m := by omega
  obtain ⟨hlow, hhigh⟩ := factor_two_of_near (by positivity) hnear
  obtain ⟨hk, hk'⟩ := exponent_bounds hs hmpos hm hn hn' hlow hhigh
  obtain ⟨j, hj⟩ := Int.eq_ofNat_of_zero_le (show 0 ≤ k + 53 by omega)
  obtain rfl : k = j - 53 := by omega
  have hdecimal : (n * 10 ^ ((j : Int) - 53) : ℚ) =
      (n * (2 ^ 150 * 10 ^ j) : Nat) / (2 ^ 150 * 10 ^ 53) := by
    rw [zpow_sub₀ (by norm_num), zpow_natCast, zpow_ofNat, Nat.cast_mul, Nat.cast_mul, Nat.cast_pow,
      Nat.cast_pow, mul_left_comm, Nat.cast_ofNat, Nat.cast_ofNat, mul_div_mul_left _ _ (by positivity),
      mul_div_assoc]
  have hmidpoint : (m * 2 ^ s / 2 ^ 150 : ℚ) = (m * (2 ^ s * 10 ^ 53) : Nat) / (2 ^ 150 * 10 ^ 53) := by
    rw [Nat.cast_mul, Nat.cast_mul, Nat.cast_pow, Nat.cast_pow, ← mul_assoc, Nat.cast_ofNat,
      Nat.cast_ofNat, mul_div_mul_right _ _ (by positivity)]
  rw [hdecimal, hmidpoint] at hnear
  rw [hdecimal, hmidpoint, div_left_inj' (by positivity), Nat.cast_inj]
  exact mem_of_nearListed (nearListed_of_lt hs (by omega)) (by positivity) hm hodd hleast hn hn'
    (by exact_mod_cast near_of_div (by positivity) hnear)

end

end Gridcall
