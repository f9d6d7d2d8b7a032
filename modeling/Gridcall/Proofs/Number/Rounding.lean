import Gridcall.Number.Decimal
import Gridcall.Proofs.Number.Exact

/-!
# Rounding to nearest

Words are ordered like the magnitudes they stand for, and between two neighbouring words lies a
midpoint. A quotient is rounded to a word beyond `w` if it lies beyond the midpoint behind `w`, or on
it while `w` is odd.

* `FloatFormat.magnitude`, `FloatFormat.midpoint` : the exact value of a word, and the value half way
  to the next word;
* `f.Passes w q` : `q` lies on the far side of the midpoint behind `w`;
* `f.Rounds q word` : `q` is rounded to `word`, read off the midpoints. It determines the word, keeps
  the order (`Rounds.mono`), keeps magnitudes (`rounds_magnitude`) and takes the nearest word
  (`Rounds.abs_sub_le`);
* `rounds_roundWord` : quotients are rounded so.
-/

namespace Gridcall

/-! ## Quotients -/

/-- A quotient is rounded beyond `n` if it lies beyond `n + 1/2`, or on it while `n` is odd. -/
theorem lt_roundHalfEven_iff {num den : Nat} (hden : 0 < den) (n : Nat) :
    n < roundHalfEven num den ↔
      den * (2 * n + 1) < 2 * num ∨ den * (2 * n + 1) = 2 * num ∧ n % 2 = 1 := by
  have hsplit := Nat.div_add_mod num den
  have hrem := Nat.mod_lt num hden
  simp only [roundHalfEven]
  generalize num / den = low at *
  generalize num % den = rem at *
  subst hsplit
  rcases Nat.lt_trichotomy n low with hlt | rfl | hgt
  · have hle : den * (n + 1) ≤ den * low := Nat.mul_le_mul_left den hlt
    have hbelow : den * (2 * n + 1) < 2 * (den * low + rem) := by
      rw [Nat.mul_add] at hle ⊢
      rw [Nat.mul_left_comm]
      omega
    have hlow : n < low + 1 := Nat.lt_succ_of_lt hlt
    simp only [hbelow, true_or, iff_true]
    split_ifs <;> omega
  · have hhalf : den * (2 * n + 1) = 2 * (den * n) + den := by ring
    rw [hhalf]
    split_ifs <;> omega
  · have hle : den * (low + 1) ≤ den * n := Nat.mul_le_mul_left den hgt
    have hhalf : den * (2 * n + 1) = 2 * (den * n) + den := by ring
    rw [Nat.mul_add] at hle
    rw [hhalf]
    split_ifs <;> omega

theorem roundHalfEven_le {num den n : Nat} (hden : 0 < den) (h : num ≤ den * n) :
    roundHalfEven num den ≤ n := by
  by_contra hgt
  have hround := (lt_roundHalfEven_iff hden n).mp (Nat.lt_of_not_le hgt)
  have hhalf : den * (2 * n + 1) = 2 * (den * n) + den := by ring
  omega

theorem le_roundHalfEven {num den n : Nat} (hden : 0 < den) (h : den * n ≤ num) :
    n ≤ roundHalfEven num den := by
  cases n with
  | zero => exact Nat.zero_le _
  | succ n =>
    refine Nat.succ_le_of_lt ((lt_roundHalfEven_iff hden n).mpr (.inl ?_))
    have hhalf : den * (2 * n + 1) + den = 2 * (den * (n + 1)) := by ring
    omega

namespace FloatFormat

variable {f : FloatFormat}

/-! ## Words in order -/

/-- Above a shift all words with significands of full width are spaced alike, the word that ends the
stretch included. Without a shift the smaller ones are spaced so too. -/
theorem unitsOf_stretch (shift : Nat) {m : Nat} (hlow : shift = 0 ∨ 2 ^ f.fractionBits ≤ m)
    (hhigh : m ≤ 2 ^ (f.fractionBits + 1)) :
    f.unitsOf (shift * 2 ^ f.fractionBits + m) = m * 2 ^ shift := by
  have hpow : 2 ^ (f.fractionBits + 1) = 2 ^ f.fractionBits * 2 := Nat.pow_succ ..
  rcases Nat.lt_or_ge m (2 ^ f.fractionBits) with hlt | hge
  · obtain rfl : shift = 0 := by omega
    rw [Nat.zero_mul, Nat.zero_add, unitsOf_subnormal hlt, Nat.pow_zero, Nat.mul_one]
  · obtain ⟨fraction, rfl⟩ := Nat.exists_eq_add_of_le hge
    rcases Nat.lt_or_ge fraction (2 ^ f.fractionBits) with hlt | hge
    · rw [← f.unitsOf_normal shift hlt, Nat.add_mul, Nat.one_mul, Nat.add_assoc]
    · obtain rfl : fraction = 2 ^ f.fractionBits := by omega
      have hword : shift * 2 ^ f.fractionBits + (2 ^ f.fractionBits + 2 ^ f.fractionBits) =
          (shift + 1 + 1) * 2 ^ f.fractionBits + 0 := by ring
      rw [hword, f.unitsOf_normal (shift + 1) (Nat.two_pow_pos _)]
      ring

/-- Every word is a significand above a shift. -/
theorem exists_stretch (f : FloatFormat) (w : Nat) : ∃ shift m, w = shift * 2 ^ f.fractionBits + m ∧
    (shift = 0 ∨ 2 ^ f.fractionBits ≤ m) ∧ m < 2 ^ (f.fractionBits + 1) := by
  have hpow : 2 ^ (f.fractionBits + 1) = 2 ^ f.fractionBits * 2 := Nat.pow_succ ..
  rcases f.word_cases w with hlt | ⟨shift, fraction, hfraction, rfl⟩
  · exact ⟨0, w, by simp, .inl rfl, by omega⟩
  · refine ⟨shift, 2 ^ f.fractionBits + fraction, by ring, .inr (Nat.le_add_right _ _), by omega⟩

theorem unitsOf_strictMono (f : FloatFormat) : StrictMono f.unitsOf := by
  refine strictMono_nat_of_lt_succ fun w => ?_
  obtain ⟨shift, m, rfl, hlow, hhigh⟩ := f.exists_stretch w
  rw [Nat.add_assoc, unitsOf_stretch shift hlow (Nat.le_of_lt hhigh),
    unitsOf_stretch shift (hlow.imp_right Nat.le_succ_of_le) hhigh]
  exact Nat.mul_lt_mul_of_pos_right (Nat.lt_succ_self m) (Nat.two_pow_pos shift)

/-- The shift of a quotient is the least one above which it is a significand: its bounds, multiplied out. -/
theorem shift_bounds (num : Nat) {den : Nat} (hden : 0 < den) (p : Nat) :
    ((num / den).log2 - p = 0 ∨ den * 2 ^ ((num / den).log2 - p) * 2 ^ p ≤ num) ∧
      num < den * 2 ^ ((num / den).log2 - p) * (2 * 2 ^ p) := by
  constructor
  · refine or_iff_not_imp_left.mpr fun hshift => ?_
    have hne : num / den ≠ 0 := by
      intro hzero
      rw [hzero, Nat.log2_zero] at hshift
      exact hshift (Nat.zero_sub p)
    have hpow : 2 ^ ((num / den).log2 - p) * 2 ^ p = 2 ^ (num / den).log2 := by
      rw [← Nat.pow_add, Nat.sub_add_cancel (by omega)]
    calc den * 2 ^ ((num / den).log2 - p) * 2 ^ p = den * 2 ^ (num / den).log2 := by
          rw [Nat.mul_assoc, hpow]
      _ ≤ den * (num / den) := Nat.mul_le_mul_left den (Nat.log2_self_le hne)
      _ ≤ num := Nat.mul_div_le num den
  · have hpow : 2 ^ ((num / den).log2 - p) * (2 * 2 ^ p) = 2 ^ ((num / den).log2 - p + (p + 1)) := by
      rw [Nat.pow_add, Nat.pow_succ']
    rw [Nat.mul_assoc, hpow, Nat.mul_comm, ← Nat.div_lt_iff_lt_mul hden]
    exact Nat.lt_of_lt_of_le Nat.lt_log2_self (Nat.pow_le_pow_right (by decide) (by omega))

/-- Two neighbouring words before the stretch above a shift, -/
theorem unitsOf_add_lt (shift : Nat) {w : Nat} (h : w < shift * 2 ^ f.fractionBits + 2 ^ f.fractionBits) :
    f.unitsOf w + f.unitsOf (w + 1) < 2 * (2 ^ f.fractionBits * 2 ^ shift) := by
  have hnext := f.unitsOf_strictMono.monotone (Nat.add_one_le_iff.mpr h)
  rw [unitsOf_stretch shift (.inr (Nat.le_refl _)) (Nat.pow_le_pow_right (by decide) (by omega))] at hnext
  have hstrict := f.unitsOf_strictMono (Nat.lt_add_one w)
  omega

/-- and two behind it. -/
theorem lt_unitsOf_add (shift : Nat) {w : Nat}
    (h : shift * 2 ^ f.fractionBits + 2 ^ (f.fractionBits + 1) ≤ w) :
    2 * (2 ^ (f.fractionBits + 1) * 2 ^ shift) < f.unitsOf w + f.unitsOf (w + 1) := by
  have hprev := f.unitsOf_strictMono.monotone h
  rw [unitsOf_stretch shift (.inr (Nat.pow_le_pow_right (by decide) (by omega))) (Nat.le_refl _)] at hprev
  have hstrict := f.unitsOf_strictMono (Nat.lt_add_one w)
  omega

/-- Beyond the midpoint behind a word, or on it while the word is odd. All is counted in least positive
numbers, and multiplied by twice the denominator. -/
theorem lt_roundWord_iff_units {num den : Nat} (hden : 0 < den) (w : Nat) :
    w < f.roundWord num den ↔ w < f.infinityWord ∧
      (den * (f.unitsOf w + f.unitsOf (w + 1)) < 2 * (num * f.scale) ∨
        den * (f.unitsOf w + f.unitsOf (w + 1)) = 2 * (num * f.scale) ∧ w % 2 = 1) := by
  obtain ⟨hlow, hhigh⟩ := shift_bounds (num * f.scale) hden f.fractionBits
  simp only [roundWord, Nat.pow_eq, lt_min_iff, and_congr_right_iff]
  intro _
  generalize num * f.scale = units at *
  generalize (units / den).log2 - f.fractionBits = shift at *
  have hstep : 0 < den * 2 ^ shift := Nat.mul_pos hden (Nat.two_pow_pos _)
  have hpow : 2 ^ (f.fractionBits + 1) = 2 * 2 ^ f.fractionBits := Nat.pow_succ' ..
  by_cases hbefore : shift ≠ 0 ∧ w < shift * 2 ^ f.fractionBits + 2 ^ f.fractionBits
  · -- words before the stretch of the quotient
    have hquotient := hlow.resolve_left hbefore.1
    have hle := le_roundHalfEven hstep hquotient
    refine iff_of_true (by omega) (.inl ?_)
    calc den * (f.unitsOf w + f.unitsOf (w + 1)) < den * (2 * (2 ^ f.fractionBits * 2 ^ shift)) :=
          Nat.mul_lt_mul_of_pos_left (unitsOf_add_lt shift hbefore.2) hden
      _ = 2 * (den * 2 ^ shift * 2 ^ f.fractionBits) := by ring
      _ ≤ 2 * units := Nat.mul_le_mul_left 2 hquotient
  by_cases hbehind : shift * 2 ^ f.fractionBits + 2 ^ (f.fractionBits + 1) ≤ w
  · -- words behind it
    have hle := roundHalfEven_le hstep hhigh.le
    have hbeyond : 2 * units < den * (f.unitsOf w + f.unitsOf (w + 1)) := by
      calc 2 * units < 2 * (den * 2 ^ shift * (2 * 2 ^ f.fractionBits)) := by omega
        _ = den * (2 * (2 ^ (f.fractionBits + 1) * 2 ^ shift)) := by rw [hpow]; ring
        _ ≤ den * (f.unitsOf w + f.unitsOf (w + 1)) :=
          Nat.mul_le_mul_left den (lt_unitsOf_add shift hbehind).le
    refine iff_of_false ?_ ?_ <;> omega
  · -- words in it, where neighbours differ by one step
    obtain ⟨m, rfl, hm, hm'⟩ : ∃ m, w = shift * 2 ^ f.fractionBits + m ∧
        (shift = 0 ∨ 2 ^ f.fractionBits ≤ m) ∧ m < 2 ^ (f.fractionBits + 1) := by
      rcases Nat.eq_zero_or_pos shift with rfl | hpos
      · exact ⟨w, by simp, .inl rfl, by omega⟩
      · exact ⟨w - shift * 2 ^ f.fractionBits, by omega, .inr (by omega), by omega⟩
    have hsum : den * (m * 2 ^ shift + (m + 1) * 2 ^ shift) = den * 2 ^ shift * (2 * m + 1) := by ring
    have heven : (shift * 2 ^ f.fractionBits + m) % 2 = m % 2 := by
      obtain ⟨k, hk⟩ := Nat.exists_eq_add_of_lt f.fractionBits_pos
      rw [hk, Nat.zero_add, Nat.pow_succ, ← Nat.mul_assoc, Nat.mul_add_mod_self_right]
    rw [Nat.add_assoc, unitsOf_stretch shift hm (Nat.le_of_lt hm'),
      unitsOf_stretch shift (hm.imp_right Nat.le_succ_of_le) hm', Nat.add_lt_add_iff_left,
      lt_roundHalfEven_iff hstep, hsum, heven]

/-! ## Midpoints -/

/-- The exact value of a word without its sign. -/
def magnitude (f : FloatFormat) (w : Nat) : ℚ := f.unitsOf w / f.scale

/-- The value half way from a word to the next. -/
def midpoint (f : FloatFormat) (w : Nat) : ℚ := (f.magnitude w + f.magnitude (w + 1)) / 2

/-- Whether a value is rounded beyond a word: it lies beyond the midpoint behind the word, or on it
while the word is odd. -/
def Passes (f : FloatFormat) (w : Nat) (q : ℚ) : Prop :=
  f.midpoint w < q ∨ f.midpoint w = q ∧ w % 2 = 1

/-- Whether a value is rounded to a word: it passes the words below, but for words beyond infinity. -/
def Rounds (f : FloatFormat) (q : ℚ) (word : Nat) : Prop :=
  ∀ w, w < word ↔ w < f.infinityWord ∧ f.Passes w q

theorem scale_pos' (f : FloatFormat) : (0 : ℚ) < f.scale := Nat.cast_pos.mpr f.scale_pos

theorem magnitude_strictMono (f : FloatFormat) : StrictMono f.magnitude := fun _ _ h =>
  div_lt_div_of_pos_right (Nat.cast_lt.mpr (f.unitsOf_strictMono h)) f.scale_pos'

theorem magnitude_nonneg (f : FloatFormat) (w : Nat) : 0 ≤ f.magnitude w :=
  div_nonneg (Nat.cast_nonneg _) (Nat.cast_nonneg _)

theorem magnitude_pos (f : FloatFormat) {w : Nat} (h : w ≠ 0) : 0 < f.magnitude w :=
  (f.magnitude_nonneg 0).trans_lt (f.magnitude_strictMono (Nat.pos_of_ne_zero h))

/-- From this exponent field on all magnitudes are whole. -/
theorem magnitude_whole (f : FloatFormat) (k : Nat) {fraction : Nat} (h : fraction < 2 ^ f.fractionBits) :
    f.magnitude ((f.unitExponent + k + 1) * 2 ^ f.fractionBits + fraction) =
      (2 ^ f.fractionBits + fraction) * 2 ^ k := by
  unfold magnitude
  rw [f.unitsOf_normal (f.unitExponent + k) h, div_eq_iff f.scale_pos'.ne', scale_eq, pow_add]
  push_cast
  ring

theorem magnitude_lt_midpoint (f : FloatFormat) (w : Nat) : f.magnitude w < f.midpoint w := by
  have h := f.magnitude_strictMono (Nat.lt_add_one w)
  unfold midpoint
  linarith

theorem midpoint_lt_magnitude (f : FloatFormat) (w : Nat) : f.midpoint w < f.magnitude (w + 1) := by
  have h := f.magnitude_strictMono (Nat.lt_add_one w)
  unfold midpoint
  linarith

theorem midpoint_strictMono (f : FloatFormat) : StrictMono f.midpoint := fun _ _ h =>
  (f.midpoint_lt_magnitude _).trans_le ((f.magnitude_strictMono.monotone h).trans
    (f.magnitude_lt_midpoint _).le)

theorem Passes.midpoint_le {w : Nat} {q : ℚ} (h : f.Passes w q) : f.midpoint w ≤ q := by
  rcases h with h | ⟨h, -⟩
  · exact h.le
  · exact h.le

theorem Passes.mono {w : Nat} {q q' : ℚ} (h : f.Passes w q) (hq : q ≤ q') : f.Passes w q' := by
  rcases h with h | ⟨h, hodd⟩
  · exact .inl (h.trans_le hq)
  · exact (h.trans_le hq).lt_or_eq.imp id fun h => ⟨h, hodd⟩

theorem Passes.of_lt {v w : Nat} {q : ℚ} (h : f.Passes w q) (hv : v < w) : f.Passes v q :=
  .inl ((f.midpoint_strictMono hv).trans_le h.midpoint_le)

namespace Rounds

variable {q q' : ℚ} {word word' : Nat}

theorem le_infinityWord (h : f.Rounds q word) : word ≤ f.infinityWord := by
  by_contra hlt
  exact Nat.lt_irrefl _ ((h f.infinityWord).mp (Nat.lt_of_not_le hlt)).1

theorem mono (h : f.Rounds q word) (h' : f.Rounds q' word') (hq : q ≤ q') : word ≤ word' := by
  by_contra hlt
  obtain ⟨hfinite, hpasses⟩ := (h word').mp (Nat.lt_of_not_le hlt)
  exact Nat.lt_irrefl _ ((h' word').mpr ⟨hfinite, hpasses.mono hq⟩)

theorem unique (h : f.Rounds q word) (h' : f.Rounds q word') : word = word' :=
  Nat.le_antisymm (h.mono h' le_rfl) (h'.mono h le_rfl)

theorem passes (h : f.Rounds q (word + 1)) : f.Passes word q :=
  ((h word).mp (Nat.lt_add_one word)).2

theorem not_passes (h : f.Rounds q word) (hfinite : word < f.infinityWord) : ¬ f.Passes word q :=
  fun hpasses => Nat.lt_irrefl _ ((h word).mpr ⟨hfinite, hpasses⟩)

theorem le_midpoint (h : f.Rounds q word) (hfinite : word < f.infinityWord) : q ≤ f.midpoint word :=
  le_of_not_gt fun hlt => h.not_passes hfinite (.inl hlt)

end Rounds

/-- A value between the midpoints around a word is rounded to it. -/
theorem rounds_of_passes {q : ℚ} {word : Nat} (hle : word ≤ f.infinityWord)
    (hbelow : ∀ w, word = w + 1 → f.Passes w q)
    (habove : word < f.infinityWord → ¬ f.Passes word q) : f.Rounds q word := by
  intro w
  constructor
  · intro hlt
    refine ⟨Nat.lt_of_lt_of_le hlt hle, ?_⟩
    obtain ⟨v, rfl⟩ := Nat.exists_eq_add_of_lt (Nat.lt_of_le_of_lt (Nat.zero_le w) hlt)
    have hlast := hbelow (0 + v) rfl
    rcases Nat.lt_or_eq_of_le (Nat.le_of_lt_succ hlt) with hlt | rfl
    · exact hlast.of_lt hlt
    · exact hlast
  · rintro ⟨hfinite, hpasses⟩
    by_contra hle
    rcases Nat.lt_or_eq_of_le (Nat.le_of_not_lt hle) with hlt | rfl
    · exact habove (Nat.lt_trans hlt hfinite) (hpasses.of_lt hlt)
    · exact habove hfinite hpasses

/-- The magnitude of a word is rounded to it. -/
theorem rounds_magnitude {word : Nat} (hle : word ≤ f.infinityWord) :
    f.Rounds (f.magnitude word) word := by
  refine rounds_of_passes hle ?_ fun _ hpasses => ?_
  · rintro w rfl
    exact .inl (f.midpoint_lt_magnitude w)
  · exact (f.magnitude_lt_midpoint word).not_ge hpasses.midpoint_le

/-- No finite word is nearer to a value than the one that it is rounded to. -/
theorem Rounds.abs_sub_le {q : ℚ} {word : Nat} (h : f.Rounds q word) (hfinite : word < f.infinityWord)
    (w : Nat) : |f.magnitude word - q| ≤ |f.magnitude w - q| := by
  rcases Nat.lt_trichotomy w word with hlt | rfl | hgt
  · obtain ⟨v, rfl⟩ := Nat.exists_eq_add_of_lt (Nat.lt_of_le_of_lt (Nat.zero_le w) hlt)
    rw [Nat.zero_add] at *
    -- `w` is at most the word before, and the midpoint lies between that one and the value
    have hmid := h.passes.midpoint_le
    have hw := f.magnitude_strictMono.monotone (Nat.le_of_lt_succ hlt)
    have hstep := f.magnitude_strictMono (Nat.lt_add_one v)
    unfold midpoint at hmid
    rw [abs_sub_comm (f.magnitude w), abs_of_nonneg (show 0 ≤ q - f.magnitude w by linarith), abs_le]
    constructor <;> linarith
  · exact le_rfl
  · have hmid := h.le_midpoint hfinite
    have hw := f.magnitude_strictMono.monotone (Nat.succ_le_of_lt hgt)
    have hstep := f.magnitude_strictMono (Nat.lt_add_one word)
    unfold midpoint at hmid
    rw [Nat.succ_eq_add_one] at hw
    rw [abs_of_nonneg (show 0 ≤ f.magnitude w - q by linarith), abs_le]
    constructor <;> linarith

theorem rounds_roundWord (f : FloatFormat) (num : Nat) {den : Nat} (hden : 0 < den) :
    f.Rounds (num / den) (f.roundWord num den) := by
  intro w
  rw [lt_roundWord_iff_units hden, and_congr_right_iff]
  intro _
  have hden' : (0 : ℚ) < den := Nat.cast_pos.mpr hden
  have hscale := f.scale_pos'
  have htwice : (0 : ℚ) < (2 * f.scale : Nat) := by
    push_cast
    positivity
  have hmid : f.midpoint w = ((f.unitsOf w + f.unitsOf (w + 1) : Nat) : ℚ) / (2 * f.scale : Nat) := by
    unfold midpoint magnitude
    push_cast
    field_simp
  unfold Passes
  rw [hmid, div_lt_div_iff₀ htwice hden', div_eq_div_iff htwice.ne' hden'.ne']
  have hcomm : den * (f.unitsOf w + f.unitsOf (w + 1)) = (f.unitsOf w + f.unitsOf (w + 1)) * den :=
    Nat.mul_comm ..
  have hcomm' : 2 * (num * f.scale) = num * (2 * f.scale) := by ring
  rw [hcomm, hcomm']
  norm_cast

end FloatFormat

/-! ## Conversion to another format -/

namespace Binary

variable {f g : FloatFormat}

def value (x : Binary f) : ℚ := if x.negative then -f.magnitude x.word else f.magnitude x.word

theorem abs_value (x : Binary f) : |x.value| = f.magnitude x.word := by
  unfold value
  split_ifs
  · rw [abs_neg, abs_of_nonneg (f.magnitude_nonneg _)]
  · rw [abs_of_nonneg (f.magnitude_nonneg _)]

theorem negative_convert {x : Binary f} (hx : x.isFinite) :
    (x.convert : Binary g).negative = x.negative := by
  rw [convert_of_isFinite hx]
  rfl

theorem rounds_convert {x : Binary f} (hx : x.isFinite) :
    g.Rounds (f.magnitude x.word) (x.convert : Binary g).word := by
  rw [convert_of_isFinite hx]
  exact g.rounds_roundWord x.units f.scale_pos

/-- No finite number is nearer to a number than the one that it is converted to. -/
theorem abs_value_convert_sub_le {x : Binary f} (hx : x.isFinite)
    (hfinite : (x.convert : Binary g).isFinite) (z : Binary g) :
    |(x.convert : Binary g).value - x.value| ≤ |z.value - x.value| := by
  have hsame : |(x.convert : Binary g).value - x.value| =
      |g.magnitude (x.convert : Binary g).word - f.magnitude x.word| := by
    unfold value
    rw [negative_convert hx]
    split_ifs
    · rw [← abs_neg]
      ring_nf
    · rfl
  calc |(x.convert : Binary g).value - x.value|
      = |g.magnitude (x.convert : Binary g).word - f.magnitude x.word| := hsame
    _ ≤ |g.magnitude z.word - f.magnitude x.word| :=
        (rounds_convert hx).abs_sub_le (of_decide_eq_true hfinite) z.word
    _ = |(|z.value| - |x.value|)| := by rw [abs_value, abs_value]
    _ ≤ |z.value - x.value| := abs_abs_sub_abs_le _ _

end Binary

end Gridcall
