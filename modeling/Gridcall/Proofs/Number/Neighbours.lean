import Mathlib

/-!
# Fractions around a ratio

Two fractions around a ratio that differ by one over the product of their denominators leave no room
for a fraction between them whose denominator is less than the sum of theirs. So a fraction with a
small denominator that is very near to the ratio is a multiple of one of the two.

* `Neighbours.Enclose` : the two fractions lie so around a ratio;
* `Neighbours.Enclose.exists_multiple` : what is very near to the ratio is a multiple of one of them;
* `Neighbours.search` : looks for two such fractions. Nothing is proved about it: what it finds is
  checked.
-/

namespace Gridcall

/-- Two fractions, the one below a ratio and the one above. -/
structure Neighbours where
  low : Nat
  lowDen : Nat
  high : Nat
  highDen : Nat

namespace Neighbours

/-- The fractions lie around `num / den` and next to each other, with denominators up to `limit` that
reach it together. -/
structure Enclose (n : Neighbours) (limit num den : Nat) : Prop where
  next : n.high * n.lowDen = n.low * n.highDen + 1
  low_le : n.low * den ≤ n.lowDen * num
  le_high : n.highDen * num ≤ n.high * den
  lowDen_pos : 0 < n.lowDen
  highDen_pos : 0 < n.highDen
  lowDen_le : n.lowDen ≤ limit
  highDen_le : n.highDen ≤ limit
  limit_le : limit ≤ n.lowDen + n.highDen

variable {n : Neighbours} {limit num den : Nat}

theorem enclose_iff : n.Enclose limit num den ↔
    n.high * n.lowDen = n.low * n.highDen + 1 ∧ n.low * den ≤ n.lowDen * num ∧
      n.highDen * num ≤ n.high * den ∧ 0 < n.lowDen ∧ 0 < n.highDen ∧ n.lowDen ≤ limit ∧
      n.highDen ≤ limit ∧ limit ≤ n.lowDen + n.highDen :=
  ⟨fun ⟨h₁, h₂, h₃, h₄, h₅, h₆, h₇, h₈⟩ => ⟨h₁, h₂, h₃, h₄, h₅, h₆, h₇, h₈⟩,
    fun ⟨h₁, h₂, h₃, h₄, h₅, h₆, h₇, h₈⟩ => ⟨h₁, h₂, h₃, h₄, h₅, h₆, h₇, h₈⟩⟩

instance : Decidable (n.Enclose limit num den) := decidable_of_iff _ enclose_iff.symm

/-- A coordinate of a fraction over two others, with distances `above` and `below` to a ratio of
denominator `above * b + below * d`. It is not negative if the fraction is nearer to the ratio than that
denominator over `b`. -/
theorem coordinate_nonneg {x y above below b d : Int} (hb : 0 < b) (hd : 0 < d) (habove : 0 ≤ above)
    (hbelow : 0 ≤ below) (hpos : 0 < x * d + y * b)
    (hnear : |x * above - y * below| * b < above * b + below * d) : 0 ≤ x := by
  by_contra hneg
  have hxd : x * d ≤ -1 * d := mul_le_mul_of_nonneg_right (by omega) hd.le
  have hyb : d ≤ y * b := by linarith
  refine absurd hnear (not_lt.mpr ?_)
  calc above * b + below * d ≤ -x * above * b + below * (y * b) := by
        gcongr
        exact le_mul_of_one_le_left habove (by omega)
    _ = -(x * above - y * below) * b := by ring
    _ ≤ |x * above - y * below| * b := by
        gcongr
        exact neg_le_abs _

/-- What is near to a ratio has no distance of `den` over a denominator within the limit. -/
theorem distance_lt {distance precision product den limit q : Int}
    (hprecision : product * limit < precision * den) (hp : 0 ≤ precision) (hproduct : 0 ≤ product)
    (hnear : precision * distance ≤ product) (hq : 0 ≤ q) (hle : q ≤ limit) : distance * q < den := by
  by_contra hfar
  refine absurd hprecision (not_lt.mpr ?_)
  calc precision * den ≤ precision * (distance * q) := mul_le_mul_of_nonneg_left (not_lt.mp hfar) hp
    _ = precision * distance * q := (mul_assoc _ _ _).symm
    _ ≤ product * q := by gcongr
    _ ≤ product * limit := by gcongr

/-- **Near fractions are multiples of a neighbour.** A fraction `x / y` whose denominator is below the
limit, and whose distance to the ratio is at most the ratio divided by `precision`, is a multiple of
one of the two fractions around the ratio, if the precision is high enough for the limit. -/
theorem Enclose.exists_multiple (h : n.Enclose limit num den) {x y precision : Nat} (hy : 0 < y)
    (hlimit : y < limit) (hprecision : y * num * limit < precision * den)
    (hnear : precision * |(x * den - y * num : Int)| ≤ y * num) :
    ∃ t, x = t * n.low ∧ y = t * n.lowDen ∨ x = t * n.high ∧ y = t * n.highDen := by
  obtain ⟨a, b, c, d⟩ := n
  obtain ⟨hnext, hlow, hhigh, hb, hd, hb', hd', hsum⟩ := h
  dsimp only at *
  zify at *
  obtain ⟨X, hX⟩ : ∃ X : Int, X = x * b - y * a := ⟨_, rfl⟩
  obtain ⟨Y, hY⟩ : ∃ Y : Int, Y = y * c - x * d := ⟨_, rfl⟩
  have hx : (x : Int) = X * c + Y * a := by
    rw [hX, hY]
    linear_combination (-(x : Int)) * hnext
  have hy' : (y : Int) = X * d + Y * b := by
    rw [hX, hY]
    linear_combination (-(y : Int)) * hnext
  have hcross : (c * den - d * num : Int) * b + (b * num - a * den) * d = den := by
    linear_combination (den : Int) * hnext
  have hdiff : (x * den - y * num : Int) = X * (c * den - d * num) - Y * (b * num - a * den) := by
    rw [hx, hy']
    ring
  have hfar : ∀ q : Int, 0 ≤ q → q ≤ limit → |(x * den - y * num : Int)| * q < den := fun q hq hle =>
    distance_lt hprecision (by positivity) (by positivity) hnear hq hle
  have hX0 : 0 ≤ X := by
    refine coordinate_nonneg hb hd (sub_nonneg.mpr hhigh) (sub_nonneg.mpr hlow) (hy' ▸ hy) ?_
    rw [← hdiff, hcross]
    exact hfar b hb.le hb'
  have hY0 : 0 ≤ Y := by
    refine coordinate_nonneg hd hb (sub_nonneg.mpr hlow) (sub_nonneg.mpr hhigh)
      (by rwa [add_comm, ← hy']) ?_
    rw [abs_sub_comm, ← hdiff, add_comm, hcross]
    exact hfar d hd.le hd'
  have hzero : X = 0 ∨ Y = 0 := by
    by_contra hne
    have hXd : (d : Int) ≤ X * d := le_mul_of_one_le_left hd.le (by omega)
    have hYb : (b : Int) ≤ Y * b := le_mul_of_one_le_left hb.le (by omega)
    linarith
  obtain ⟨u, rfl⟩ := Int.eq_ofNat_of_zero_le hX0
  obtain ⟨v, rfl⟩ := Int.eq_ofNat_of_zero_le hY0
  rcases hzero with hzero | hzero
  · have hx' : (x : Int) = v * a := by linear_combination hx + c * hzero
    have hy'' : (y : Int) = v * b := by linear_combination hy' + d * hzero
    exact ⟨v, .inl ⟨by exact_mod_cast hx', by exact_mod_cast hy''⟩⟩
  · have hx' : (x : Int) = u * c := by linear_combination hx + a * hzero
    have hy'' : (y : Int) = u * d := by linear_combination hy' + b * hzero
    exact ⟨u, .inr ⟨by exact_mod_cast hx', by exact_mod_cast hy''⟩⟩

/-! ## Finding them -/

/-- Moves the fraction that is farther from the ratio towards the other one, as long as the
denominators allow. `below` and `above` are the distances to the ratio, each times the denominators. -/
def approach (limit : Nat) : Nat → Neighbours → (below above : Nat) → Neighbours
  | 0, n, _, _ => n
  | fuel + 1, n, below, above =>
    if limit ≤ n.lowDen + n.highDen then n
    else if above ≤ below then
      let room := (limit - n.lowDen) / n.highDen
      let steps := if above = 0 then room else min room (below / above)
      approach limit fuel
        { n with low := n.low + steps * n.high, lowDen := n.lowDen + steps * n.highDen }
        (below - steps * above) above
    else
      let room := (limit - n.highDen) / n.lowDen
      let steps := if below = 0 then room else min room (above / below)
      approach limit fuel
        { n with high := n.high + steps * n.low, highDen := n.highDen + steps * n.lowDen }
        below (above - steps * below)

/-- Fractions around `num / den`, found in sixty moves from the whole numbers around it if at all. -/
def search (limit num den : Nat) : Neighbours :=
  approach limit 60 ⟨num / den, 1, num / den + 1, 1⟩ (num % den) (den - num % den)

end Neighbours

end Gridcall
