import Mathlib
import Switchboard.Decimal.Double

/-!
# How far rounding goes

The size of a double as a rational, and what rounding a ratio to the closest double does to it: the
error is at most half a unit in the last of 53 places, and there is a result up to the largest
double and none from the next place on. Digits and a power of ten are rounded before they are
multiplied, so they have a product when there is room for both errors, and none when even both
errors together do not bring it back. Errors are measured relatively from one up only, because
nothing here depends on what becomes of smaller ratios.
-/

namespace Switchboard.Decimal

/-- The size of a double, without its sign. -/
def Double.size (d : Double) : ℚ := d.mantissa * 2 ^ d.exponent

/-- The size of the largest double. -/
def largest : ℚ := (2 ^ 53 - 1) * 2 ^ 971

/-- Half a unit in the last place, for a ratio of one. -/
def halfUnit : ℚ := 1 / 2 ^ 53

theorem cast_places : ((2 ^ 53 - 1 : ℕ) : ℚ) = 2 ^ 53 - 1 := by
  norm_num

theorem largest_lt : largest < 2 ^ 53 * 2 ^ 971 := by
  rw [largest]
  gcongr
  norm_num

/-! ## Rounding a quotient -/

/-- A rounded quotient misses by no more than half. -/
theorem roundDiv_bounds (a : ℕ) {b : ℕ} (hb : 0 < b) :
    2 * (roundDiv a b * b) ≤ 2 * a + b ∧ 2 * a ≤ 2 * (roundDiv a b * b) + b := by
  have hsplit : a = a / b * b + a % b := (Nat.div_add_mod' a b).symm
  have hmod := Nat.mod_lt a hb
  have hnext : (a / b + 1) * b = a / b * b + b := by ring
  unfold roundDiv
  dsimp only
  split_ifs <;> omega

theorem abs_roundDiv_sub_le (a : ℕ) {b : ℕ} (hb : 0 < b) :
    |(roundDiv a b : ℚ) - a / b| ≤ 1 / 2 := by
  obtain ⟨hlow, hhigh⟩ := roundDiv_bounds a hb
  have hb' : (0 : ℚ) < b := by exact_mod_cast hb
  have hlow' : 2 * ((roundDiv a b : ℚ) * b) ≤ 2 * a + b := by exact_mod_cast hlow
  have hhigh' : 2 * (a : ℚ) ≤ 2 * (roundDiv a b * b) + b := by exact_mod_cast hhigh
  have hdiff : (roundDiv a b : ℚ) - a / b = (roundDiv a b * b - a) / b := by field_simp
  rw [hdiff, abs_le, le_div_iff₀ hb', div_le_iff₀ hb']
  constructor <;> linarith

/-- A quotient that does not exceed a natural does not when rounded either. -/
theorem roundDiv_le {a b k : ℕ} (hb : 0 < b) (h : (a : ℚ) / b ≤ k) : roundDiv a b ≤ k := by
  have hb' : (0 : ℚ) < b := by exact_mod_cast hb
  have hle : a ≤ k * b := by exact_mod_cast (div_le_iff₀ hb').mp h
  obtain ⟨hlow, -⟩ := roundDiv_bounds a hb
  by_contra hgt
  have hmul : (k + 1) * b ≤ roundDiv a b * b := Nat.mul_le_mul_right b (by omega)
  have hnext : (k + 1) * b = k * b + b := by ring
  omega

/-! ## Scaling a ratio -/

/-- Unscaling divides by the power of two. -/
theorem unscale_ratio (a : ℕ) {b : ℕ} (hb : 0 < b) (e : ℤ) :
    0 < (unscale a b e).2 ∧
      ((unscale a b e).1 : ℚ) / (unscale a b e).2 = (a : ℚ) / b / 2 ^ e := by
  unfold unscale
  split
  · rename_i he
    obtain ⟨n, rfl⟩ := Int.eq_ofNat_of_zero_le he
    refine ⟨Nat.mul_pos hb (Nat.pow_pos (by decide)), ?_⟩
    simp [div_div]
  · rename_i he
    obtain ⟨n, hn⟩ := Int.eq_ofNat_of_zero_le (by omega : 0 ≤ -e)
    obtain rfl : e = -(n : ℤ) := by omega
    refine ⟨hb, ?_⟩
    simp
    ring

/-- The exponents of two naturals place their ratio within a factor of four. -/
theorem log2_bounds {a b : ℕ} (ha : 0 < a) (hb : 0 < b) :
    2 ^ 51 * (2 : ℚ) ^ ((a.log2 : ℤ) - b.log2 - 52) ≤ (a : ℚ) / b ∧
      (a : ℚ) / b < 2 ^ 53 * (2 : ℚ) ^ ((a.log2 : ℤ) - b.log2 - 52) := by
  have hscale : (2 : ℚ) ^ ((a.log2 : ℤ) - b.log2 - 52) = 2 ^ a.log2 / 2 ^ b.log2 / 2 ^ 52 := by
    rw [zpow_sub₀ two_ne_zero, zpow_sub₀ two_ne_zero, zpow_natCast, zpow_natCast]
    rfl
  have hb' : (0 : ℚ) < b := by exact_mod_cast hb
  have hpow : (0 : ℚ) < 2 ^ b.log2 := by positivity
  have hlowa : (2 : ℚ) ^ a.log2 ≤ a := by exact_mod_cast Nat.log2_self_le ha.ne'
  have hlowb : (2 : ℚ) ^ b.log2 ≤ b := by exact_mod_cast Nat.log2_self_le hb.ne'
  have hhigha : (a : ℚ) < 2 ^ (a.log2 + 1) := by exact_mod_cast Nat.lt_log2_self
  have hhighb : (b : ℚ) < 2 ^ (b.log2 + 1) := by exact_mod_cast Nat.lt_log2_self
  rw [pow_succ] at hhigha hhighb
  rw [hscale]
  -- each part is less than twice its power of two, so either may cost a factor of two
  constructor
  · calc 2 ^ 51 * ((2 : ℚ) ^ a.log2 / 2 ^ b.log2 / 2 ^ 52)
      _ = 2 ^ a.log2 / (2 ^ b.log2 * 2) := by field_simp
      _ ≤ a / b := div_le_div₀ (by positivity) hlowa hb' hhighb.le
  · calc (a : ℚ) / b
      _ ≤ a / 2 ^ b.log2 := div_le_div_of_nonneg_left (by positivity) hpow hlowb
      _ < 2 ^ a.log2 * 2 / 2 ^ b.log2 := div_lt_div_of_pos_right hhigha hpow
      _ = 2 ^ 53 * (2 ^ a.log2 / 2 ^ b.log2 / 2 ^ 52) := by field_simp

/-- The exponent gives the ratio 53 places, unless it is the least there is. -/
theorem exponentOf_spec {a b : ℕ} (ha : 0 < a) (hb : 0 < b) :
    ∃ e : ℤ, Double.exponentOf a b = max minExponent e ∧
      2 ^ 52 * (2 : ℚ) ^ e ≤ (a : ℚ) / b ∧ (a : ℚ) / b < 2 ^ 53 * (2 : ℚ) ^ e := by
  obtain ⟨hlow, hhigh⟩ := log2_bounds ha hb
  generalize he : (a.log2 : ℤ) - b.log2 - 52 = e at hlow hhigh
  obtain ⟨hpos, hratio⟩ := unscale_ratio a hb e
  have hpos' : (0 : ℚ) < (unscale a b e).2 := by exact_mod_cast hpos
  have hpow : (0 : ℚ) < 2 ^ e := by positivity
  have hless : (unscale a b e).1 < (unscale a b e).2 * Nat.pow 2 52 ↔
      (a : ℚ) / b < 2 ^ 52 * 2 ^ e := by
    rw [← div_lt_iff₀ hpow, ← hratio, div_lt_iff₀ hpos', mul_comm, ← Nat.cast_lt (α := ℚ)]
    rw [Nat.cast_mul]
    norm_num
  rw [Double.exponentOf]
  dsimp only
  rw [he]
  -- the guess is right or one too large, and the comparison tells which
  split_ifs with h
  · refine ⟨e - 1, rfl, ?_, ?_⟩
    · rw [zpow_sub_one₀ two_ne_zero]
      linarith
    · rw [zpow_sub_one₀ two_ne_zero]
      linarith [hless.mp h]
  · exact ⟨e, rfl, not_lt.mp (mt hless.mpr h), hhigh⟩

/-! ## The closest double -/

/-- A ratio past the largest double's place has no closest one. -/
theorem nearest_eq_none (negative : Bool) {a b : ℕ} (hb : 0 < b)
    (h : 2 ^ 53 * 2 ^ 971 ≤ (a : ℚ) / b) : Double.nearest negative a b = none := by
  have ha : 0 < a := by
    rw [Nat.pos_iff_ne_zero]
    rintro rfl
    rw [Nat.cast_zero, zero_div] at h
    exact absurd h (not_le.mpr (by positivity))
  obtain ⟨e, hexponent, -, hhigh⟩ := exponentOf_spec ha hb
  have he : maxExponent < e := by
    have hpow : (2 : ℚ) ^ (971 : ℤ) < 2 ^ e :=
      lt_of_mul_lt_mul_left (h.trans_lt hhigh) (by positivity)
    exact (zpow_lt_zpow_iff_right₀ one_lt_two).mp hpow
  have hlarge : maxExponent < max minExponent e := lt_max_of_lt_right he
  rw [Double.nearest, if_neg ha.ne', hexponent]
  dsimp only
  -- a carry would only raise the exponent further
  by_cases hcarry : roundDiv (unscale a b (max minExponent e)).1
      (unscale a b (max minExponent e)).2 = Nat.pow 2 53
  · rw [if_pos hcarry, if_pos (by omega)]
  · rw [if_neg hcarry, if_pos hlarge]

/-- Whether or not the mantissa carries, the size is the rounded quotient, scaled back. -/
theorem nearest_eq_some (negative : Bool) {a b m : ℕ} {e : ℤ} (ha : a ≠ 0)
    (hexponent : Double.exponentOf a b = e)
    (hm : roundDiv (unscale a b e).1 (unscale a b e).2 = m) (he : e ≤ maxExponent)
    (hcarry : m = 2 ^ 53 → e ≠ maxExponent) :
    ∃ d, Double.nearest negative a b = some d ∧ d.size = m * 2 ^ e := by
  rw [Double.nearest, if_neg ha, hexponent]
  dsimp only
  rw [hm]
  by_cases h : m = Nat.pow 2 53
  · -- half the mantissa at the next exponent is the same size
    have hbelow := hcarry h
    refine ⟨⟨negative, Nat.pow 2 52, e + 1⟩, ?_, ?_⟩
    · rw [if_pos h, if_neg (by omega)]
    · rw [Double.size, zpow_add_one₀ two_ne_zero, h]
      norm_num
      ring
  · exact ⟨⟨negative, m, e⟩, by rw [if_neg h, if_neg (not_lt.mpr he)], rfl⟩

/-- With 53 places no exponent up to the largest double is too large. -/
theorem le_maxExponent {e : ℤ} (h : 2 ^ 52 * 2 ^ e ≤ largest) : e ≤ maxExponent := by
  have hplace : (2 : ℚ) ^ 53 * 2 ^ 971 = 2 ^ 52 * 2 ^ (maxExponent + 1) := by
    rw [zpow_add_one₀ two_ne_zero, pow_succ 2 52, mul_assoc, mul_comm 2]
    rfl
  have hbelow : (2 : ℚ) ^ e < 2 ^ (maxExponent + 1) :=
    lt_of_mul_lt_mul_left ((h.trans_lt largest_lt).trans_eq hplace) (by positivity)
  exact Int.lt_add_one_iff.mp ((zpow_lt_zpow_iff_right₀ one_lt_two).mp hbelow)

/-- A unit in the last place, relative to the ratio or, for small ones, to one. -/
theorem unit_le {r : ℚ} {e : ℤ} (h : 2 ^ 52 * 2 ^ e ≤ r) :
    2 ^ max minExponent e * (1 / 2) ≤ max r 1 * halfUnit := by
  have hunit : (2 : ℚ) ^ max minExponent e ≤ max r 1 / 2 ^ 52 := by
    rcases le_total minExponent e with hle | hle
    · rw [max_eq_right hle, le_div_iff₀ (by positivity), mul_comm]
      exact h.trans (le_max_left ..)
    · -- at the least exponent the ratio does not bound the unit any more, but one does
      rw [max_eq_left hle]
      calc (2 : ℚ) ^ minExponent
        _ ≤ 2 ^ (-52 : ℤ) := zpow_le_zpow_right₀ one_le_two (by decide)
        _ = 1 / 2 ^ 52 := by rw [zpow_neg, one_div]; rfl
        _ ≤ max r 1 / 2 ^ 52 := by gcongr; exact le_max_right ..
  calc (2 : ℚ) ^ max minExponent e * (1 / 2)
    _ ≤ max r 1 / 2 ^ 52 * (1 / 2) := by gcongr
    _ = max r 1 * halfUnit := by rw [halfUnit]; ring

/--
Up to the largest double there is a closest one, and it misses by no more than half a unit in the
last of 53 places.
-/
theorem exists_nearest (negative : Bool) {a b : ℕ} (hb : 0 < b) (h : (a : ℚ) / b ≤ largest) :
    ∃ d, Double.nearest negative a b = some d ∧
      |d.size - (a : ℚ) / b| ≤ max ((a : ℚ) / b) 1 * halfUnit := by
  rcases Nat.eq_zero_or_pos a with rfl | ha
  · exact ⟨.zero negative, rfl, by simp [Double.size, Double.zero, halfUnit]⟩
  obtain ⟨e, hexponent, hlow, -⟩ := exponentOf_spec ha hb
  obtain ⟨hpos, hratio⟩ := unscale_ratio a hb (max minExponent e)
  have hpow : (0 : ℚ) < 2 ^ max minExponent e := by positivity
  have he : max minExponent e ≤ maxExponent :=
    max_le (by decide) (le_maxExponent (hlow.trans h))
  generalize hm : roundDiv (unscale a b (max minExponent e)).1
    (unscale a b (max minExponent e)).2 = m
  have hround := abs_roundDiv_sub_le (unscale a b (max minExponent e)).1 hpos
  rw [hm, hratio] at hround
  -- at the last exponent the largest double bounds the mantissa too
  have hcarry : m = 2 ^ 53 → max minExponent e ≠ maxExponent := by
    intro hcarry hlast
    have hle : m ≤ 2 ^ 53 - 1 := by
      rw [← hm]
      refine roundDiv_le hpos ?_
      rw [hratio, hlast, cast_places, div_le_iff₀ (by positivity)]
      exact h
    omega
  obtain ⟨d, hd, hsize⟩ := nearest_eq_some negative ha.ne' hexponent hm he hcarry
  refine ⟨d, hd, ?_⟩
  have hdiff : d.size - (a : ℚ) / b =
      2 ^ max minExponent e * (m - (a : ℚ) / b / 2 ^ max minExponent e) := by
    rw [hsize]
    field_simp
  calc |d.size - (a : ℚ) / b|
    _ = 2 ^ max minExponent e * |m - (a : ℚ) / b / 2 ^ max minExponent e| := by
      rw [hdiff, abs_mul, abs_of_pos hpow]
    _ ≤ 2 ^ max minExponent e * (1 / 2) := by gcongr
    _ ≤ max ((a : ℚ) / b) 1 * halfUnit := unit_le hlow

/-- A whole number becomes a double that misses it by half a unit at most. -/
theorem exists_nearest_nat (negative : Bool) {n : ℕ} (h : (n : ℚ) ≤ largest) :
    ∃ d, Double.nearest negative n 1 = some d ∧ |d.size - n| ≤ n * halfUnit := by
  rcases Nat.eq_zero_or_pos n with rfl | hpos
  · exact ⟨.zero negative, rfl, by simp [Double.size, Double.zero]⟩
  have hone : (n : ℚ) / (1 : ℕ) = n := by rw [Nat.cast_one, div_one]
  have hmax : max (n : ℚ) 1 = n := max_eq_left (by exact_mod_cast hpos)
  have hnearest := exists_nearest negative one_pos (hone.trans_le h)
  rwa [hone, hmax] at hnearest

namespace Double

/-! ## Products and quotients -/

theorem size_nonneg (d : Double) : 0 ≤ d.size := by
  rw [size]
  positivity

theorem size_pos_iff {d : Double} : 0 < d.size ↔ d.mantissa ≠ 0 := by
  rw [size, mul_pos_iff_of_pos_right (by positivity), Nat.cast_pos, Nat.pos_iff_ne_zero]

theorem ratio_spec (d : Double) :
    0 < d.ratio.2 ∧ (d.ratio.1 : ℚ) / d.ratio.2 = d.size := by
  unfold ratio size
  split
  · rename_i he
    obtain ⟨n, hn⟩ := Int.eq_ofNat_of_zero_le he
    simp [hn]
  · rename_i he
    obtain ⟨n, hn⟩ := Int.eq_ofNat_of_zero_le (by omega : 0 ≤ -d.exponent)
    obtain he : d.exponent = -(n : ℤ) := by omega
    simp [he, div_eq_mul_inv]

/-- A product is formed as long as it does not exceed the largest double. -/
theorem times_isSome {d p : Double} (h : d.size * p.size ≤ largest) : (d.times p).isSome := by
  obtain ⟨hd, hdsize⟩ := d.ratio_spec
  obtain ⟨hp, hpsize⟩ := p.ratio_spec
  rw [← hdsize, ← hpsize, div_mul_div_comm, ← Nat.cast_mul, ← Nat.cast_mul] at h
  obtain ⟨r, hr, -⟩ := exists_nearest d.negative (Nat.mul_pos hd hp) h
  exact Option.isSome_of_eq_some hr

theorem times_eq_none {d p : Double} (h : 2 ^ 53 * 2 ^ 971 ≤ d.size * p.size) :
    d.times p = none := by
  obtain ⟨hd, hdsize⟩ := d.ratio_spec
  obtain ⟨hp, hpsize⟩ := p.ratio_spec
  rw [← hdsize, ← hpsize, div_mul_div_comm, ← Nat.cast_mul, ← Nat.cast_mul] at h
  exact nearest_eq_none d.negative (Nat.mul_pos hd hp) h

theorem exists_dividedBy {d p : Double} (hpos : 0 < p.size) (h : d.size / p.size ≤ largest) :
    ∃ r, d.dividedBy p = some r ∧
      |r.size - d.size / p.size| ≤ max (d.size / p.size) 1 * halfUnit := by
  obtain ⟨hd, hdsize⟩ := d.ratio_spec
  obtain ⟨hp, hpsize⟩ := p.ratio_spec
  have hmantissa : 0 < p.ratio.1 := by
    rw [Nat.pos_iff_ne_zero]
    intro hzero
    rw [← hpsize, hzero, Nat.cast_zero, zero_div] at hpos
    exact hpos.false
  rw [← hdsize, ← hpsize, div_div_div_eq, ← Nat.cast_mul, ← Nat.cast_mul] at h ⊢
  exact exists_nearest d.negative (Nat.mul_pos hd hmantissa) h

/-! ## Powers of ten -/

theorem ten_pow_le_largest {k : ℕ} (hk : k ≤ tenLimit) : (10 : ℚ) ^ k ≤ largest := by
  have hlimit : (((10 ^ tenLimit : ℕ)) : ℚ) ≤ ((2 ^ 53 - 1) * 2 ^ 971 : ℕ) :=
    Nat.cast_le.mpr (by decide +kernel)
  rw [Nat.cast_pow, Nat.cast_mul, cast_places, Nat.cast_pow] at hlimit
  calc (10 : ℚ) ^ k
    _ ≤ 10 ^ tenLimit := pow_le_pow_right₀ (by norm_num) hk
    _ ≤ largest := hlimit

theorem largest_lt_ten_pow {k : ℕ} (hk : tenLimit < k) : largest < (10 : ℚ) ^ k := by
  have hlimit : ((2 ^ 53 * 2 ^ 971 : ℕ) : ℚ) ≤ (10 ^ (tenLimit + 1) : ℕ) :=
    Nat.cast_le.mpr (by decide +kernel)
  rw [Nat.cast_mul, Nat.cast_pow, Nat.cast_pow, Nat.cast_pow] at hlimit
  calc largest
    _ < 2 ^ 53 * 2 ^ 971 := largest_lt
    _ ≤ 10 ^ (tenLimit + 1) := hlimit
    _ ≤ 10 ^ k := pow_le_pow_right₀ (by norm_num) hk

/-- Nothing from one up can be moved further and stay in range. -/
theorem le_tenLimit {x : ℚ} {k : ℕ} (hx : 1 ≤ x) (h : x * 10 ^ k ≤ largest) : k ≤ tenLimit := by
  by_contra hk
  have hgrown : (10 : ℚ) ^ k ≤ x * 10 ^ k := le_mul_of_one_le_left (by positivity) hx
  exact absurd (hgrown.trans h) (not_le.mpr (largest_lt_ten_pow (not_le.mp hk)))

theorem tenTo_size {k : ℕ} (hk : k ≤ tenLimit) :
    |(tenTo k).size - 10 ^ k| ≤ 10 ^ k * halfUnit := by
  have hpow : ((Nat.pow 10 k : ℕ) : ℚ) = 10 ^ k := Nat.cast_pow 10 k
  obtain ⟨d, hd, herror⟩ := exists_nearest_nat false (hpow.trans_le (ten_pow_le_largest hk))
  rw [hpow] at herror
  rw [tenTo, hd]
  exact herror

theorem halfUnit_le : halfUnit ≤ 1 / 2 := by
  norm_num [halfUnit]

theorem two_pow_le_largest : (2 : ℚ) ^ 65 ≤ largest :=
  le_trans (by norm_num) (ten_pow_le_largest (k := 20) (by decide))

/-- Dividing by a power of ten keeps small doubles small. -/
theorem exists_dividedBy_tenTo {d : Double} {k : ℕ} (hk : 0 < k ∧ k ≤ tenLimit)
    (hd : d.size ≤ 2 ^ 65) : ∃ r, d.dividedBy (tenTo k) = some r ∧ r.size ≤ 2 ^ 65 := by
  have hten : (10 : ℚ) ≤ 10 ^ k := le_self_pow₀ (by norm_num) hk.1.ne'
  have hpower : 5 ≤ (tenTo k).size := by
    obtain ⟨hlow, -⟩ := abs_le.mp (tenTo_size hk.2)
    have hhalf : (10 : ℚ) ^ k * halfUnit ≤ 10 ^ k * (1 / 2) := by
      gcongr
      exact halfUnit_le
    linarith
  have hpos : 0 < (tenTo k).size := by linarith
  have hquotient : d.size / (tenTo k).size ≤ 2 ^ 63 := by
    rw [div_le_iff₀ hpos]
    linarith
  obtain ⟨r, hr, herror⟩ := exists_dividedBy hpos
    (hquotient.trans (le_trans (by norm_num) two_pow_le_largest))
  refine ⟨r, hr, ?_⟩
  generalize d.size / (tenTo k).size = q at hquotient herror
  have hmax : max q 1 * halfUnit ≤ 2 ^ 63 * (1 / 2) :=
    mul_le_mul (max_le hquotient (by norm_num)) halfUnit_le (by norm_num [halfUnit]) (by norm_num)
  linarith [(abs_le.mp herror).2]

theorem exists_lower {d : Double} (n : ℕ) (hd : d.size ≤ 2 ^ 65) :
    ∃ r, d.lower n = some r ∧ r.size ≤ 2 ^ 65 := by
  -- every step keeps the bound that the next one starts from
  induction n generalizing d with
  | zero => exact ⟨d, rfl, hd⟩
  | succ n ih =>
    rw [lower]
    split
    · exact ⟨d, rfl, hd⟩
    · obtain ⟨q, hq, hsize⟩ := exists_dividedBy_tenTo (k := tenLimit) (by decide) hd
      obtain ⟨r, hr, hbound⟩ := ih hsize
      exact ⟨r, by rw [hq]; exact hr, hbound⟩

/-- Moving a small double down always leaves one. -/
theorem shift_neg_isSome {d : Double} {power : ℤ} (hpower : power < 0) (hd : d.size ≤ 2 ^ 65) :
    (d.shift power).isSome := by
  rw [shift]
  split
  · rfl
  · have hlimit : (0 : ℤ) ≤ tenLimit := by decide
    rw [if_neg (by omega), if_neg (by omega)]
    dsimp only
    obtain ⟨q, hq, hsize⟩ := exists_lower (((-power).toNat - 1) / tenLimit) hd
    obtain ⟨r, hr, -⟩ := exists_dividedBy_tenTo (d := q)
      (k := (-power).toNat - ((-power).toNat - 1) / tenLimit * tenLimit)
      (by simp only [tenLimit]; omega) hsize
    rw [hq, Option.bind_some, hr]
    rfl

/-! ## Digits and a power of ten -/

section Decimal

variable {m : ℕ} {power : ℤ}

theorem word_le (hm : m < 2 ^ 64) : (m : ℚ) ≤ 2 ^ 64 := by
  exact_mod_cast hm.le

theorem word_le_largest (hm : m < 2 ^ 64) : (m : ℚ) ≤ largest :=
  (word_le hm).trans (le_trans (by norm_num) two_pow_le_largest)

theorem shift_of_nonneg {d : Double} {k : ℕ} (hd : d.mantissa ≠ 0) (hk : k ≤ tenLimit) :
    d.shift k = d.times (tenTo k) := by
  rw [shift, if_neg hd, if_neg (by omega), if_pos (by omega), Int.toNat_natCast]

/--
Digits and a power of ten have a product as long as there is room for the rounding of the digits and
of the power.
-/
theorem ofDecimal_isSome (negative : Bool) (hm : m < 2 ^ 64)
    (h : m * 10 ^ power * (1 + halfUnit) ^ 2 ≤ largest) :
    (ofDecimal negative m power).isSome := by
  obtain ⟨d, hd, herror⟩ := exists_nearest_nat negative (word_le_largest hm)
  obtain ⟨-, herror⟩ := abs_le.mp herror
  have hdigits : d.size ≤ m * (1 + halfUnit) := by linarith
  rw [ofDecimal, hd]
  show (d.shift power).isSome
  rcases lt_or_ge power 0 with hneg | hnonneg
  · refine shift_neg_isSome hneg (hdigits.trans ?_)
    rw [halfUnit]
    linarith [word_le hm]
  obtain ⟨k, rfl⟩ := Int.eq_ofNat_of_zero_le hnonneg
  rw [zpow_natCast] at h
  by_cases hzero : d.mantissa = 0
  · rw [shift, if_pos hzero]
    rfl
  have hk : k ≤ tenLimit := by
    have hpos : 0 < (m : ℚ) * (1 + halfUnit) := (size_pos_iff.mpr hzero).trans_le hdigits
    have hone : (1 : ℚ) ≤ m := by
      exact_mod_cast (pos_of_mul_pos_left hpos (by norm_num [halfUnit]))
    have hgrown : (1 : ℚ) ≤ (1 + halfUnit) ^ 2 := by norm_num [halfUnit]
    rw [mul_right_comm] at h
    exact le_tenLimit (one_le_mul_of_one_le_of_one_le hone hgrown) h
  obtain ⟨-, hpower⟩ := abs_le.mp (tenTo_size hk)
  rw [shift_of_nonneg hzero hk]
  refine times_isSome (le_trans ?_ h)
  calc d.size * (tenTo k).size
    _ ≤ m * (1 + halfUnit) * (10 ^ k * (1 + halfUnit)) :=
      mul_le_mul hdigits (by linarith) (size_nonneg _) ((size_nonneg d).trans hdigits)
    _ = m * 10 ^ k * (1 + halfUnit) ^ 2 := by ring

/-- They have none when the product is past the largest double even if both are rounded down. -/
theorem ofDecimal_eq_none (negative : Bool) (hm : m < 2 ^ 64)
    (h : 2 ^ 53 * 2 ^ 971 ≤ m * 10 ^ power * (1 - halfUnit) ^ 2) :
    ofDecimal negative m power = none := by
  obtain ⟨d, hd, herror⟩ := exists_nearest_nat negative (word_le_largest hm)
  obtain ⟨herror, -⟩ := abs_le.mp herror
  have hdigits : m * (1 - halfUnit) ≤ d.size := by linarith
  rw [ofDecimal, hd]
  show d.shift power = none
  rcases lt_or_ge power 0 with hneg | hnonneg
  · have hsmall : m * (10 : ℚ) ^ power * (1 - halfUnit) ^ 2 < 2 ^ 53 * 2 ^ 971 :=
      calc m * (10 : ℚ) ^ power * (1 - halfUnit) ^ 2
        _ ≤ m * 1 * 1 := by
          gcongr
          · exact zpow_le_one_of_nonpos₀ (by norm_num) hneg.le
          · norm_num [halfUnit]
        _ = m := by ring
        _ < 2 ^ 53 * 2 ^ 971 := (word_le_largest hm).trans_lt largest_lt
    exact absurd h (not_le.mpr hsmall)
  have hzero : d.mantissa ≠ 0 := by
    have hpos : 0 < m * (10 : ℚ) ^ power * (1 - halfUnit) ^ 2 := lt_of_lt_of_le (by positivity) h
    have hdigit : 0 < (m : ℚ) :=
      pos_of_mul_pos_left (pos_of_mul_pos_left hpos (by positivity)) (by positivity)
    rw [← size_pos_iff]
    exact lt_of_lt_of_le (mul_pos hdigit (by norm_num [halfUnit])) hdigits
  obtain ⟨k, rfl⟩ := Int.eq_ofNat_of_zero_le hnonneg
  rw [zpow_natCast] at h
  by_cases hk : k ≤ tenLimit
  · rw [shift_of_nonneg hzero hk]
    obtain ⟨hpower, -⟩ := abs_le.mp (tenTo_size hk)
    refine times_eq_none (h.trans ?_)
    calc m * 10 ^ k * (1 - halfUnit) ^ 2
      _ = m * (1 - halfUnit) * (10 ^ k * (1 - halfUnit)) := by ring
      _ ≤ d.size * (tenTo k).size :=
        mul_le_mul hdigits (by linarith) (by norm_num [halfUnit]) (size_nonneg _)
  · rw [shift, if_neg hzero, if_pos (by omega)]

end Decimal

end Double

end Switchboard.Decimal
