import Switchboard.Proofs.Digits
import Switchboard.Proofs.Meaning
import Switchboard.Proofs.Rounding

/-!
# Which numerals are in range

A numeral is read in three roundings, of its digits, of a power of ten and of their product, and
only the first nineteen or twenty digits take part. So near the largest double its spelling decides
whether it is in range. Sixteen digits are enough to say how near: what is no larger than
`1.797693134862315e308` is in range however it is spelled, and what is at least
`1.797693134862317e308` is not.
-/

namespace Switchboard.Json

open Decimal

/-- The size of the number that a numeral spells, without its sign. -/
def Numeral.size (n : Numeral) : ℚ :=
  natOfDigits (n.whole ++ n.fraction) / 10 ^ n.fraction.length * 10 ^ n.exponent.getD 0

/-! ## Leading digits -/

/-- A number lies between its leading digits and the next number of as many digits. -/
theorem leading_bounds (ds es : List Digit) :
    (natOfDigits ds : ℚ) ≤ natOfDigits (ds ++ es) / 10 ^ es.length ∧
      (natOfDigits (ds ++ es) : ℚ) / 10 ^ es.length < natOfDigits ds + 1 := by
  have hpow : (0 : ℚ) < 10 ^ es.length := by positivity
  have hlt : (natOfDigits es : ℚ) < 10 ^ es.length := by exact_mod_cast natOfDigits_lt es
  have hsplit : (natOfDigits (ds ++ es) : ℚ) =
      natOfDigits ds * 10 ^ es.length + natOfDigits es := by
    exact_mod_cast natOfDigits_append_list ds es
  rw [le_div_iff₀ hpow, div_lt_iff₀ hpow, hsplit]
  constructor
  · exact le_add_of_nonneg_right (by positivity)
  · linarith

/-- The digits that are taken are the longest prefix that fits. -/
theorem gather_spec {n : ℕ} (ds : List Digit) (hn : n < wordLimit) :
    ∃ read rest m, ds = read ++ rest ∧ gather n ds = (m, read.length, rest.length) ∧
      m = n * 10 ^ read.length + natOfDigits read ∧ m < wordLimit ∧
      (rest = [] ∨ wordLimit ≤ m * 10 + 9) := by
  induction ds generalizing n with
  | nil => exact ⟨[], [], n, rfl, rfl, by simp [natOfDigits], hn, .inl rfl⟩
  | cons d ds ih =>
    rw [gather]
    split
    · rename_i hfits
      obtain ⟨read, rest, m, rfl, hgather, hm, hbound, hrest⟩ := ih hfits
      refine ⟨d :: read, rest, m, rfl, by rw [hgather]; rfl, ?_, hbound, hrest⟩
      rw [hm, natOfDigits_cons, List.length_cons]
      ring
    · -- one more digit does not fit, and no digit is more than nine
      rename_i hfull
      have hd := d.isLt
      exact ⟨[], d :: ds, n, rfl, rfl, by simp [natOfDigits], hn, .inr (by omega)⟩

/-! ## What is read of a numeral -/

/-- Numbers that share as many leading digits as are taken are close to one another. -/
theorem close_of_leading {ds : List Digit} (h : wordLimit ≤ natOfDigits ds * 10 + 9)
    (es fs : List Digit) (q : ℤ) :
    |(natOfDigits (ds ++ es) : ℚ) / 10 ^ es.length * 10 ^ q -
        natOfDigits (ds ++ fs) / 10 ^ fs.length * 10 ^ q| ≤
      natOfDigits (ds ++ fs) / 10 ^ fs.length * 10 ^ q / 10 ^ 18 := by
  obtain ⟨heslow, heshigh⟩ := leading_bounds ds es
  obtain ⟨hfslow, hfshigh⟩ := leading_bounds ds fs
  generalize (natOfDigits (ds ++ es) : ℚ) / 10 ^ es.length = x at heslow heshigh ⊢
  generalize (natOfDigits (ds ++ fs) : ℚ) / 10 ^ fs.length = y at hfslow hfshigh ⊢
  have hlarge : (10 : ℚ) ^ 18 ≤ natOfDigits ds := by
    have hword : wordLimit = 18446744073709551616 := by decide
    have hnat : 10 ^ 18 ≤ natOfDigits ds := by omega
    exact_mod_cast hnat
  have hunit : 1 ≤ y / 10 ^ 18 := (one_le_div (by positivity)).mpr (hlarge.trans hfslow)
  have hpow : (0 : ℚ) < 10 ^ q := by positivity
  have hclose : |x - y| ≤ y / 10 ^ 18 := by
    rw [abs_le]
    constructor <;> linarith
  calc |x * 10 ^ q - y * 10 ^ q|
    _ = |x - y| * 10 ^ q := by rw [← sub_mul, abs_mul, abs_of_pos hpow]
    _ ≤ y / 10 ^ 18 * 10 ^ q := by gcongr
    _ = y * 10 ^ q / 10 ^ 18 := by ring

/-- The size with the point elsewhere: before the last digits, however many these are. -/
theorem Numeral.size_eq (n : Numeral) (ds es : List Digit)
    (h : n.whole ++ n.fraction = ds ++ es) :
    n.size = natOfDigits (ds ++ es) / 10 ^ es.length *
      10 ^ ((es.length : ℤ) - n.fraction.length + n.exponent.getD 0) := by
  have hten : (10 : ℚ) ≠ 0 := by norm_num
  rw [size, h, zpow_add₀ hten, zpow_sub₀ hten, zpow_natCast, zpow_natCast]
  field_simp

/-- A double is made of digits and a power of ten that miss the number by very little. -/
theorem Numeral.double?_eq (n : Numeral) :
    ∃ (m : ℕ) (power : ℤ), n.double? = Double.ofDecimal n.negative m power ∧ m < 2 ^ 64 ∧
      |m * 10 ^ power - n.size| ≤ n.size / 10 ^ 18 := by
  obtain ⟨read, rest, m, hwhole, hgather, hm, hbound, hrest⟩ :=
    gather_spec n.whole (n := 0) (by decide)
  obtain ⟨read', rest', m', hfraction, hgather', hm', hbound', hrest'⟩ :=
    gather_spec n.fraction hbound
  rw [Nat.zero_mul, Nat.zero_add] at hm
  rw [hm, ← natOfDigits_append_list] at hm'
  refine ⟨m', rest.length - read'.length + n.exponent.getD 0, ?_, hbound', ?_⟩
  · rw [double?, hgather]
    dsimp only
    rw [hgather']
  have hlength : (n.fraction.length : ℤ) = read'.length + rest'.length := by
    rw [hfraction, List.length_append, Nat.cast_add]
  rcases hrest with rfl | hfull
  · -- the whole part was taken, so what was taken of all the digits is a prefix
    have hsize := n.size_eq (read ++ read') rest'
      (by rw [hwhole, hfraction]; simp)
    rw [hsize, hlength, show (rest'.length : ℤ) - (read'.length + rest'.length) =
      ([] : List Digit).length - read'.length by rw [List.length_nil]; omega]
    rcases hrest' with rfl | hfull'
    · rw [hm', List.append_nil, List.length_nil, pow_zero, div_one, sub_self, abs_zero]
      positivity
    · rw [hm'] at hfull' ⊢
      simpa using close_of_leading hfull' [] rest' _
  · -- digits of the fraction were tried after some of the whole part were left
    have hsize := n.size_eq read (rest ++ n.fraction)
      (by rw [hwhole, List.append_assoc])
    have hread : (m' : ℚ) * 10 ^ ((rest.length : ℤ) - read'.length + n.exponent.getD 0) =
        natOfDigits (read ++ read') / 10 ^ read'.length *
          10 ^ (((rest ++ n.fraction).length : ℤ) - n.fraction.length + n.exponent.getD 0) := by
      have hten : (10 : ℚ) ≠ 0 := by norm_num
      rw [hm', List.length_append, Nat.cast_add, add_sub_cancel_right, zpow_add₀ hten,
        zpow_add₀ hten, zpow_sub₀ hten, zpow_natCast, zpow_natCast]
      ring
    rw [hm] at hfull
    rw [hsize, hread]
    exact close_of_leading hfull _ _ _

/-! ## The limits -/

/-- Whatever spells a number up to this size is in range. -/
def keptSize : ℚ := 1797693134862315 * 10 ^ 293

/-- Whatever spells a number from this size on is out of range. -/
def lostSize : ℚ := 1797693134862317 * 10 ^ 293

theorem ten_pow_bounds :
    (501042090002243194499 : ℚ) * 2 ^ 971 ≤ 10 ^ 293 * 10 ^ 20 ∧
      (10 : ℚ) ^ 293 * 10 ^ 20 ≤ 501042090002243194500 * 2 ^ 971 := by
  have hlow : ((501042090002243194499 * 2 ^ 971 : ℕ) : ℚ) ≤ (10 ^ 293 * 10 ^ 20 : ℕ) :=
    Nat.cast_le.mpr (by decide +kernel)
  have hhigh : ((10 ^ 293 * 10 ^ 20 : ℕ) : ℚ) ≤ (501042090002243194500 * 2 ^ 971 : ℕ) :=
    Nat.cast_le.mpr (by decide +kernel)
  rw [Nat.cast_mul, Nat.cast_mul, Nat.cast_pow, Nat.cast_pow, Nat.cast_pow] at hlow hhigh
  exact ⟨hlow, hhigh⟩

/-- Below the limit there is room for everything that is rounded before the product. -/
theorem keptSize_room : keptSize * (1 + 1 / 10 ^ 18) * (1 + halfUnit) ^ 2 ≤ largest := by
  obtain ⟨-, hten⟩ := ten_pow_bounds
  rw [keptSize, halfUnit, largest]
  have hpos : (0 : ℚ) < 2 ^ 971 := by positivity
  generalize (2 : ℚ) ^ 971 = t at hten hpos ⊢
  generalize (10 : ℚ) ^ 293 = u at hten ⊢
  linarith

theorem lostSize_room : 2 ^ 53 * 2 ^ 971 ≤ lostSize * (1 - 1 / 10 ^ 18) * (1 - halfUnit) ^ 2 := by
  obtain ⟨hten, -⟩ := ten_pow_bounds
  rw [lostSize, halfUnit]
  have hpos : (0 : ℚ) < 2 ^ 971 := by positivity
  generalize (2 : ℚ) ^ 971 = t at hten hpos ⊢
  generalize (10 : ℚ) ^ 293 = u at hten ⊢
  linarith

theorem Numeral.inRange_of_size_le {n : Numeral} (h : n.size ≤ keptSize) : n.InRange := by
  obtain ⟨m, power, hdouble, hword, hclose⟩ := n.double?_eq
  have hsize : (m : ℚ) * 10 ^ power ≤ keptSize * (1 + 1 / 10 ^ 18) := by
    linarith [(abs_le.mp hclose).2]
  have hroom := (mul_le_mul_of_nonneg_right hsize (by positivity)).trans keptSize_room
  rw [InRange, number?, hdouble]
  cases n.int? with
  | some i => simp
  | none =>
    rw [ne_eq, Option.map_eq_none_iff, ← ne_eq, ← Option.isSome_iff_ne_none]
    exact Double.ofDecimal_isSome n.negative hword hroom

/-- Integers are far from the limit. -/
theorem Numeral.int?_eq_none {n : Numeral} (h : lostSize ≤ n.size) : n.int? = none := by
  rw [int?]
  split
  · rename_i hplain
    have hsize : n.size = natOfDigits n.whole := by
      rw [size, hplain.1, hplain.2]
      simp
    have hlarge : 2 ^ 64 < natOfDigits n.whole := by
      have hlost : ((2 ^ 64 : ℕ) : ℚ) < lostSize :=
        calc ((2 ^ 64 : ℕ) : ℚ)
          _ < 1797693134862317 * 10 ^ 20 := by norm_num
          _ ≤ lostSize := by
            rw [lostSize]
            gcongr <;> norm_num
      exact_mod_cast hlost.trans_le (h.trans_eq hsize)
    have hsigned : ¬(1 ≤ natOfDigits n.whole ∧ natOfDigits n.whole ≤ Nat.pow 2 63) :=
      fun hfits => absurd (hfits.2.trans (by decide)) (not_le.mpr hlarge)
    have hunsigned : ¬natOfDigits n.whole < wordLimit :=
      fun hfits => absurd hfits (not_lt.mpr hlarge.le)
    dsimp only
    rw [if_neg hsigned, if_neg hunsigned, ite_self]
  · rfl

theorem Numeral.not_inRange_of_le_size {n : Numeral} (h : lostSize ≤ n.size) : ¬ n.InRange := by
  obtain ⟨m, power, hdouble, hword, hclose⟩ := n.double?_eq
  have hsize : lostSize * (1 - 1 / 10 ^ 18) ≤ (m : ℚ) * 10 ^ power := by
    linarith [(abs_le.mp hclose).1]
  have hroom := lostSize_room.trans (mul_le_mul_of_nonneg_right hsize (by positivity))
  rw [InRange, number?, hdouble, n.int?_eq_none h, Double.ofDecimal_eq_none n.negative hword hroom]
  simp

end Switchboard.Json
