import Mathlib.Algebra.Group.Nat.Defs
import Switchboard.Proofs.Digits
import Switchboard.Time.Reader

/-!
# Timestamps are read back as written

The reader of timestamps is more lenient than the writer: it passes over blanks and takes numbers
with fewer digits than the writer pads them to. What is written has no blanks and all its digits,
so each part is read back on its own, and the offset is none. And whatever the reader takes, what it
makes of it is a moment of the calendar and the clock, so it can be written and read again.
-/

namespace Switchboard.Time

open Json (Digit digitChar natOfDigits NoDigit noDigit_cons digit?_digitChar digitChar_ne digit?)
open Decimal (digitsOf)
open Text (isBlank dropBlanks)

/-- The calendar and the clock have the moment, and its nanoseconds are less than a second. -/
structure Timestamp.IsMoment (t : Timestamp) : Prop where
  valid : t.isValid = true
  nano : t.nano < 10 ^ 9

/-! ## Numbers -/

/-- A padded number has at least one digit, and as many as its width when it fits. -/
theorem exists_padded {width : Nat} (hwidth : 0 < width) (n : Nat) :
    ∃ d ds, padded width n = digitChar d :: ds.map digitChar ∧ natOfDigits (d :: ds) = n ∧
      (n < 10 ^ width → (d :: ds).length = width) := by
  obtain ⟨es, hchars, hvalue, hwhole⟩ := Json.exists_digits n
  have hlength : es.length = (digitsOf n).length := by rw [hchars, List.length_map]
  have hpadded : padded width n = (List.replicate (width - es.length) 0 ++ es).map digitChar := by
    rw [padded, hlength, hchars, List.map_append, List.map_replicate]
    rfl
  rw [← Json.natOfDigits_zeros (width - es.length)] at hvalue
  have hwidth' : n < 10 ^ width → (List.replicate (width - es.length) 0 ++ es).length = width := by
    intro hn
    have hle := (Nat.length_toDigits_le_iff (b := 10) (by decide) hwidth).mpr hn
    rw [digitsOf] at hlength
    rw [List.length_append, List.length_replicate]
    omega
  cases hds : List.replicate (width - es.length) 0 ++ es with
  | nil => exact absurd (List.append_eq_nil_iff.mp hds).2 hwhole.1
  | cons d ds =>
    rw [hds] at hpadded hvalue hwidth'
    exact ⟨d, ds, hpadded, hvalue, hwidth'⟩

theorem isBlank_digitChar (d : Digit) : isBlank (digitChar d) = false := by
  revert d
  decide

theorem dropBlanks_of_head {c : Char} (hc : isBlank c = false) (s : List Char) :
    dropBlanks (c :: s) = c :: s := by
  simp [dropBlanks, hc]

theorem takeSome_append (ds : List Digit) (r : List Char) :
    takeSome ds.length (ds.map digitChar ++ r) = (ds, r) := by
  induction ds with
  | nil => rfl
  | cons d ds ih => simp [takeSome, digit?_digitChar, ih]

/-- No blank stands before a padded number. -/
theorem dropBlanks_padded {width : Nat} (hwidth : 0 < width) (n : Nat) (r : List Char) :
    dropBlanks (padded width n ++ r) = padded width n ++ r := by
  obtain ⟨d, ds, hchars, -⟩ := exists_padded hwidth n
  rw [hchars]
  exact dropBlanks_of_head (isBlank_digitChar d) _

/-- A number padded to as many digits as are taken is read back. -/
theorem takeNumber_padded {width n : Nat} (hwidth : 0 < width) (hn : n < 10 ^ width)
    (r : List Char) : takeNumber width (padded width n ++ r) = some (n, r) := by
  obtain ⟨d, ds, hchars, hvalue, hlength⟩ := exists_padded hwidth n
  have htake := takeSome_append (d :: ds) r
  rw [hlength hn, List.map_cons, ← hchars] at htake
  rw [takeNumber, htake]
  simp only [hvalue]

theorem takeField_padded {n : Nat} (hn : n < 100) (r : List Char) :
    takeField (padded 2 n ++ r) = some (n, r) := by
  rw [takeField, dropBlanks_padded (by decide)]
  exact takeNumber_padded (by decide) hn r

theorem takeMark_self {c : Char} (hc : isBlank c = false) (r : List Char) :
    takeMark c (c :: r) = some r := by
  rw [takeMark, dropBlanks_of_head hc]
  simp

/-! ## Years -/

theorem takeLong_padded {width n : Nat} (hwidth : 0 < width) {r : List Char} (hr : NoDigit r) :
    takeLong (padded width n ++ r) = some (n, r) := by
  obtain ⟨d, ds, hchars, hvalue, -⟩ := exists_padded hwidth n
  have htake := Json.takeDigits_append (d :: ds) hr
  rw [List.map_cons, ← hchars] at htake
  rw [takeLong, htake]
  simp only [hvalue]

theorem takeYear_padded {width n : Nat} (hwidth : 0 < width) (r : List Char) :
    takeYear (padded width n ++ r) =
      (takeNumber 4 (padded width n ++ r)).map fun p => ((p.1 : Int), p.2) := by
  obtain ⟨d, ds, hchars, -⟩ := exists_padded hwidth n
  rw [takeYear, dropBlanks_padded hwidth, hchars, List.cons_append]
  -- the first digit is not taken for a sign
  split
  · rename_i heq
    exact absurd (List.cons.inj heq).1 (digitChar_ne (by decide) d)
  · rename_i heq
    exact absurd (List.cons.inj heq).1 (digitChar_ne (by decide) d)
  · rfl

theorem takeYear_renderYear (year : Int) {r : List Char} (hr : NoDigit r) :
    takeYear (renderYear year ++ r) = some (year, r) := by
  unfold renderYear
  split
  · rename_i hyear
    have hn : year.toNat < 10 ^ 4 := by omega
    rw [takeYear_padded (by decide), takeNumber_padded (by decide) hn, Option.map_some,
      Int.toNat_of_nonneg hyear.1]
  · rename_i hyear
    have hlong : takeLong (padded 4 year.natAbs ++ r) = some (year.natAbs, r) :=
      takeLong_padded (by decide) hr
    by_cases hneg : year < 0
    · rw [if_pos hneg, List.cons_append, takeYear, dropBlanks_of_head (by decide)]
      simp only [hlong, Option.map_some]
      rw [Int.ofNat_natAbs_of_nonpos (Int.le_of_lt hneg), Int.neg_neg]
    · rw [if_neg hneg, List.cons_append, takeYear, dropBlanks_of_head (by decide)]
      simp only [hlong, Option.map_some]
      rw [Int.natAbs_of_nonneg (Int.not_lt.mp hneg)]

/-! ## Fractions of a second -/

theorem takeNanos_padded {width n : Nat} (hwidth : 0 < width) (hmost : width ≤ 9)
    (hn : n < 10 ^ width) {r : List Char} (hr : NoDigit r) :
    takeNanos ('.' :: (padded width n ++ r)) = some (n * 10 ^ (9 - width), r) := by
  obtain ⟨d, ds, hchars, hvalue, hlength⟩ := exists_padded hwidth n
  have hall : (d :: ds).take 9 = d :: ds :=
    List.take_of_length_le (by rw [hlength hn]; exact hmost)
  have htake := Json.takeDigits_append (d :: ds) hr
  rw [List.map_cons, ← hchars] at htake
  rw [takeNanos, htake]
  simp only [hall, hvalue, hlength hn]
  rfl

theorem takeNanos_renderFraction {nano : Nat} (h : nano < 10 ^ 9) :
    takeNanos (renderFraction nano ++ ['Z']) = some (nano, ['Z']) := by
  have hz : NoDigit ['Z'] := noDigit_cons (by decide) _
  unfold renderFraction
  split
  · rename_i hzero
    rw [hzero]
    rfl
  split
  · rename_i hmilli
    rw [List.cons_append, takeNanos_padded (by decide) (by decide) (by omega) hz]
    congr 2
    omega
  split
  · rename_i hmicro
    rw [List.cons_append, takeNanos_padded (by decide) (by decide) (by omega) hz]
    congr 2
    omega
  · rw [List.cons_append, takeNanos_padded (by decide) (by decide) h hz, Nat.sub_self, Nat.pow_zero,
      Nat.mul_one]

/-! ## The whole timestamp -/

theorem Timestamp.IsMoment.bounds {t : Timestamp} (h : t.IsMoment) :
    t.date.isValid = true ∧ t.hour ≤ 23 ∧ t.minute ≤ 59 ∧ t.second ≤ 60 := by
  simpa [Timestamp.isValid, and_assoc] using h.valid

theorem Date.bounds {d : Date} (h : d.isValid = true) : d.month < 100 ∧ d.day < 100 := by
  have hdays : ∀ year month, daysInMonth year month ≤ 31 := by
    intro year month
    unfold daysInMonth
    split
    · split <;> decide
    all_goals decide
  have hday := hdays d.year d.month
  simp only [Date.isValid, Bool.and_eq_true, decide_eq_true_eq] at h
  omega

theorem takeDate_render {d : Date} (h : d.isValid = true) (r : List Char) :
    takeDate (d.render ++ r) = some (d, r) := by
  obtain ⟨hmonth, hday⟩ := Date.bounds h
  have hyear := takeYear_renderYear d.year
    (noDigit_cons (c := '-') (by decide) (padded 2 d.month ++ '-' :: (padded 2 d.day ++ r)))
  simp [takeDate, Date.render, hyear, takeMark_self (c := '-') (by decide), takeField_padded hmonth,
    takeField_padded hday]

theorem Timestamp.earlier_zero {t : Timestamp} (hhour : t.hour ≤ 23) (hminute : t.minute ≤ 59) :
    t.earlier 0 = t := by
  have hlow : ¬ (t.hour * 60 + t.minute - 0 : Int) < 0 := by omega
  have hhigh : ¬ minutesPerDay ≤ (t.hour * 60 + t.minute - 0 : Int) := by
    unfold minutesPerDay
    omega
  have hdiv : ((t.hour * 60 + t.minute - 0 : Int) / 60).toNat = t.hour := by omega
  have hmod : ((t.hour * 60 + t.minute - 0 : Int) % 60).toNat = t.minute := by omega
  simp only [Timestamp.earlier, if_neg hlow, if_neg hhigh, hdiv, hmod]

theorem takeTime_render {t : Timestamp} (h : t.IsMoment) (d : Date) :
    takeTime d (padded 2 t.hour ++ ':' :: (padded 2 t.minute ++ ':' :: (padded 2 t.second ++
        (renderFraction t.nano ++ ['Z'])))) =
      some (⟨d, t.hour, t.minute, t.second, t.nano⟩, ['Z']) := by
  obtain ⟨-, hhour, hminute, hsecond⟩ := h.bounds
  simp [takeTime, takeMark_self (c := ':') (by decide), takeField_padded (n := t.hour) (by omega),
    takeField_padded (n := t.minute) (by omega), takeField_padded (n := t.second) (by omega),
    takeNanos_renderFraction h.nano]

/-- A moment is read back as written. -/
theorem Timestamp.ofText?_toText {t : Timestamp} (h : t.IsMoment) :
    Timestamp.ofText? t.toText = some t := by
  obtain ⟨hdate, hhour, hminute, -⟩ := h.bounds
  have hrender : t.render = t.date.render ++ 'T' :: (padded 2 t.hour ++ ':' ::
      (padded 2 t.minute ++ ':' :: (padded 2 t.second ++ (renderFraction t.nano ++ ['Z'])))) := by
    simp [Timestamp.render]
  have hoffset : takeOffset (dropBlanks ['Z']) = some (0, []) := rfl
  have hvalid : (!Text.isAllBlank [] || !t.isValid) = false := by
    rw [h.valid]
    rfl
  have hearlier := Timestamp.earlier_zero hhour hminute
  rw [Timestamp.ofText?, Timestamp.toText, String.toList_ofList, Timestamp.read?, hrender,
    takeDate_render hdate]
  simp only [Option.bind_eq_bind, Option.bind_some, takeDivider, takeTime_render h, hoffset]
  rw [if_neg (by rw [hvalid]; decide), hearlier, if_pos hdate]
  rfl

/-! ## What is read is a moment -/

/-- Nine digits of a fraction are less than a second, and fewer are scaled up to nine. -/
theorem takeNanos_lt {s r : List Char} {nano : Nat} (h : takeNanos s = some (nano, r)) :
    nano < 10 ^ 9 := by
  unfold takeNanos at h
  split at h
  · split at h
    · cases h
    · rename_i ds r' _ _
      obtain ⟨rfl, -⟩ := Prod.mk.inj (Option.some.inj h)
      have hlength : (ds.take 9).length ≤ 9 := List.length_take_le 9 ds
      calc natOfDigits (ds.take 9) * 10 ^ (9 - (ds.take 9).length)
          < 10 ^ (ds.take 9).length * 10 ^ (9 - (ds.take 9).length) :=
            Nat.mul_lt_mul_of_pos_right (Json.natOfDigits_lt _) (Nat.pow_pos (by decide))
        _ = 10 ^ 9 := by rw [← Nat.pow_add, Nat.add_sub_cancel' hlength]
  · obtain ⟨rfl, -⟩ := Prod.mk.inj (Option.some.inj h)
    decide

theorem takeTime_nano {d : Date} {s r : List Char} {t : Timestamp}
    (h : takeTime d s = some (t, r)) : t.nano < 10 ^ 9 := by
  simp only [takeTime, Option.bind_eq_bind, Option.bind_eq_some_iff, Option.pure_def,
    Option.some.injEq, Prod.mk.injEq, Prod.exists] at h
  obtain ⟨_, _, _, _, _, _, _, _, _, _, _, _, _, _, _, hnano, rfl, -⟩ := h
  exact takeNanos_lt hnano

theorem takeMinutes_lt {s r : List Char} {minutes : Int} (h : takeMinutes s = some (minutes, r)) :
    0 ≤ minutes ∧ minutes < minutesPerDay := by
  simp only [takeMinutes, Option.bind_eq_bind, Option.bind_eq_some_iff, Option.pure_def,
    Prod.exists] at h
  obtain ⟨hour, _, _, minute, _, _, h⟩ := h
  split at h
  · rename_i hbound
    obtain ⟨rfl, -⟩ := Prod.mk.inj (Option.some.inj h)
    unfold minutesPerDay
    omega
  · cases h

/-- An offset is less than a day either way. -/
theorem takeOffset_bounds {s r : List Char} {minutes : Int}
    (h : takeOffset s = some (minutes, r)) :
    -minutesPerDay < minutes ∧ minutes < minutesPerDay := by
  have hzero : -minutesPerDay < 0 ∧ 0 < minutesPerDay := by decide
  have hnegative : ∀ s r : List Char, ∀ minutes : Int,
      ((takeMinutes s).map fun p => (-p.1, p.2)) = some (minutes, r) →
        -minutesPerDay < minutes ∧ minutes < minutesPerDay := by
    intro s r minutes h
    obtain ⟨⟨m, _⟩, hm, heq⟩ := Option.map_eq_some_iff.mp h
    obtain ⟨rfl, -⟩ := Prod.mk.inj heq
    have hbound := takeMinutes_lt hm
    dsimp only
    omega
  unfold takeOffset at h
  split at h
  · obtain ⟨rfl, -⟩ := Prod.mk.inj (Option.some.inj h)
    exact hzero
  · obtain ⟨rfl, -⟩ := Prod.mk.inj (Option.some.inj h)
    exact hzero
  · have hbound := takeMinutes_lt h
    omega
  · exact hnegative _ _ _ h
  · exact hnegative _ _ _ h
  · split at h
    · obtain ⟨rfl, -⟩ := Prod.mk.inj (Option.some.inj h)
      exact hzero
    · cases h
  · cases h

/-- A moment is brought to another offset on the clock; only its date can leave the calendar. -/
theorem Timestamp.IsMoment.earlier {t : Timestamp} (h : t.IsMoment) {minutes : Int}
    (hminutes : -minutesPerDay < minutes ∧ minutes < minutesPerDay)
    (hdate : (t.earlier minutes).date.isValid = true) : (t.earlier minutes).IsMoment := by
  obtain ⟨-, hhour, hminute, hsecond⟩ := h.bounds
  have hclock : (t.earlier minutes).hour ≤ 23 ∧ (t.earlier minutes).minute ≤ 59 := by
    unfold minutesPerDay at hminutes
    unfold Timestamp.earlier minutesPerDay
    dsimp only
    split_ifs <;> dsimp only <;> omega
  refine ⟨?_, h.nano⟩
  simp only [Timestamp.isValid, Bool.and_eq_true, decide_eq_true_eq]
  exact ⟨⟨⟨hdate, hclock.1⟩, hclock.2⟩, hsecond⟩

/-- Whatever is read as a timestamp is a moment, in universal time. -/
theorem Timestamp.isMoment_of_ofText? {s : String} {t : Timestamp}
    (h : Timestamp.ofText? s = some t) : t.IsMoment := by
  simp only [Timestamp.ofText?, Timestamp.read?, Option.bind_eq_bind, Option.bind_eq_some_iff,
    Option.pure_def, Prod.exists] at h
  obtain ⟨date, _, -, _, -, u, _, htime, offset, rest, hoffset, h⟩ := h
  split at h
  · cases h
  · rename_i hvalid
    split at h
    · rename_i hdate
      obtain rfl := Option.some.inj h
      have hread : Text.isAllBlank rest = true ∧ u.isValid = true := by simpa using hvalid
      have hu : u.IsMoment := ⟨hread.2, takeTime_nano htime⟩
      exact hu.earlier (takeOffset_bounds hoffset) hdate
    · cases h

end Switchboard.Time
