import Mathlib.Data.List.Induction
import Mathlib.Tactic.Ring
import Switchboard.Json.Numeral

/-!
# Digits, written and read

A natural is written without leading zeros, or padded with them to a width; read back it is the
same natural either way. Digits have no closing mark: a reader takes all there are, so where digits
are read back the text behind them must not begin with another.
-/

namespace Switchboard.Json

open Decimal (digitsOf)

/-- The character of a digit. -/
def digitChar (d : Digit) : Char := Char.ofNat (48 + d.val)

theorem digit?_digitChar (d : Digit) : digit? (digitChar d) = some d := by
  revert d
  decide

theorem digitChar_ne {c : Char} (h : digit? c = none) (d : Digit) : digitChar d ≠ c := by
  rintro rfl
  rw [digit?_digitChar] at h
  simp at h

theorem eq_digitChar {c : Char} {d : Digit} (h : digit? c = some d) : c = digitChar d := by
  unfold digit? at h
  split at h
  · rename_i hc
    obtain rfl := Option.some.inj h
    have hlow : 48 ≤ c.toNat := hc.1
    unfold digitChar
    rw [Nat.add_sub_cancel' hlow, Char.ofNat_toNat]
  · simp at h

/-- The text does not begin with a digit. -/
def NoDigit (s : List Char) : Prop := ∀ c ∈ s.head?, digit? c = none

theorem noDigit_cons {c : Char} (h : digit? c = none) (s : List Char) : NoDigit (c :: s) := by
  intro d hd
  obtain rfl := Option.some.inj hd
  exact h

/-! ## Reading -/

theorem eq_of_takeDigits {s r : List Char} {ds : List Digit} (h : takeDigits s = (ds, r)) :
    s = ds.map digitChar ++ r := by
  induction s generalizing ds with
  | nil =>
    obtain ⟨rfl, rfl⟩ := Prod.mk.inj h
    rfl
  | cons c s ih =>
    rw [takeDigits] at h
    split at h
    · obtain ⟨rfl, rfl⟩ := Prod.mk.inj h
      rfl
    · rename_i d hd
      obtain ⟨rfl, rfl⟩ := Prod.mk.inj h
      rw [List.map_cons, List.cons_append, ← ih rfl, ← eq_digitChar hd]

theorem takeDigits_append (ds : List Digit) {r : List Char} (hr : NoDigit r) :
    takeDigits (ds.map digitChar ++ r) = (ds, r) := by
  induction ds with
  | nil =>
    cases r with
    | nil => rfl
    | cons c r => simp [takeDigits, hr c rfl]
  | cons d ds ih => simp [takeDigits, digit?_digitChar, ih]

/-! ## Writing -/

/-- The digits of a whole part: there are some, and a zero stands alone. -/
def IsWhole (ds : List Digit) : Prop :=
  ds ≠ [] ∧ (ds.head?.map Fin.val = some 0 → ds.tail = [])

theorem natOfDigits_append (ds : List Digit) (d : Digit) :
    natOfDigits (ds ++ [d]) = natOfDigits ds * 10 + d.val := by
  simp [natOfDigits]

theorem natOfDigits_append_list (ds es : List Digit) :
    natOfDigits (ds ++ es) = natOfDigits ds * 10 ^ es.length + natOfDigits es := by
  induction es using List.reverseRecOn with
  | nil => simp [natOfDigits]
  | append_singleton es e ih =>
    rw [← List.append_assoc, natOfDigits_append, natOfDigits_append, ih, List.length_append]
    simp only [List.length_singleton]
    ring

theorem natOfDigits_lt (ds : List Digit) : natOfDigits ds < 10 ^ ds.length := by
  induction ds using List.reverseRecOn with
  | nil => simp [natOfDigits]
  | append_singleton ds d ih =>
    rw [natOfDigits_append, List.length_append, List.length_singleton, pow_succ]
    have hd := d.isLt
    omega

theorem natOfDigits_cons (d : Digit) (ds : List Digit) :
    natOfDigits (d :: ds) = d.val * 10 ^ ds.length + natOfDigits ds := by
  have hone : natOfDigits [d] = d.val := by simp [natOfDigits]
  rw [← hone, ← natOfDigits_append_list, List.singleton_append]

theorem natOfDigits_zeros (k : Nat) (ds : List Digit) :
    natOfDigits (List.replicate k 0 ++ ds) = natOfDigits ds := by
  induction k with
  | zero => rfl
  | succ k ih => exact ih

/-- A natural is written as digits that stand for it, without leading zeros. -/
theorem exists_digits (n : Nat) :
    ∃ ds : List Digit, digitsOf n = ds.map digitChar ∧ natOfDigits ds = n ∧ IsWhole ds := by
  have hchar : ∀ d : Digit, Nat.digitChar d.val = digitChar d := by decide
  induction n using Nat.strongRecOn with
  | _ n ih =>
    by_cases hn : n < 10
    · refine ⟨[⟨n, hn⟩], ?_, by simp [natOfDigits], by simp, by simp⟩
      rw [digitsOf, Nat.toDigits_of_lt_base hn]
      exact congrArg ([·]) (hchar ⟨n, hn⟩)
    · obtain ⟨ds, hds, hvalue, hne, hzero⟩ := ih (n / 10) (by omega)
      have hlast : n % 10 < 10 := Nat.mod_lt _ (by decide)
      refine ⟨ds ++ [⟨n % 10, hlast⟩], ?_, ?_, by simp, ?_⟩
      · rw [digitsOf, Nat.toDigits_of_base_le (by decide) (by omega), List.map_append, ← hds]
        exact congrArg (digitsOf (n / 10) ++ [·]) (hchar ⟨n % 10, hlast⟩)
      · rw [natOfDigits_append, hvalue]
        exact Nat.div_add_mod' n 10
      · intro h
        cases ds with
        | nil => exact absurd rfl hne
        | cons d ds =>
          -- the digits before the last would be a lone zero, but they stand for a positive number
          have hd : d.val = 0 := Option.some.inj h
          have hnil : ds = [] := hzero h
          rw [hnil] at hvalue
          simp [natOfDigits, hd] at hvalue
          omega

end Switchboard.Json
