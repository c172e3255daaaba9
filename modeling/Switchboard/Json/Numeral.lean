import Switchboard.Decimal.Shortest

/-!
# Numbers

A JSON number as it is spelled, and as it is understood. A whole numeral that fits in 64 bits,
signed or unsigned, is an integer; every other numeral is a double. Reading a spelling only checks
the grammar, so a numeral too large for a double is still a numeral.
-/

namespace Switchboard.Json

open Decimal

abbrev Digit := Fin 10

def digit? (c : Char) : Option Digit :=
  if h : '0' ≤ c ∧ c ≤ '9' then
    some ⟨c.toNat - 48, by
      have h9 : c.toNat ≤ 57 := h.2
      omega⟩
  else none

/-- The digits a text starts with, and the text after them. -/
def takeDigits : List Char → List Digit × List Char
  | [] => ([], [])
  | c :: rest =>
    match digit? c with
    | none => ([], c :: rest)
    | some d =>
      let (ds, rest) := takeDigits rest
      (d :: ds, rest)

/-- The natural a digit string stands for. -/
def natOfDigits (ds : List Digit) : Nat := ds.foldl (fun n d => n * 10 + d.val) 0

/-- A number as spelled: its digits before and after the point, and its power of ten. -/
structure Numeral where
  negative : Bool
  whole : List Digit
  /-- Empty when there is no point. -/
  fraction : List Digit
  exponent : Option Int
  deriving DecidableEq, Repr

/-- A number as understood. -/
inductive Number where
  | int (value : Int)
  | real (value : Double)
  deriving DecidableEq, Repr

/-! ## Reading a spelling -/

/-- The digits of the whole part: a zero stands alone. -/
def takeWhole (s : List Char) : Option (List Digit × List Char) :=
  match takeDigits s with
  | ([], _) => none
  | (d :: ds, rest) => if d = 0 ∧ ds ≠ [] then none else some (d :: ds, rest)

/-- The digits after a point, when there is one. -/
def takeFraction : List Char → Option (List Digit × List Char)
  | '.' :: rest =>
    match takeDigits rest with
    | ([], _) => none
    | (ds, rest) => some (ds, rest)
  | s => some ([], s)

/-- The digits of an exponent as a signed number. -/
def takePower (negative : Bool) (s : List Char) : Option (Option Int × List Char) :=
  match takeDigits s with
  | ([], _) => none
  | (ds, rest) =>
    let n : Int := natOfDigits ds
    some (some (if negative then -n else n), rest)

def takeExponent : List Char → Option (Option Int × List Char)
  | c :: rest =>
    if c = 'e' ∨ c = 'E' then
      match rest with
      | '-' :: rest => takePower true rest
      | '+' :: rest => takePower false rest
      | rest => takePower false rest
    else some (none, c :: rest)
  | [] => some (none, [])

/-- The parts of a number after its sign. -/
def Numeral.readUnsigned (negative : Bool) (s : List Char) : Option (Numeral × List Char) :=
  match takeWhole s with
  | none => none
  | some (whole, s) =>
    match takeFraction s with
    | none => none
    | some (fraction, s) =>
      match takeExponent s with
      | none => none
      | some (exponent, s) => some (⟨negative, whole, fraction, exponent⟩, s)

/-- The number a text starts with, and the text after it. -/
def Numeral.read : List Char → Option (Numeral × List Char)
  | '-' :: rest => readUnsigned true rest
  | s => readUnsigned false s

/-! ## Reading never lengthens the text -/

theorem length_takeDigits (s : List Char) :
    (takeDigits s).1.length + (takeDigits s).2.length = s.length := by
  induction s with
  | nil => rfl
  | cons c rest ih =>
    simp only [takeDigits]
    split
    · simp
    · simp; omega

theorem takeWhole_shorter {s r : List Char} {ds : List Digit} (h : takeWhole s = some (ds, r)) :
    r.length < s.length := by
  have hl := length_takeDigits s
  revert h
  unfold takeWhole
  split
  · simp
  · rename_i d ds' rest heq
    rw [heq] at hl
    split
    · simp
    · intro h
      simp at h hl
      obtain ⟨-, rfl⟩ := h
      omega

theorem takeFraction_le {s r : List Char} {ds : List Digit}
    (h : takeFraction s = some (ds, r)) : r.length ≤ s.length := by
  unfold takeFraction at h
  split at h
  · rename_i rest
    have hl := length_takeDigits rest
    split at h
    · simp at h
    · rename_i ds' rest' _ heq
      rw [heq] at hl
      simp at h hl
      obtain ⟨-, rfl⟩ := h
      simp; omega
  · simp at h; obtain ⟨-, rfl⟩ := h; exact Nat.le_refl _

theorem takePower_le {b : Bool} {s r : List Char} {e : Option Int}
    (h : takePower b s = some (e, r)) : r.length ≤ s.length := by
  have hl := length_takeDigits s
  unfold takePower at h
  split at h
  · simp at h
  · rename_i ds rest _ heq
    rw [heq] at hl
    simp at h hl
    obtain ⟨-, rfl⟩ := h
    omega

theorem takeExponent_le {s r : List Char} {e : Option Int}
    (h : takeExponent s = some (e, r)) : r.length ≤ s.length := by
  unfold takeExponent at h
  split at h
  · split at h
    · split at h
      · have := takePower_le h; simp; omega
      · have := takePower_le h; simp; omega
      · have := takePower_le h; simp; omega
    · simp at h; obtain ⟨-, rfl⟩ := h; exact Nat.le_refl _
  · simp at h; obtain ⟨-, rfl⟩ := h; exact Nat.le_refl _

theorem Numeral.readUnsigned_shorter {b : Bool} {s r : List Char} {n : Numeral}
    (h : readUnsigned b s = some (n, r)) : r.length < s.length := by
  unfold readUnsigned at h
  split at h
  · simp at h
  · rename_i h1
    split at h
    · simp at h
    · rename_i h2
      split at h
      · simp at h
      · rename_i h3
        simp at h
        obtain ⟨-, rfl⟩ := h
        have := takeWhole_shorter h1
        have := takeFraction_le h2
        have := takeExponent_le h3
        omega

theorem Numeral.read_shorter {s r : List Char} {n : Numeral} (h : read s = some (n, r)) :
    r.length < s.length := by
  unfold read at h
  split at h
  · have := readUnsigned_shorter h; simp; omega
  · exact readUnsigned_shorter h

/-! ## Understanding it -/

/-- The least natural that does not fit in 64 bits. -/
def wordLimit : Nat := Nat.pow 2 64

/-- The integer a numeral without a fraction or an exponent stands for, when 64 bits hold it. -/
def Numeral.int? (n : Numeral) : Option Int :=
  if n.fraction = [] ∧ n.exponent = none then
    let size := natOfDigits n.whole
    -- a negative zero is kept apart from zero, so it is no integer
    if n.negative then
      if 1 ≤ size ∧ size ≤ Nat.pow 2 63 then some (-(size : Int)) else none
    else if size < wordLimit then some size else none
  else none

/--
The digits of a significand that fit in 64 bits: the number they make, how many were taken, and how
many were left.
-/
def gather (n : Nat) : List Digit → Nat × Nat × Nat
  | [] => (n, 0, 0)
  | d :: ds =>
    if n * 10 + d.val < wordLimit then
      let (m, taken, left) := gather (n * 10 + d.val) ds
      (m, taken + 1, left)
    else (n, 0, ds.length + 1)

/-- The double a numeral stands for, or nothing when it is past the largest. -/
def Numeral.double? (n : Numeral) : Option Double :=
  let (m, _, dropped) := gather 0 n.whole
  let (m, taken, _) := gather m n.fraction
  Double.ofDecimal n.negative m ((dropped : Int) - taken + n.exponent.getD 0)

/-- The number a numeral stands for, or nothing when no double is large enough. -/
def Numeral.number? (n : Numeral) : Option Number :=
  match n.int? with
  | some i => some (.int i)
  | none => n.double?.map .real

def Number.render : Number → List Char
  | .int i => if i < 0 then '-' :: digitsOf i.natAbs else digitsOf i.natAbs
  | .real d => d.render

end Switchboard.Json
