import Switchboard.Decimal.Double

/-!
# Shortest decimals

The decimal with the fewest digits that reads back as a given double, and of those the closest.
The reals that round to a double form an interval around it, closed when the mantissa is even. For
each digit count the two grid points next to the double are tried; the first count with a hit wins.
-/

namespace Switchboard.Decimal

/-- The decimal `digits * 10 ^ power`. -/
structure Scientific where
  digits : Nat
  power : Int
  deriving DecidableEq, Repr

/-- Twice the distance from a double to the interval's lower end, in quarters of its last place. -/
def lowerQuarters (d : Double) : Nat :=
  if d.mantissa = Nat.pow 2 52 ∧ minExponent < d.exponent then 1 else 2

/-- Whether the ratio `a / b` lies among the reals that round to the double's size. -/
def roundsTo (d : Double) (a b : Nat) : Bool :=
  -- in quarters of the last place the interval is `4 m - lowerQuarters .. 4 m + 2`
  let (x, y) := unscale (4 * a) b d.exponent
  let low := (4 * d.mantissa - lowerQuarters d) * y
  let high := (4 * d.mantissa + 2) * y
  if d.mantissa % 2 = 0 then low ≤ x && x ≤ high else low < x && x < high

/-- How many digits the whole part of `a / b` has; negative counts the zeros after the point. -/
def decimalPoint (a b : Nat) : Int :=
  -- a first guess from the binary length is off by at most one on either side
  let guess := ((a.log2 : Int) - b.log2) * 1233 / 4096
  let below (k : Int) : Bool :=
    if 0 ≤ k then a < b * Nat.pow 10 k.toNat else a * Nat.pow 10 (-k).toNat < b
  if below (guess - 1) then guess - 1
  else if below guess then guess
  else if below (guess + 1) then guess + 1
  else guess + 2

/-- The ratio `n * 10 ^ p` as a pair of naturals. -/
def gridPoint (n : Nat) (p : Int) : Nat × Nat :=
  if 0 ≤ p then (n * Nat.pow 10 p.toNat, 1) else (n, Nat.pow 10 (-p).toNat)

/-- The grid points on either side of the double that read back as it, the closer one first. -/
def hits (d : Double) (p : Int) : List Nat :=
  let (a, b) := d.ratio
  let (x, y) := if 0 ≤ p then (a, b * Nat.pow 10 p.toNat) else (a * Nat.pow 10 (-p).toNat, b)
  let n := x / y
  let twice := 2 * (x % y)
  let closerFirst :=
    if twice < y then [n, n + 1]
    else if y < twice then [n + 1, n]
    else if n % 2 = 0 then [n, n + 1] else [n + 1, n]
  closerFirst.filter fun n =>
    let (u, v) := gridPoint n p
    roundsTo d u v

/-- Drops the zeros a digit string ends with into the power. -/
def Scientific.trim (s : Scientific) : Scientific :=
  if s.digits ≠ 0 ∧ s.digits % 10 = 0 then trim ⟨s.digits / 10, s.power + 1⟩ else s
termination_by s.digits
decreasing_by rename_i h; exact Nat.div_lt_self (Nat.pos_of_ne_zero h.1) (by decide)

/-- Tries grids of `count` digits and more, at most `left` of them. -/
def searchGrids (d : Double) (point : Int) (count : Nat) : Nat → Scientific
  | 0 => ⟨0, 0⟩
  | left + 1 =>
    match hits d (point - count) with
    | n :: _ => Scientific.trim ⟨n, point - count⟩
    | [] => searchGrids d point (count + 1) left

/-- The fewest digits that read back as a double's size, the closest such. -/
def shortest (d : Double) : Scientific :=
  if d.mantissa = 0 then ⟨0, 0⟩
  else
    -- seventeen digits always suffice
    searchGrids d (decimalPoint d.ratio.1 d.ratio.2) 1 17

def digitsOf (n : Nat) : List Char := Nat.toDigits 10 n

/--
Writes a double: at least one digit on both sides of the point, positional from `0.00001` up to
sixteen digits before the point, and scientific with a signed exponent outside.
-/
def Double.render (d : Double) : List Char :=
  let s := shortest d
  let ds := digitsOf s.digits
  -- the value is `0.ds * 10 ^ point`
  let point : Int := ds.length + s.power
  let body :=
    if d.mantissa = 0 then ['0', '.', '0']
    else if 0 ≤ s.power ∧ point ≤ 16 then ds ++ List.replicate s.power.toNat '0' ++ ['.', '0']
    else if 0 < point ∧ point ≤ 16 then ds.take point.toNat ++ '.' :: ds.drop point.toNat
    else if -5 < point ∧ point ≤ 0 then '0' :: '.' :: List.replicate (-point).toNat '0' ++ ds
    else
      let tail := match ds with
        | [] => []
        | [c] => [c]
        | c :: rest => c :: '.' :: rest
      let e := point - 1
      tail ++ 'e' :: (if e < 0 then '-' else '+') :: digitsOf e.natAbs
  if d.negative then '-' :: body else body

end Switchboard.Decimal
