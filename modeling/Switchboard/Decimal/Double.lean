/-!
# Double-precision numbers

A finite double is a whole mantissa times a power of two. `Double.nearest` rounds a ratio of
naturals to the closest one, ties to the even mantissa, and every other operation is stated through
it, so all the arithmetic is exact until that one rounding.

A decimal numeral is read in two roundings: its digits become a double, a power of ten becomes a
double, and the product (or quotient) of the two is rounded again. The result can miss the closest
double by one unit; readers of the wire format agree on this result, so it is the rule.
-/

namespace Switchboard.Decimal

/-- The finite double `mantissa * 2 ^ exponent`, negated when `negative` is set. -/
structure Double where
  negative : Bool
  mantissa : Nat
  exponent : Int
  deriving DecidableEq, Repr

def minExponent : Int := -1074

def maxExponent : Int := 971

/-- A quotient rounded to the closest natural, a half going to the even neighbour. -/
def roundDiv (a b : Nat) : Nat :=
  let q := a / b
  let twice := 2 * (a % b)
  if twice < b then q
  else if b < twice then q + 1
  else if q % 2 = 0 then q else q + 1

/-- The ratio `a / (b * 2 ^ e)` as a pair of naturals. -/
def unscale (a b : Nat) (e : Int) : Nat × Nat :=
  if 0 ≤ e then (a, b * Nat.pow 2 e.toNat) else (a * Nat.pow 2 (-e).toNat, b)

namespace Double

def zero (negative : Bool) : Double := ⟨negative, 0, minExponent⟩

/-- The exponent that gives `a / b` a mantissa of 53 bits, or the least one there is. -/
def exponentOf (a b : Nat) : Int :=
  let e := (a.log2 : Int) - b.log2 - 52
  let (x, y) := unscale a b e
  max minExponent (if x < y * Nat.pow 2 52 then e - 1 else e)

/-- The double closest to `a / b`, or nothing when that is past the largest. -/
def nearest (negative : Bool) (a b : Nat) : Option Double :=
  if a = 0 then some (zero negative)
  else
    let e := exponentOf a b
    let (x, y) := unscale a b e
    let m := roundDiv x y
    -- rounding up can carry into a 54th bit, and only to a power of two
    let (m, e) := if m = Nat.pow 2 53 then (Nat.pow 2 52, e + 1) else (m, e)
    if maxExponent < e then none else some ⟨negative, m, e⟩

/-- The size of a double as a ratio of naturals. -/
def ratio (d : Double) : Nat × Nat :=
  if 0 ≤ d.exponent then (d.mantissa * Nat.pow 2 d.exponent.toNat, 1)
  else (d.mantissa, Nat.pow 2 (-d.exponent).toNat)

/-- The product of two sizes, rounded, with the sign of the first. -/
def times (d p : Double) : Option Double :=
  nearest d.negative (d.ratio.1 * p.ratio.1) (d.ratio.2 * p.ratio.2)

/-- The quotient of two sizes, rounded, with the sign of the first. -/
def dividedBy (d p : Double) : Option Double :=
  nearest d.negative (d.ratio.1 * p.ratio.2) (d.ratio.2 * p.ratio.1)

/-- The double closest to a power of ten; there is one up to `10 ^ 308`. -/
@[irreducible]
def tenTo (k : Nat) : Double := (nearest false (Nat.pow 10 k) 1).getD (zero false)

/-- The largest power of ten that is applied in one step. -/
def tenLimit : Nat := 308

/-- A double divided by the largest power of ten, a number of times over. -/
def lower : Nat → Double → Option Double
  | 0, d => some d
  | n + 1, d =>
    -- zero stays zero, so an exponent of any size ends here after a few steps
    if d.mantissa = 0 then some d else (d.dividedBy (tenTo tenLimit)).bind (lower n)

/-- A double moved by a power of ten, at most `tenLimit` places in one step. -/
def shift (d : Double) (power : Int) : Option Double :=
  if d.mantissa = 0 then some d
  else if (tenLimit : Int) < power then none
  else if 0 ≤ power then d.times (tenTo power.toNat)
  else
    let p := (-power).toNat
    let steps := (p - 1) / tenLimit
    (d.lower steps).bind fun d => d.dividedBy (tenTo (p - steps * tenLimit))

/-- A numeral's digits, taken as a whole number, times a power of ten. -/
def ofDecimal (negative : Bool) (digits : Nat) (power : Int) : Option Double :=
  match nearest negative digits 1 with
  | none => none
  | some d => d.shift power

end Double

end Switchboard.Decimal
