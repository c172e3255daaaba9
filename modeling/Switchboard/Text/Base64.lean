/-!
# Base64 for addresses

Octets in the alphabet that is safe in addresses, without padding. Reading is strict: no other
character, no length that cannot arise, and no bits set that stand for nothing.
-/

namespace Switchboard.Text

/-- The six bits a character stands for. -/
def sextet? (c : Char) : Option Nat :=
  if 'A' ≤ c ∧ c ≤ 'Z' then some (c.toNat - 65)
  else if 'a' ≤ c ∧ c ≤ 'z' then some (c.toNat - 71)
  else if '0' ≤ c ∧ c ≤ '9' then some (c.toNat + 4)
  else if c = '-' then some 62
  else if c = '_' then some 63
  else none

/-- The octets of a list of sextets: four give three, three give two and two give one. -/
def joinSextets : List Nat → Option (List UInt8)
  | a :: b :: c :: d :: rest =>
    (joinSextets rest).map fun octets =>
      UInt8.ofNat (a * 4 + b / 16) :: UInt8.ofNat (b * 16 + c / 4) :: UInt8.ofNat (c * 64 + d) ::
        octets
  | [a, b, c] =>
    if c % 4 = 0 then some [UInt8.ofNat (a * 4 + b / 16), UInt8.ofNat (b * 16 + c / 4)] else none
  | [a, b] => if b % 16 = 0 then some [UInt8.ofNat (a * 4 + b / 16)] else none
  | [_] => none
  | [] => some []

/-- The octets that a text stands for. -/
def base64Octets? (s : List Char) : Option (List UInt8) := (s.mapM sextet?).bind joinSextets

end Switchboard.Text
