/-!
# Octets as text

UTF-8: the character that some octets start with, if they spell one, and the octets of a text.
-/

namespace Switchboard.Text

/-- The six bits of an octet that continues a character. -/
def continuation? (o : UInt8) : Option Nat :=
  if 0x80 ≤ o ∧ o < 0xC0 then some (o.toNat - 0x80) else none

/-- A code point with the bits of some further octets put behind it. -/
def extend (code : Nat) : Nat → List UInt8 → Option Nat
  | 0, _ => some code
  | _ + 1, [] => none
  | count + 1, o :: rest => (continuation? o).bind fun bits => extend (code * 64 + bits) count rest

/--
The character made of some bits and the octets that follow, with the number of those. No shorter
spelling may exist and no half of a surrogate pair be spelled.
-/
def scalarOf (least bits count : Nat) (rest : List UInt8) : Option (Char × Nat) :=
  match extend bits count rest with
  | none => none
  | some code => if least ≤ code ∧ code.isValidChar then some (Char.ofNat code, count) else none

/-- The character that starts with an octet, with the number of octets that continue it. -/
def scalarAt (lead : UInt8) (rest : List UInt8) : Option (Char × Nat) :=
  let n := lead.toNat
  if n < 0x80 then some (Char.ofNat n, 0)
  else if n < 0xC0 then none
  else if n < 0xE0 then scalarOf 0x80 (n - 0xC0) 1 rest
  else if n < 0xF0 then scalarOf 0x800 (n - 0xE0) 2 rest
  else if n < 0xF8 then scalarOf 0x10000 (n - 0xF0) 3 rest
  else none

def utf8 (s : String) : List UInt8 := s.toUTF8.toList

end Switchboard.Text
