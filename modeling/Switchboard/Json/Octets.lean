import Switchboard.Json.Tree
import Switchboard.Text.Utf8

/-!
# JSON in octets

A JSON text that arrives as octets need not be text throughout: a string that nobody reads may hold
anything but its own delimiters. Everything that is grammar is written in the first 128 characters,
which are single octets, so a tree can be read before the octets are known to be text. What stands
in each string is decoded afterwards, string by string.
-/

namespace Switchboard.Json

open Text (scalarAt)

/-- The octets a spelling starts with, not more than `count`. -/
def Spelling.octets : (count : Nat) → Spelling → List UInt8
  | count + 1, .literal c :: rest => c.toUInt8 :: octets count rest
  | _, _ => []

/--
Decodes a spelling after its first `skip` pieces. Behind its first octet a character takes three
more at the most.
-/
def Spelling.decodeFrom : (skip : Nat) → Spelling → Spelling
  | _, [] => []
  | skip + 1, _ :: rest => decodeFrom skip rest
  | 0, .literal c :: rest =>
    match scalarAt c.toUInt8 (Spelling.octets 3 rest) with
    | some (c, count) => .literal c :: decodeFrom count rest
    | none => .stray c.toUInt8 :: decodeFrom 0 rest
  | 0, p :: rest => p :: decodeFrom 0 rest

/-- Puts characters in the place of the octets that spell them. -/
def Spelling.decode (s : Spelling) : Spelling := decodeFrom 0 s

mutual

/-- Decodes every string of a tree, names included. -/
def Tree.decode : Tree → Tree
  | .text s => .text s.decode
  | .array items => .array (decodeItems items)
  | .object members => .object (decodeMembers members)
  | t => t

def decodeItems : List Tree → List Tree
  | [] => []
  | t :: rest => t.decode :: decodeItems rest

def decodeMembers : List (Spelling × Tree) → List (Spelling × Tree)
  | [] => []
  | (name, t) :: rest => (name.decode, t.decode) :: decodeMembers rest

end

/-- The tree of a text in octets. -/
def Tree.ofOctets? (octets : List UInt8) : Option Tree :=
  (ofChars? (octets.map fun o => Char.ofNat o.toNat)).map Tree.decode

end Switchboard.Json
