import Switchboard.Text.Hex

/-!
# Strings as they are spelled

Between its quotes a JSON string is a list of pieces. A `\u` escape may spell half of a surrogate
pair, which is no character; two halves in a row make one. A spelling with a half left over, or with
an octet that belongs to no character, is good grammar but stands for no text, and the difference
shows: a reader that only skips a string accepts it, a reader that wants its text does not.
-/

namespace Switchboard.Json

open Text (hexValue? hexDigit)

/-- A part of a spelled string that cannot be taken apart. -/
inductive Piece where
  /-- A character that stands for itself. -/
  | literal (c : Char)
  /-- A character that is spelled by an escape. -/
  | escaped (c : Char)
  /-- One half of a surrogate pair. -/
  | half (unit : Nat)
  /-- An octet that is part of no character. -/
  | stray (octet : UInt8)
  deriving DecidableEq, Repr

/-- What stands between the quotes of a string. -/
abbrev Spelling := List Piece

/-- The code unit four hexadecimal digits spell. -/
def unit? (a b c d : Char) : Option Nat := do
  let a ← hexValue? a
  let b ← hexValue? b
  let c ← hexValue? c
  let d ← hexValue? d
  return ((a * 16 + b) * 16 + c) * 16 + d

/-- Holds of the first half of a surrogate pair. -/
def isHigh (unit : Nat) : Bool := 0xD800 ≤ unit && unit < 0xDC00

/-- Holds of the second half of a surrogate pair. -/
def isLow (unit : Nat) : Bool := 0xDC00 ≤ unit && unit < 0xE000

/-- A code unit stands for a character unless it is half of a pair. -/
def Piece.ofUnit (unit : Nat) : Piece :=
  if isHigh unit || isLow unit then .half unit else .escaped (Char.ofNat unit)

/-- The character a one-letter escape stands for. -/
def escaped? : Char → Option Char
  | '"' => some '"'
  | '\\' => some '\\'
  | '/' => some '/'
  | 'b' => some '\x08'
  | 'f' => some '\x0c'
  | 'n' => some '\n'
  | 'r' => some '\r'
  | 't' => some '\t'
  | _ => none

/-- Holds of the characters a string has to escape. -/
def isControl (c : Char) : Bool := c.toNat < 0x20

/-- Reads up to the closing quote; gives the pieces and the text after the quote. -/
def Spelling.read : List Char → Option (Spelling × List Char)
  | [] => none
  | '"' :: rest => some ([], rest)
  | '\\' :: 'u' :: a :: b :: c :: d :: rest =>
    match unit? a b c d with
    | none => none
    | some unit => (read rest).map fun (ps, rest) => (Piece.ofUnit unit :: ps, rest)
  | '\\' :: e :: rest =>
    match escaped? e with
    | none => none
    | some c => (read rest).map fun (ps, rest) => (.escaped c :: ps, rest)
  | c :: rest =>
    if isControl c || c == '\\' then none
    else (read rest).map fun (ps, rest) => (.literal c :: ps, rest)

theorem Spelling.read_shorter {s r : List Char} {ps : Spelling} (h : read s = some (ps, r)) :
    r.length < s.length := by
  fun_induction read s generalizing ps r with
  | case1 => simp at h
  | case2 rest => simp at h; obtain ⟨-, rfl⟩ := h; simp
  | case3 => simp at h
  | case4 a b c d rest unit _ ih =>
    simp only [Option.map_eq_some_iff, Prod.mk.injEq, Prod.exists] at h
    obtain ⟨ps', r', h', -, rfl⟩ := h
    have := ih h'; simp; omega
  | case5 => simp at h
  | case6 e rest _ c _ ih =>
    simp only [Option.map_eq_some_iff, Prod.mk.injEq, Prod.exists] at h
    obtain ⟨ps', r', h', -, rfl⟩ := h
    have := ih h'; simp; omega
  | case7 => simp at h
  | case8 c rest _ _ _ _ ih =>
    simp only [Option.map_eq_some_iff, Prod.mk.injEq, Prod.exists] at h
    obtain ⟨ps', r', h', -, rfl⟩ := h
    have := ih h'; simp; omega

/-- The character a surrogate pair stands for. -/
def joinHalves (high low : Nat) : Char :=
  Char.ofNat (0x10000 + (high - 0xD800) * 0x400 + (low - 0xDC00))

/-- The characters of a spelling, unless a half of a pair or an octet is left over. -/
def Spelling.chars? : Spelling → Option (List Char)
  | [] => some []
  | .literal c :: rest | .escaped c :: rest => (chars? rest).map (c :: ·)
  | .half h :: .half l :: rest =>
    if isHigh h && isLow l then (chars? rest).map (joinHalves h l :: ·) else none
  | .half _ :: _ | .stray _ :: _ => none

def Spelling.text? (s : Spelling) : Option String := s.chars?.map String.ofList

/-! ## Writing -/

/-- Spells one character the shortest way. -/
def escape (c : Char) : List Char :=
  if c = '"' then ['\\', '"']
  else if c = '\\' then ['\\', '\\']
  else if c = '\x08' then ['\\', 'b']
  else if c = '\x0c' then ['\\', 'f']
  else if c = '\n' then ['\\', 'n']
  else if c = '\r' then ['\\', 'r']
  else if c = '\t' then ['\\', 't']
  else if isControl c then ['\\', 'u', '0', '0', hexDigit (c.toNat / 16), hexDigit (c.toNat % 16)]
  else [c]

def quote (s : String) : List Char := '"' :: s.toList.flatMap escape ++ ['"']

end Switchboard.Json
