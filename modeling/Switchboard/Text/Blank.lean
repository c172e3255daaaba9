/-!
# Blank characters

The characters with Unicode's `White_Space` property. Bearer tokens and timestamps are trimmed of
them; JSON knows only four of them and keeps its own list.
-/

namespace Switchboard.Text

/-- A character with Unicode's `White_Space` property. -/
def isBlank (c : Char) : Bool :=
  let n := c.toNat
  (0x09 ≤ n && n ≤ 0x0D) || n == 0x20 || n == 0x85 || n == 0xA0 || n == 0x1680 ||
    (0x2000 ≤ n && n ≤ 0x200A) || n == 0x2028 || n == 0x2029 || n == 0x202F || n == 0x205F ||
    n == 0x3000

/-- Drops the blanks a text starts with. -/
def dropBlanks (s : List Char) : List Char := s.dropWhile isBlank

/-- Holds of a text that trimming leaves nothing of. -/
def isAllBlank (s : List Char) : Bool := s.all isBlank

end Switchboard.Text
