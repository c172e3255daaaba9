import Switchboard.Json.Numeral
import Switchboard.Json.Spelling

/-!
# Tokens

A JSON text as a list of tokens, with the blanks between them dropped. Only four characters count
as blank here.
-/

namespace Switchboard.Json

/-- A bracket, a separator or a scalar. -/
inductive Token where
  | openArray
  | closeArray
  | openObject
  | closeObject
  | comma
  | colon
  | null
  | bool (value : Bool)
  | number (value : Numeral)
  | text (value : Spelling)
  deriving DecidableEq, Repr

/-- The four characters that may stand between tokens. -/
def isSpace (c : Char) : Bool := c == ' ' || c == '\t' || c == '\n' || c == '\r'

/-- The token a text starts with, and the text after it. -/
def Token.read : List Char → Option (Token × List Char)
  | '[' :: rest => some (.openArray, rest)
  | ']' :: rest => some (.closeArray, rest)
  | '{' :: rest => some (.openObject, rest)
  | '}' :: rest => some (.closeObject, rest)
  | ',' :: rest => some (.comma, rest)
  | ':' :: rest => some (.colon, rest)
  | 'n' :: 'u' :: 'l' :: 'l' :: rest => some (.null, rest)
  | 't' :: 'r' :: 'u' :: 'e' :: rest => some (.bool true, rest)
  | 'f' :: 'a' :: 'l' :: 's' :: 'e' :: rest => some (.bool false, rest)
  | '"' :: rest => (Spelling.read rest).map fun (s, rest) => (.text s, rest)
  | s => (Numeral.read s).map fun (n, rest) => (.number n, rest)

theorem Token.read_shorter {s r : List Char} {t : Token} (h : read s = some (t, r)) :
    r.length < s.length := by
  unfold read at h
  split at h
  case h_10 rest =>
    simp only [Option.map_eq_some_iff, Prod.mk.injEq, Prod.exists] at h
    obtain ⟨_, r', h', -, rfl⟩ := h
    have := Spelling.read_shorter h'
    simp; omega
  case h_11 =>
    simp only [Option.map_eq_some_iff, Prod.mk.injEq, Prod.exists] at h
    obtain ⟨_, r', h', -, rfl⟩ := h
    exact Numeral.read_shorter h'
  all_goals
    simp only [Option.some.injEq, Prod.mk.injEq] at h
    obtain ⟨-, rfl⟩ := h
    simp only [List.length_cons]; omega

def tokens? (s : List Char) : Option (List Token) :=
  match s with
  | [] => some []
  | c :: rest =>
    if isSpace c then tokens? rest
    else
      match h : Token.read (c :: rest) with
      | none => none
      | some (t, rest') =>
        have := Token.read_shorter h
        (tokens? rest').map (t :: ·)
termination_by s.length
decreasing_by
  · exact Nat.lt_succ_self _
  · exact this

end Switchboard.Json
