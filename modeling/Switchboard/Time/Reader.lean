import Switchboard.Json.Numeral
import Switchboard.Text.Blank
import Switchboard.Time.Timestamp

/-!
# Reading timestamps

A date, a `T` or one space, a time of day and an offset from universal time. The reader is lenient:
blanks may stand before a number and before the separator after it, leading zeros may be missing,
and the offset is `Z`, `UTC` or a sign with hours and minutes. The result is in universal time.
-/

namespace Switchboard.Time

open Json (Digit takeDigits natOfDigits digit?)
open Text

/-- At most `most` digits, and the text after them. -/
def takeSome : Nat → List Char → List Digit × List Char
  | 0, s => ([], s)
  | _ + 1, [] => ([], [])
  | most + 1, c :: rest =>
    match digit? c with
    | none => ([], c :: rest)
    | some d =>
      let (ds, rest) := takeSome most rest
      (d :: ds, rest)

/-- A number of one to `most` digits. -/
def takeNumber (most : Nat) (s : List Char) : Option (Nat × List Char) :=
  match takeSome most s with
  | ([], _) => none
  | (ds, rest) => some (natOfDigits ds, rest)

/-- A number of two digits at most, after any blanks. -/
def takeField (s : List Char) : Option (Nat × List Char) := takeNumber 2 (dropBlanks s)

/-- A number of any length. -/
def takeLong (s : List Char) : Option (Nat × List Char) :=
  match takeDigits s with
  | ([], _) => none
  | (ds, rest) => some (natOfDigits ds, rest)

/-- A year: four digits at most, or any number of them after a sign. -/
def takeYear (s : List Char) : Option (Int × List Char) :=
  match dropBlanks s with
  | '-' :: rest => (takeLong rest).map fun (n, rest) => (-(n : Int), rest)
  | '+' :: rest => (takeLong rest).map fun (n, rest) => ((n : Int), rest)
  | s => (takeNumber 4 s).map fun (n, rest) => ((n : Int), rest)

/-- Passes over a separator, after any blanks. -/
def takeMark (mark : Char) (s : List Char) : Option (List Char) :=
  match dropBlanks s with
  | c :: rest => if c = mark then some rest else none
  | [] => none

/-- A fraction of a second, when there is one: nine digits count and the rest are dropped. -/
def takeNanos : List Char → Option (Nat × List Char)
  | '.' :: rest =>
    match takeDigits rest with
    | ([], _) => none
    | (ds, rest) =>
      let kept := ds.take 9
      some (natOfDigits kept * Nat.pow 10 (9 - kept.length), rest)
  | s => some (0, s)

def takePair : List Char → Option (Nat × List Char)
  | a :: b :: rest => do
    let a ← digit? a
    let b ← digit? b
    return (a.val * 10 + b.val, rest)
  | _ => none

/-- Whether a character may stand between the hours and the minutes of an offset. -/
def isOffsetMark (c : Char) : Bool := c == ':' || isBlank c

/-- The hours and minutes of an offset, in minutes, less than a day. -/
def takeMinutes (s : List Char) : Option (Int × List Char) := do
  let (hours, s) ← takePair s
  let (minutes, s) ← takePair (s.dropWhile isOffsetMark)
  if minutes < 60 ∧ hours < 24 then return ((hours * 60 + minutes : Nat), s) else none

/-- An offset from universal time, in minutes. -/
def takeOffset : List Char → Option (Int × List Char)
  | 'Z' :: rest | 'z' :: rest => some (0, rest)
  | '+' :: rest => takeMinutes rest
  -- a hyphen or the minus sign proper
  | '-' :: rest | '\u2212' :: rest => (takeMinutes rest).map fun (m, rest) => (-m, rest)
  | u :: t :: c :: rest =>
    if u.toUpper = 'U' ∧ t.toUpper = 'T' ∧ c.toUpper = 'C' then some (0, rest) else none
  | _ => none

def takeDate (s : List Char) : Option (Date × List Char) := do
  let (year, s) ← takeYear s
  let s ← takeMark '-' s
  let (month, s) ← takeField s
  let s ← takeMark '-' s
  let (day, s) ← takeField s
  return (⟨year, month, day⟩, s)

def takeDivider : List Char → Option (List Char)
  | 'T' :: rest | 't' :: rest | ' ' :: rest => some rest
  | _ => none

def takeTime (date : Date) (s : List Char) : Option (Timestamp × List Char) := do
  let (hour, s) ← takeField s
  let s ← takeMark ':' s
  let (minute, s) ← takeField s
  let s ← takeMark ':' s
  let (second, s) ← takeField s
  let (nano, s) ← takeNanos s
  return (⟨date, hour, minute, second, nano⟩, s)

/-- Whether the calendar and the clock have the moment. -/
def Timestamp.isValid (t : Timestamp) : Bool :=
  t.date.isValid && t.hour ≤ 23 && t.minute ≤ 59 && t.second ≤ 60

/-- Reads a timestamp and brings it to universal time. -/
def Timestamp.read? (s : List Char) : Option Timestamp := do
  let (date, s) ← takeDate s
  let s ← takeDivider s
  let (t, s) ← takeTime date s
  let (offset, s) ← takeOffset (dropBlanks s)
  if !isAllBlank s || !t.isValid then none
  let t := t.earlier offset
  -- the offset can carry the last day over the calendar's edge
  if t.date.isValid then return t else none

def Timestamp.ofText? (s : String) : Option Timestamp := read? s.toList

end Switchboard.Time
