import Switchboard.Decimal.Shortest

/-!
# Timestamps

A moment in universal time, as the fields of a calendar and a clock. The calendar is the Gregorian
one carried to both sides, with a year zero. A leap second is a sixtieth second and may end any
minute, because the reader of a timestamp cannot know where one was inserted.
-/

namespace Switchboard.Time

open Decimal (digitsOf)

structure Date where
  year : Int
  month : Nat
  day : Nat
  deriving DecidableEq, Repr

/-- A moment in universal time, to the nanosecond. -/
structure Timestamp where
  date : Date
  hour : Nat
  minute : Nat
  second : Nat
  nano : Nat
  deriving DecidableEq, Repr

/-! ## The calendar -/

def firstYear : Int := -262143

def lastYear : Int := 262142

/-- Whether a year has a 29th of February. -/
def isLeapYear (year : Int) : Bool := year % 4 = 0 && (year % 100 ≠ 0 || year % 400 = 0)

/-- The number of days in a month. -/
def daysInMonth (year : Int) : Nat → Nat
  | 2 => if isLeapYear year then 29 else 28
  | 4 | 6 | 9 | 11 => 30
  | _ => 31

def Date.isValid (d : Date) : Bool :=
  firstYear ≤ d.year && d.year ≤ lastYear && 1 ≤ d.month && d.month ≤ 12 &&
    1 ≤ d.day && d.day ≤ daysInMonth d.year d.month

def Date.next (d : Date) : Date :=
  if d.day < daysInMonth d.year d.month then { d with day := d.day + 1 }
  else if d.month < 12 then ⟨d.year, d.month + 1, 1⟩
  else ⟨d.year + 1, 1, 1⟩

def Date.previous (d : Date) : Date :=
  if 1 < d.day then { d with day := d.day - 1 }
  else if 1 < d.month then ⟨d.year, d.month - 1, daysInMonth d.year (d.month - 1)⟩
  else ⟨d.year - 1, 12, 31⟩

def minutesPerDay : Int := 1440

/-- A timestamp some minutes earlier, less than a day either way. -/
def Timestamp.earlier (t : Timestamp) (minutes : Int) : Timestamp :=
  let m : Int := t.hour * 60 + t.minute - minutes
  let (date, m) :=
    if m < 0 then (t.date.previous, m + minutesPerDay)
    else if minutesPerDay ≤ m then (t.date.next, m - minutesPerDay)
    else (t.date, m)
  { t with date := date, hour := (m / 60).toNat, minute := (m % 60).toNat }

/-! ## Writing -/

/-- Writes a natural with at least `width` digits. -/
def padded (width n : Nat) : List Char :=
  let ds := digitsOf n
  List.replicate (width - ds.length) '0' ++ ds

/-- Writes a year: four digits, and a sign when four are not enough. -/
def renderYear (year : Int) : List Char :=
  if 0 ≤ year ∧ year ≤ 9999 then padded 4 year.toNat
  else (if year < 0 then '-' else '+') :: padded 4 year.natAbs

/-- Writes a fraction of a second in thousandths, millionths or billionths, as it needs. -/
def renderFraction (nano : Nat) : List Char :=
  if nano = 0 then []
  else if nano % 1000000 = 0 then '.' :: padded 3 (nano / 1000000)
  else if nano % 1000 = 0 then '.' :: padded 6 (nano / 1000)
  else '.' :: padded 9 nano

def Date.render (d : Date) : List Char :=
  renderYear d.year ++ '-' :: padded 2 d.month ++ '-' :: padded 2 d.day

def Timestamp.render (t : Timestamp) : List Char :=
  t.date.render ++ 'T' :: padded 2 t.hour ++ ':' :: padded 2 t.minute ++ ':' :: padded 2 t.second ++
    renderFraction t.nano ++ ['Z']

def Timestamp.toText (t : Timestamp) : String := String.ofList t.render

end Switchboard.Time
