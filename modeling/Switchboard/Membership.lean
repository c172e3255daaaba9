import Switchboard.Identity

/-!
# Membership

Which users belong to which circles. A circle exists while it has members. Taking out a member is
two steps, one for the member and one for a circle left empty, because others may act in between.
-/

namespace Switchboard

/-- The members of every circle that has some. -/
structure Membership where
  circles : List (String × List String)
  deriving DecidableEq, Repr

namespace Membership

def empty : Membership := ⟨[]⟩

def members (m : Membership) (circle : String) : List String :=
  (m.circles.lookup circle).getD []

/-- Whether a user belongs to a circle. -/
def isMember (m : Membership) (circle user : String) : Bool := (m.members circle).contains user

/-- Adds a user to a set of users. -/
def enrol (user : String) (users : List String) : List String :=
  if users.contains user then users else users ++ [user]

/-- Adds a member, and the circle if need be. -/
def add (m : Membership) (circle user : String) : Membership :=
  if m.circles.any (·.1 = circle) then
    ⟨m.circles.map fun (c, us) => (c, if c = circle then enrol user us else us)⟩
  else ⟨m.circles ++ [(circle, [user])]⟩

/-- Takes a user out of a circle, leaving the circle even if it is empty. -/
def dismiss (m : Membership) (circle user : String) : Membership :=
  ⟨m.circles.map fun (c, us) => (c, if c = circle then us.filter (· ≠ user) else us)⟩

/-- Whether a circle is there and has nobody in it. -/
def isDeserted (m : Membership) (circle : String) : Bool := m.circles.lookup circle == some []

/-- Removes a circle with whoever is in it. -/
def dissolve (m : Membership) (circle : String) : Membership :=
  ⟨m.circles.filter (·.1 ≠ circle)⟩

/-- Removes a member, and the circle with its last one. -/
def remove (m : Membership) (circle user : String) : Membership :=
  let m := m.dismiss circle user
  if m.isDeserted circle then m.dissolve circle else m

end Membership

/-- One question to the directory, with its answer; none when the directory could not be asked. -/
structure Lookup where
  circle : String
  user : String
  answer : Option Bool
  deriving DecidableEq, Repr

/-- The membership as it is asked: it may be out of reach, and every question is kept. -/
structure Directory where
  membership : Membership
  reachable : Bool
  lookups : List Lookup
  deriving DecidableEq, Repr

namespace Directory

/-- A directory within reach that holds no circles. -/
def empty : Directory := ⟨.empty, true, []⟩

/-- What the directory would say. -/
def answer (d : Directory) (user circle : String) : Option Bool :=
  if d.reachable then some (d.membership.isMember circle user) else none

/-- Asks whether an identity belongs to a circle. -/
def ask (d : Directory) (i : Identity) (circle : String) : Option Bool × Directory :=
  let answer := d.answer i.userId circle
  (answer, { d with lookups := d.lookups ++ [⟨circle, i.userId, answer⟩] })

def update (d : Directory) (f : Membership → Membership) : Directory :=
  { d with membership := f d.membership }

end Directory

end Switchboard
