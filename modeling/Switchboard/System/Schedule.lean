import Switchboard.System.World

/-!
# A schedule

One order in which everything that can happen does. Whoever becomes able to act joins the end of a
line, and the first in the line acts for as long as it can before it makes way for the next. No look
misses anything. Time is let pass from one deadline to the next, with everything that can happen
then happening before it goes on.
-/

namespace Switchboard

/-- Who stands in the line. The reader of a connection and its end act as one. -/
inductive Party where
  | writer (c : ConnectionId)
  | connection (c : ConnectionId)
  | hub
  deriving DecidableEq, Repr

namespace World

/-- One step of a party, unless it has to wait. A connection that can end reads no more, and the end
of its writer is noticed first. -/
def step? (w : World) : Party → Option World
  | .hub => w.act? (.hub [])
  | .writer c => w.act? (.writer c [])
  | .connection c =>
    w.act? (.client c .writer) <|> w.act? (.client c .reader) <|> w.act? (.reader c)

/-- Everybody, in the order in which they join the line when one step lets several of them act. -/
def parties (w : World) : List Party :=
  let ids := List.range w.connections.length
  ids.map .writer ++ ids.map .connection ++ [.hub]

/-- The line once everybody who can act stands in it. -/
def join (w : World) (line : List Party) : List Party :=
  line ++ w.parties.filter fun p => !line.contains p && (w.step? p).isSome

/-- Lets those in the line act, and whoever joins it, for at most `limit` steps and leavings. -/
def runLine : Nat → World → List Party → World
  | 0, w, _ => w
  | _ + 1, w, [] => w
  | limit + 1, w, p :: line =>
    match w.step? p with
    | none => runLine limit w line
    | some w => runLine limit w (w.join (p :: line))

/-- How many steps and leavings there are before time passes on. Those who go on for longer, such as
a peer that never stops sending or a hub with very many requests, are cut short. -/
def stepLimit : Nat := 1000000

/-- Lets everything happen that can without time passing, as far as the limit reaches. -/
def settle (w : World) : World := runLine stepLimit w (w.join [])

/-- Lets time pass from now up to an instant. -/
def advanceTo (target now : Instant) (w : World) : World :=
  match w.nextDeadline? with
  | none => (w.setNow target).settle
  | some t =>
    if _h : now < t ∧ t ≤ target then advanceTo target t (w.setNow t).settle
    else (w.setNow target).settle
termination_by target - now
decreasing_by exact Nat.sub_lt_sub_left (Nat.lt_of_lt_of_le _h.1 _h.2) _h.1

def advance (w : World) (time : Millis) : World :=
  w.advanceTo (w.site.now + time) w.site.now

end World

end Switchboard
