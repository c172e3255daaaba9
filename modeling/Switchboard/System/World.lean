import Switchboard.Connection.Client
import Switchboard.Domain.Audience

/-!
# The world

All connections of an instance with the hub and the directory they share. Whoever can act does so
one step at a time and in any order: the hub, a connection's writer, its reader, and the connection
itself when one of the two has ended. The hub and the writers look for what to do in one place after
another, so a step of theirs goes with what the look has missed. Time passes only when it is let.
-/

namespace Switchboard

/-- An instance at work. -/
structure World where
  site : Site
  /-- Every connection there has been, by number. -/
  connections : List Connection

/-- Who takes a step. -/
inductive Actor where
  | hub (missed : List Lane)
  | writer (c : ConnectionId) (missed : List Inlet)
  | reader (c : ConnectionId)
  /-- A connection of which a half has ended. -/
  | client (c : ConnectionId) (half : Connection.Half)
  deriving DecidableEq, Repr

/-- What comes from outside. -/
inductive Stimulus where
  | connect (settings : Settings) (socket : Socket)
  | arrive (c : ConnectionId) (frames : List Incoming)
  | take (c : ConnectionId) (frames : Nat)
  /-- A peer lets more or fewer frames wait. -/
  | setWindow (c : ConnectionId) (window : Option Nat)
  | addMember (circle user : String)
  | removeMember (circle user : String)
  /-- The directory comes into reach or goes out of it. -/
  | setReachable (isReachable : Bool)
  | issue (r : Request)
  | setNow (now : Instant)

namespace World

def start (service : Service) (now : Instant) (clock : Time.Timestamp) : World :=
  ⟨⟨service, now, .start clock, .empty⟩, []⟩

def updateHub (w : World) (f : Hub → Hub) : World :=
  { w with site := { w.site with hub := f w.site.hub } }

def updateDirectory (w : World) (f : Directory → Directory) : World :=
  { w with site := { w.site with directory := f w.site.directory } }

/-- Puts every queue as given. -/
def withMail (w : World) (mail : Mail) : World :=
  w.updateHub (·.update fun x => { x with mail })

def updateConnection (w : World) (id : ConnectionId) (f : Connection → Connection) : World :=
  { w with connections := w.connections.modify id f }

def updateSocket (w : World) (id : ConnectionId) (f : Socket → Socket) : World :=
  w.updateConnection id fun c => { c with socket := f c.socket }

/-! ## Steps -/

/-- A connection after a step that may have changed what all share. -/
def putBack (w : World) (id : ConnectionId) : Connection × Site → World
  | (c, site) => ⟨site, w.connections.set id c⟩

/-- One step of an actor, unless it has to wait. -/
def act? (w : World) : Actor → Option World
  | .hub missed => (w.site.hub.step? missed).map fun hub => w.updateHub fun _ => hub
  | .writer id missed =>
    (w.connections[id]?).bind fun c =>
      (c.stepWriter? w.site.now w.site.hub.exchange.mail missed).map fun (c, mail) =>
        (w.withMail mail).updateConnection id fun _ => c
  | .reader id =>
    (w.connections[id]?).bind fun c => (c.stepReader? id w.site).map (w.putBack id)
  | .client id half =>
    (w.connections[id]?).bind fun c => (c.stepEnd? id half w.site).map (w.putBack id)

/-! ## From outside -/

/-- Opens a connection; one whose queue cannot be is over at once. -/
def openConnection (w : World) (settings : Settings) (socket : Socket) : ConnectionId × World :=
  let (queue, mail) := w.site.hub.exchange.mail.create settings.queueCapacity
  let c :=
    if settings.hasQueue then Connection.start settings socket queue w.site.now
    else Connection.stillborn settings socket queue w.site.now
  let w := w.withMail mail
  (w.connections.length, { w with connections := w.connections ++ [c] })

/-- Moves the clock; nothing else happens. -/
def setNow (w : World) (now : Instant) : World := { w with site := { w.site with now } }

/-- What becomes of the world under a stimulus, before anyone acts. -/
def undergo (w : World) : Stimulus → World
  | .connect settings socket => (w.openConnection settings socket).2
  | .arrive c frames => w.updateSocket c (·.arrive frames)
  | .take c n => w.updateSocket c (·.take n)
  | .setWindow c window => w.updateSocket c fun s => { s with window }
  | .addMember circle user => w.updateDirectory (·.update (·.add circle user))
  | .removeMember circle user => w.updateDirectory (·.update (·.remove circle user))
  | .setReachable reachable => w.updateDirectory fun d => { d with reachable }
  | .issue r => w.updateHub fun h => (h.issue r).2
  | .setNow now => w.setNow now

/-- The next time after now at which something may happen by itself. -/
def nextDeadline? (w : World) : Option Instant :=
  ((w.connections.flatMap Connection.deadlines).filter (w.site.now < ·)).min?

end World

end Switchboard
