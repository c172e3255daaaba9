import Switchboard.Hub.Exchange

/-!
# The hub

Requests to the exchange and the loop that handles them one at a time. Requests wait in four lanes,
and the first of the foremost lane is next: coming, going, delivery, and last whatever is answered
from what those three have made of the registry. The loop looks into one lane after the other while
others go on issuing, so a look may miss what has come into a lane that it had passed. Some requests
are answered. A hub that has stopped answers that it is not there.
-/

namespace Switchboard

open Wire

/-- The number of a request, in order of issue. -/
abbrev Ticket := Nat

/-- What can be asked of the hub. -/
inductive Request where
  | register (r : Registration)
  | unregister (user : String) (connection : ConnectionId)
  | dispatch (target : Target) (frame : Envelope)
  | subscribe (user : String) (connection : ConnectionId) (topics : List Topic)
  | unsubscribe (user : String) (connection : ConnectionId) (topics : List Topic)
  | isOnline (user : String)
  | onlineCount
  | shutdown

inductive Lane where
  | registration
  | unregistration
  | delivery
  | control
  deriving DecidableEq, Repr

/-- The lanes, the foremost first. -/
def Lane.all : List Lane := [registration, unregistration, delivery, control]

def Request.lane : Request → Lane
  | register _ => .registration
  | unregister .. => .unregistration
  | dispatch .. => .delivery
  | subscribe .. | unsubscribe .. | isOnline _ | onlineCount | shutdown => .control

inductive Answer where
  | registered
  /-- Whether the connection was in the registry. -/
  | found (isThere : Bool)
  | online (isOnline : Bool)
  | count (users : Nat)
  /-- The hub has stopped. -/
  | unavailable
  deriving DecidableEq, Repr

/-- The error that a hub which has stopped is reported as. -/
def hubUnavailable : Error := .internal .hubUnavailable "Hub control loop is not running"

/-- The answer of a hub that has stopped, to those who wait for one. -/
def Request.unavailable? : Request → Option Answer
  | register _ | subscribe .. | unsubscribe .. | isOnline _ | onlineCount => some .unavailable
  | unregister .. | dispatch .. | shutdown => none

/-- The control loop and what waits for it. -/
structure Hub where
  exchange : Exchange
  running : Bool
  /-- The requests that wait, in order of issue. -/
  pending : List (Ticket × Request)
  nextTicket : Ticket
  /-- The answers given, the last one first. -/
  answers : List (Ticket × Answer)

namespace Hub

def start (clock : Time.Timestamp) : Hub := ⟨.empty clock, true, [], 0, []⟩

/-- The requests that wait in a lane. -/
def lane (h : Hub) (l : Lane) : List (Ticket × Request) := h.pending.filter (·.2.lane = l)

/-- The answer to a request, once it has been given. -/
def answer? (h : Hub) (t : Ticket) : Option Answer := h.answers.lookup t

def reply (h : Hub) (t : Ticket) (a : Answer) : Hub := { h with answers := (t, a) :: h.answers }

def update (h : Hub) (f : Exchange → Exchange) : Hub := { h with exchange := f h.exchange }

/-- Lets a request go unhandled. -/
def abandon (h : Hub) (t : Ticket) (r : Request) : Hub :=
  let h := match r with
    | .register r => h.update (·.release r.queue)
    | _ => h
  match r.unavailable? with
  | some a => h.reply t a
  | none => h

/-- Issues a request; a hub that has stopped lets it go at once. -/
def issue (h : Hub) (r : Request) : Ticket × Hub :=
  let t := h.nextTicket
  let h := { h with nextTicket := t + 1 }
  (t, if h.running then { h with pending := h.pending ++ [(t, r)] } else h.abandon t r)

/-- Ends the loop: everyone is let go and no request is handled any more. -/
def stop (h : Hub) : Hub :=
  let waiting := h.pending
  let h := { h with exchange := h.exchange.clear, running := false, pending := [] }
  waiting.foldl (fun h (t, r) => h.abandon t r) h

def handle (h : Hub) (t : Ticket) : Request → Hub
  | .register r => (h.update (·.register r)).reply t .registered
  | .unregister user c => h.update (·.unregister user c)
  | .dispatch target frame => h.update (·.publish target frame)
  | .subscribe user c topics =>
    let isThere := (h.exchange.findConnection? user c).isSome
    (h.update (·.subscribe user c topics)).reply t (.found isThere)
  | .unsubscribe user c topics =>
    let isThere := (h.exchange.findConnection? user c).isSome
    (h.update (·.unsubscribe user c topics)).reply t (.found isThere)
  | .isOnline user => h.reply t (.online (h.exchange.isOnline user))
  | .onlineCount => h.reply t (.count h.exchange.registry.length)
  | .shutdown => h.stop

/--
The request that a look at the lanes finds: the first of the foremost lane in which any is seen. The
lanes are looked into one after the other, and requests come in meanwhile; so a lane in which one
waits may have been found empty, because it came when the look had passed, or because it stands
behind another that is still being handed in. Those lanes are `missed`.
-/
def next? (h : Hub) (missed : List Lane) : Option (Ticket × Request) :=
  Lane.all.findSome? fun l => if l ∈ missed then none else h.pending.find? (·.2.lane = l)

/-- Takes a request out of its lane. -/
def take (h : Hub) (t : Ticket) : Hub := { h with pending := h.pending.filter (·.1 ≠ t) }

/-- Handles the request that a look finds, if it finds one. -/
def step? (h : Hub) (missed : List Lane) : Option Hub :=
  match h.next? missed with
  | none => none
  | some (t, r) => some ((h.take t).handle t r)

/-! ## Running until nothing waits -/

theorem pending_abandon (h : Hub) (t : Ticket) (r : Request) :
    (h.abandon t r).pending = h.pending := by
  cases r <;> rfl

theorem pending_stop (h : Hub) : h.stop.pending = [] := by
  have key : ∀ (waiting : List (Ticket × Request)) (g : Hub), g.pending = [] →
      (waiting.foldl (fun g (p : Ticket × Request) => g.abandon p.1 p.2) g).pending = [] := by
    intro waiting
    induction waiting with
    | nil => intro g hg; exact hg
    | cons p rest ih => intro g hg; exact ih _ ((pending_abandon g p.1 p.2).trans hg)
  exact key h.pending _ rfl

/-- Handling a request makes no others. -/
theorem length_pending_handle (h : Hub) (t : Ticket) (r : Request) :
    (h.handle t r).pending.length ≤ h.pending.length := by
  cases r
  case shutdown => simp [handle, pending_stop]
  all_goals exact Nat.le_refl _

theorem mem_pending_of_next? {h : Hub} {missed : List Lane} {p : Ticket × Request}
    (hn : h.next? missed = some p) : p ∈ h.pending := by
  obtain ⟨l, -, hl⟩ := List.exists_of_findSome?_eq_some hn
  split at hl
  · cases hl
  · exact List.mem_of_find?_eq_some hl

/-- A step leaves fewer requests waiting. -/
theorem length_pending_step? {h g : Hub} {missed : List Lane} (hs : h.step? missed = some g) :
    g.pending.length < h.pending.length := by
  unfold step? at hs
  split at hs
  · simp at hs
  · rename_i t r hn
    simp only [Option.some.injEq] at hs
    subst hs
    refine Nat.lt_of_le_of_lt (length_pending_handle _ t r) ?_
    have hm := mem_pending_of_next? hn
    exact List.length_filter_lt_length_iff_exists.2 ⟨(t, r), hm, by simp⟩

/-- Handles requests until none waits, when no look misses any. -/
def settle (h : Hub) : Hub :=
  match hs : h.step? [] with
  | none => h
  | some g =>
    have := length_pending_step? hs
    g.settle
termination_by h.pending.length

/-! ## What callers ask -/

def dispatch (h : Hub) (target : Target) (e : Event) : Hub :=
  (h.issue (.dispatch target (h.exchange.frame (.event e)))).2

def broadcast (h : Hub) (t : Topic) (e : Event) : Hub := h.dispatch (.topic t) e

/-- Publishes an event to the topic of a name; under a name no topic has, nobody is told. -/
def publishEvent (h : Hub) (name : String) (e : Event) : Hub :=
  match Topic.ofName? name with
  | some t => h.broadcast t e
  | none => h

def sendToUser (h : Hub) (user : String) (e : Event) : Hub := h.dispatch (.user user) e

/-- To ask for a delivery is to issue one request, with the event as a frame; a hub that has stopped
keeps nothing of it. -/
theorem dispatch_eq (h : Hub) (target : Target) (e : Event) : h.dispatch target e = { h with
    nextTicket := h.nextTicket + 1
    pending := if h.running then
        h.pending ++ [(h.nextTicket, .dispatch target (h.exchange.frame (.event e)))]
      else h.pending } := by
  unfold dispatch issue
  cases h.running <;> rfl

/-- A broadcast asks for a delivery to the topic. -/
theorem broadcast_eq (h : Hub) (t : Topic) (e : Event) : h.broadcast t e = { h with
    nextTicket := h.nextTicket + 1
    pending := if h.running then
        h.pending ++ [(h.nextTicket, .dispatch (.topic t) (h.exchange.frame (.event e)))]
      else h.pending } := h.dispatch_eq (.topic t) e

end Hub

/-! ## What callers make of an answer -/

namespace Answer

/-- To register and to change what is listened to fails with a hub that has stopped. -/
def checked : Answer → Except Error Answer
  | unavailable => .error hubUnavailable
  | a => .ok a

/-- A hub that has stopped has nobody online. -/
def isOnline : Answer → Bool
  | online isOnline => isOnline
  | _ => false

def onlineCount : Answer → Nat
  | count users => users
  | _ => 0

end Answer

end Switchboard
