import Switchboard.Hub.Queue
import Switchboard.Identity
import Switchboard.Topic

/-!
# The exchange

Who is connected, what each of them listens to and what waits for them: everything that the hub
alone may change. A frame is put on the queue of every connection it is meant for, without waiting
for any. A connection that cannot take it is out, and everyone else is told; that may put out
others, who are announced in turn.
-/

namespace Switchboard

open Wire

abbrev ConnectionId := Nat

structure Entry where
  connection : ConnectionId
  identity : Identity
  queue : QueueId
  topics : List Topic
  deriving DecidableEq, Repr

def Entry.userId (e : Entry) : String := e.identity.userId

/-- What a connection hands over once it has authenticated: itself and its queue. -/
structure Registration where
  connection : ConnectionId
  identity : Identity
  queue : QueueId
  deriving DecidableEq, Repr

/-- The entry of a new connection, which listens to nothing. -/
def Registration.entry (r : Registration) : Entry := ⟨r.connection, r.identity, r.queue, []⟩

/-- Whom a frame is meant for. -/
inductive Target where
  | topic (topic : Topic)
  | user (userId : String)
  | everyoneBut (userId : String)
  deriving DecidableEq, Repr

/-- Whether a frame for a target goes to an entry. -/
def Target.selects (e : Entry) : Target → Bool
  | topic t => e.topics.contains t
  | user u => e.userId = u
  | everyoneBut u => e.userId ≠ u

structure Stats where
  registered : Nat
  unregistered : Nat
  published : Nat
  delivered : Nat
  slowConsumerEvictions : Nat
  deriving DecidableEq, Repr

def Stats.zero : Stats := ⟨0, 0, 0, 0, 0⟩

def Stats.members (s : Stats) : List (String × Json.Value) :=
  [("registered", s.registered), ("unregistered", s.unregistered), ("published", s.published),
    ("delivered", s.delivered), ("slowConsumerEvictions", s.slowConsumerEvictions)].map
    fun (name, n) => (name, .number (.int (n : Nat)))

def Stats.toText (s : Stats) : String := (Json.Value.object s.members).toText

/-- What the control loop holds. -/
structure Exchange where
  /-- At most one entry for each user. -/
  registry : List Entry
  mail : Mail
  stats : Stats
  /-- The time of day, as frames are stamped with it. -/
  clock : Time.Timestamp

namespace Exchange

def empty (clock : Time.Timestamp) : Exchange := ⟨[], .empty, .zero, clock⟩

/-- A message as a frame sent now. -/
def frame (x : Exchange) (m : Message) : Envelope := .wrap x.clock m

def find? (x : Exchange) (user : String) : Option Entry :=
  x.registry.find? (·.userId = user)

def isOnline (x : Exchange) (user : String) : Bool := (x.find? user).isSome

/-- The entry of a user, if it is of the connection given. -/
def findConnection? (x : Exchange) (user : String) (c : ConnectionId) : Option Entry :=
  (x.find? user).filter (·.connection = c)

def count (x : Exchange) (f : Stats → Stats) : Exchange := { x with stats := f x.stats }

/-! ## Delivery -/

/-- Why an entry cannot take a frame. -/
def refusal? (x : Exchange) (e : Entry) : Option DeliveryFault := x.mail.refusal? e.queue

/-- Whether an entry is meant by a target and can take a frame. -/
def takes (x : Exchange) (target : Target) (e : Entry) : Bool :=
  target.selects e && (x.refusal? e).isNone

/-- Whether an entry is meant by a target and cannot take a frame. -/
def refuses (x : Exchange) (target : Target) (e : Entry) : Bool :=
  target.selects e && (x.refusal? e).isSome

/-- The queues after a frame has been put on some and the senders of others let go. -/
def deliver (m : Mail) (frame : Envelope) (takers refusers : List Entry) : Mail :=
  m.map fun id q =>
    if takers.any (·.queue = id) then q.push frame
    else if refusers.any (·.queue = id) then q.release
    else q

/--
Puts a frame on the queue of every connection it is meant for. Those that cannot take it are removed
and given back.
-/
def fanOut (x : Exchange) (target : Target) (frame : Envelope) : Exchange × List Entry :=
  let takers := x.registry.filter (x.takes target)
  let refusers := x.registry.filter (x.refuses target)
  let slow := refusers.filter fun e => x.refusal? e = some .queueFull
  let registry := x.registry.filter fun e => !x.refuses target e
  let stats := { x.stats with
    delivered := x.stats.delivered + takers.length
    slowConsumerEvictions := x.stats.slowConsumerEvictions + slow.length
    unregistered := x.stats.unregistered + refusers.length }
  (⟨registry, deliver x.mail frame takers refusers, stats, x.clock⟩, refusers)

/-- A list splits into what passes a test and what does not. -/
theorem length_filter_add_not {α : Type} (p : α → Bool) (l : List α) :
    (l.filter p).length + (l.filter fun a => !p a).length = l.length := by
  induction l with
  | nil => rfl
  | cons a l ih => cases h : p a <;> simp [h] <;> omega

theorem length_fanOut (x : Exchange) (target : Target) (frame : Envelope) :
    (x.fanOut target frame).2.length + (x.fanOut target frame).1.registry.length =
      x.registry.length :=
  length_filter_add_not (x.refuses target) x.registry

/-- Tells everyone that users are gone, and that those are whom this puts out. -/
def announce (x : Exchange) : List String → Exchange
  | [] => x
  | user :: waiting =>
    let r := x.fanOut (.everyoneBut user) (x.frame (.event (.userOffline user)))
    -- whoever was put out last is announced first
    announce r.1 ((r.2.map Entry.userId).reverse ++ waiting)
termination_by waiting => waiting.length + 2 * x.registry.length
decreasing_by
  have h := length_fanOut x (.everyoneBut user) (x.frame (.event (.userOffline user)))
  simp only [List.length_append, List.length_reverse, List.length_map, List.length_cons] at *
  omega

/-- Delivers a frame and announces those whom it puts out. -/
def send (x : Exchange) (target : Target) (frame : Envelope) : Exchange :=
  let (x, refusers) := x.fanOut target frame
  x.announce (refusers.map Entry.userId).reverse

def publish (x : Exchange) (target : Target) (frame : Envelope) : Exchange :=
  (x.count fun s => { s with published := s.published + 1 }).send target frame

/-! ## Coming and going -/

/-- Lets go of the sending end of a queue. -/
def release (x : Exchange) (q : QueueId) : Exchange :=
  { x with mail := x.mail.modify q Queue.release }

/-- Takes the entry of a user out of the registry. -/
def remove (x : Exchange) (user : String) : Exchange :=
  { x with registry := x.registry.filter (·.userId ≠ user) }

def insert (x : Exchange) (e : Entry) : Exchange := { x with registry := x.registry ++ [e] }

/--
Adds a connection. A user who was connected already keeps their place under the new connection, and
nobody is told; anyone else is announced.
-/
def register (x : Exchange) (r : Registration) : Exchange :=
  let user := r.identity.userId
  let x := x.count fun s => { s with registered := s.registered + 1 }
  match x.find? user with
  | some previous => ((x.release previous.queue).remove user).insert r.entry
  | none =>
    let x := x.insert r.entry
    x.send (.everyoneBut user) (x.frame (.event (.userOnline user r.identity.publicName)))

/-- Removes a connection and tells the others; one that is not there any more is left alone. -/
def unregister (x : Exchange) (user : String) (c : ConnectionId) : Exchange :=
  match x.findConnection? user c with
  | none => x
  | some e =>
    let x := (x.release e.queue).remove user
    (x.count fun s => { s with unregistered := s.unregistered + 1 }).announce [user]

/-- Lets everyone go. -/
def clear (x : Exchange) : Exchange :=
  { x with
    registry := []
    mail := x.mail.map fun id q => if x.registry.any (·.queue = id) then q.release else q }

/-! ## Listening -/

/-- Adds a topic to a set of topics. -/
def addTopic (topics : List Topic) (t : Topic) : List Topic :=
  if topics.contains t then topics else topics ++ [t]

/-- Changes the topics of a connection, if it is there. -/
def updateTopics (x : Exchange) (user : String) (c : ConnectionId)
    (f : List Topic → List Topic) : Exchange :=
  { x with
    registry := x.registry.map fun e =>
      if e.userId = user ∧ e.connection = c then { e with topics := f e.topics } else e }

def subscribe (x : Exchange) (user : String) (c : ConnectionId) (topics : List Topic) : Exchange :=
  x.updateTopics user c fun current => topics.foldl addTopic current

def unsubscribe (x : Exchange) (user : String) (c : ConnectionId) (topics : List Topic) :
    Exchange :=
  x.updateTopics user c fun current => current.filter fun t => !topics.contains t

end Exchange

end Switchboard
