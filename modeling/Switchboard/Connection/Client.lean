import Switchboard.Connection.Reader

/-!
# Connections

A connection is a reader and a writer that run side by side until one of them ends. Then the reader
is let go, the hub is told that the connection is gone if it may know of it, and the writer gets
some time to write what is left.
-/

namespace Switchboard

open Wire

/-- How far a connection has got. -/
inductive Phase where
  | serving
  /-- The reader is gone; the writer may go on until the deadline. -/
  | draining (why : Termination) (deadline : Instant)
  | ended (why : Termination)
  /-- Ended by a setting that cannot be. -/
  | panicked

structure Connection where
  settings : Settings
  socket : Socket
  queue : QueueId
  /-- When the peer was last heard. -/
  seen : Instant
  /-- The reader's replies that the writer has not taken up. -/
  replies : List Envelope
  reader : Reader
  writer : Writer
  phase : Phase

namespace Connection

/-- How many replies may wait for the writer. -/
def replyCapacity : Nat := 32

def isServing (c : Connection) : Bool :=
  match c.phase with
  | .serving => true
  | _ => false

def isOver (c : Connection) : Bool :=
  match c.phase with
  | .ended _ | .panicked => true
  | .serving | .draining .. => false

/-- A connection that opens now with the queue given. -/
def start (settings : Settings) (socket : Socket) (queue : QueueId) (now : Instant) :
    Connection :=
  ⟨settings, socket, queue, now, [], .start, .new, .serving⟩

/-- A connection that cannot be opened. -/
def stillborn (settings : Settings) (socket : Socket) (queue : QueueId) (now : Instant) :
    Connection :=
  { start settings socket queue now with writer := ⟨.aborted, 0⟩, phase := .panicked }

/-! ## The writer's steps -/

def outlet (c : Connection) (queue : Queue) : Outlet := ⟨c.replies, c.isServing, queue, c.socket⟩

/-- A writer that has ended lets go of everything it received from. -/
def settleWriter (c : Connection) (mail : Mail) : Connection × Mail :=
  if c.writer.isRunning then (c, mail)
  else ({ c with replies := [] }, mail.modify c.queue Queue.drop)

/-- One step of the writer, unless it has to wait. -/
def stepWriter? (c : Connection) (now : Instant) (mail : Mail) (missed : List Inlet) :
    Option (Connection × Mail) :=
  match mail.get? c.queue with
  | none => none
  | some queue =>
    match c.writer.step? c.settings now c.seen (c.outlet queue) missed with
    | none => none
    | some (writer, o) =>
      let c := { c with writer, replies := o.replies, socket := o.socket }
      some (c.settleWriter (mail.modify c.queue fun _ => o.queue))

/-! ## The reader's steps -/

/-- Passes on a reply; without a writer it is lost. -/
def pass (c : Connection) (site : Site) (m : Message) : Connection :=
  if c.writer.isRunning then
    { c with replies := c.replies ++ [site.hub.exchange.frame m] }
  else c

/-- One step of the reader's task, unless it has to wait. -/
def doTask? (c : Connection) (site : Site) : Option (Connection × Site) :=
  let become (reader : Reader) : Option (Connection × Site) := some ({ c with reader }, site)
  match c.reader.task with
  | .listening =>
    match c.socket.receive? with
    | none => none
    | some (frame, socket) =>
      let seen := if Reader.isSignOfLife frame then site.now else c.seen
      let reader := c.reader.hear c.settings site.now site.service.validationTime frame
      some ({ c with socket, seen, reader }, site)
  | .validating token ready =>
    if ready ≤ site.now then become (c.reader.judge c.settings (site.service.validate token))
    else none
  | .deciding identity (channel :: rest) allowed =>
    let (decision, directory) := site.directory.authorize identity channel
    let reader := c.reader.takeDecision identity channel rest allowed decision
    some ({ c with reader }, { site with directory })
  | .deciding identity [] allowed => become (c.reader.conclude identity allowed)
  | .awaiting purpose ticket =>
    match site.hub.answer? ticket with
    | none => none
    | some answer => become (c.reader.learn c.settings purpose answer)
  | .asking _ => become c.reader
  | .finished _ => none

/-- Asks the hub, if that is what comes next. -/
def submit (id : ConnectionId) (c : Connection) (site : Site) : Connection × Site :=
  let (reader, hub) := c.reader.submit id c.queue site.hub
  ({ c with reader }, { site with hub })

/-- One step of the reader: replies are passed on first, and wait while too many wait already. -/
def stepReader? (id : ConnectionId) (c : Connection) (site : Site) : Option (Connection × Site) :=
  if !c.isServing then none
  else
    match c.reader.outgoing with
    | m :: outgoing =>
      if c.writer.isRunning && replyCapacity ≤ c.replies.length then none
      else some ({ c.pass site m with reader := { c.reader with outgoing } }, site)
    | [] =>
      match c.doTask? site with
      | none => none
      | some (c, site) => some (c.submit id site)

/-! ## The end -/

inductive Half where
  | reader
  | writer
  deriving DecidableEq, Repr

/-- Why the writer ended, if it has. -/
def writerEnd? (c : Connection) : Option Termination :=
  match c.writer.task with
  | .finished why => some why
  | .crashed => some .writeFailed
  | _ => none

/-- Why the reader ended, if it has and everything it said has been passed on. -/
def readerEnd? (c : Connection) : Option Termination :=
  match c.reader.outgoing, c.reader.task with
  | [], .finished why => some why
  | _, _ => none

/-- Lets go of the reader: of a queue that was not handed over, and of the hub. -/
def letGo (id : ConnectionId) (c : Connection) (hub : Hub) : Hub :=
  let hub := if c.reader.holdsQueue then hub.update (·.release c.queue) else hub
  match c.reader.registered with
  | some user => (hub.issue (.unregister user id)).2
  | none => hub

def abort (c : Connection) (mail : Mail) : Connection × Mail :=
  { c with writer := { c.writer with task := .aborted } }.settleWriter mail

/-- The phase after the reader has ended. -/
def drain (c : Connection) (now : Instant) (why : Termination) : Phase :=
  if c.settings.hasGrace then .draining why (now + c.settings.grace) else .panicked

/-- One step towards the end. While the connection serves, it is the end of a half that is noticed,
if that has ended; when both have, either may be. -/
def stepEnd? (id : ConnectionId) (half : Half) (c : Connection) (site : Site) :
    Option (Connection × Site) :=
  match c.phase with
  | .serving =>
    match half with
    | .writer => c.writerEnd?.map fun why =>
      ({ c with phase := .ended why }, { site with hub := c.letGo id site.hub })
    | .reader => c.readerEnd?.map fun why =>
      ({ c with phase := c.drain site.now why }, { site with hub := c.letGo id site.hub })
  | .draining why deadline =>
    if !c.writer.isRunning then some ({ c with phase := .ended why }, site)
    else if deadline ≤ site.now then
      let (c, mail) := c.abort site.hub.exchange.mail
      let hub := site.hub.update fun x => { x with mail }
      some ({ c with phase := .ended why }, { site with hub })
    else none
  | .ended _ | .panicked => none

/-! ## Time -/

/-- The times at which the reader, if it waits for one, may go on. -/
def readerDeadlines (c : Connection) : List Instant :=
  match c.reader.task with
  | .validating _ ready => if c.isServing then [ready] else []
  | _ => []

/-- The times at which the end may go on. -/
def endDeadlines (c : Connection) : List Instant :=
  match c.phase with
  | .draining _ deadline => [deadline]
  | _ => []

/-- The times at which something may happen on a connection by itself. -/
def deadlines (c : Connection) : List Instant :=
  c.writer.deadlines ++ c.readerDeadlines ++ c.endDeadlines

end Connection

end Switchboard
