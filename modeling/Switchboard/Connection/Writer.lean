import Switchboard.Connection.Settings
import Switchboard.Connection.Socket
import Switchboard.Hub.Queue

/-!
# The writer

Everything that goes out on a connection goes through its writer, one frame at a time: first the
reader's replies, then what the hub has queued, then a check on the peer's silence, and a ping when
one is due. It looks for them one after the other, so it may miss what comes in while it looks.
Whatever ends it, unless the way out is broken a goodbye is written last, and then the way out is
closed.
-/

namespace Switchboard

open Wire

/-- Why a connection ended. -/
inductive Termination where
  | clientClosed
  | readError
  | protocolViolation (code : String)
  | authAttemptsExhausted
  /-- The hub let go of the connection's queue. -/
  | queueClosed
  | heartbeatTimeout
  | writeFailed
  deriving DecidableEq, Repr

inductive WriterTask where
  | starting
  /-- Waiting for something to write, or for the peer to have been silent until the deadline. -/
  | waiting (silence : Instant)
  /-- Writing a frame, at the latest by the deadline. -/
  | writing (frame : Outgoing) (deadline : Instant)
  /-- Writing a goodbye. -/
  | leaving (why : Termination) (deadline : Instant)
  /-- Closing the way out. -/
  | closing (why : Termination) (deadline : Instant)
  | finished (why : Termination)
  /-- Ended by a time that cannot be. -/
  | crashed
  /-- Ended from outside. -/
  | aborted

/-- The writing half of a connection. -/
structure Writer where
  task : WriterTask
  /-- When the next ping is due. -/
  nextBeat : Instant

/-- What a writer receives from. -/
inductive Inlet where
  | replies
  | queue
  deriving DecidableEq, Repr

structure Outlet where
  /-- The reader's replies that wait to be written. -/
  replies : List Envelope
  /-- Whether there is a reader that could reply. -/
  hasReader : Bool
  queue : Queue
  socket : Socket

namespace Writer

/-- Whether a writer may still do something. -/
def isRunning (w : Writer) : Bool :=
  match w.task with
  | .finished _ | .crashed | .aborted => false
  | _ => true

/-- Begins to wait, with the deadline set by when the peer was last heard. -/
def await (s : Settings) (seen : Instant) (w : Writer) : Writer :=
  { w with task := if s.hasSilence seen then .waiting (seen + s.pong) else .crashed }

/-- A writer that is about to begin. -/
def new : Writer := ⟨.starting, 0⟩

/-- Begins, unless its deadlines cannot be. -/
def start (s : Settings) (now seen : Instant) (w : Writer) : Writer :=
  if s.hasHeartbeat now then { w with nextBeat := now + s.heartbeat }.await s seen
  else { w with task := .crashed }

def write (s : Settings) (now : Instant) (frame : Outgoing) (w : Writer) : Writer :=
  { w with task := .writing frame (now + s.write) }

def close (s : Settings) (now : Instant) (why : Termination) (w : Writer) : Writer :=
  { w with task := .closing why (now + s.write) }

/-- Begins to end, with a goodbye. -/
def leave (s : Settings) (now : Instant) (why : Termination) (w : Writer) : Writer :=
  { w with task := .leaving why (now + s.write) }

/-- Looks whether the peer has been silent too long; it may have spoken since the deadline was
set. -/
def checkSilence (s : Settings) (now seen : Instant) (w : Writer) : Writer :=
  if s.pong ≤ now - seen then w.leave s now .heartbeatTimeout else w.await s seen

/-- Begins to write a ping; pings that are late are made up for. -/
def beat (s : Settings) (now : Instant) (w : Writer) : Writer :=
  { w with nextBeat := w.nextBeat + s.heartbeat }.write s now .ping

/-- What a look at the replies comes to: the next one is taken up, or there will be none. -/
def takeReply? (s : Settings) (now : Instant) (o : Outlet) (w : Writer) :
    Option (Writer × Outlet) :=
  match o.replies with
  | reply :: replies => some (w.write s now (.envelope reply), { o with replies })
  | [] => if o.hasReader then none else some (w.leave s now .clientClosed, o)

/-- What a look at the queue comes to. -/
def takeFrame? (s : Settings) (now : Instant) (o : Outlet) (w : Writer) :
    Option (Writer × Outlet) :=
  match o.queue.pop? with
  | some (frame, queue) => some (w.write s now (.envelope frame), { o with queue })
  | none => if o.queue.isEnded then some (w.leave s now .queueClosed, o) else none

/-- What a look at the clock comes to. -/
def takeTime? (s : Settings) (now seen silence : Instant) (w : Writer) : Option Writer :=
  if silence ≤ now then some (w.checkSilence s now seen)
  else if w.nextBeat ≤ now then some (w.beat s now)
  else none

/--
A waiting writer takes up the first thing that it finds to do, if any. It looks at the replies
first, then at the queue and last at the clock, and both sides go on meanwhile; so there may be
something in an inlet where it found nothing. Those inlets are `missed`.
-/
def takeUp? (s : Settings) (now seen silence : Instant) (o : Outlet) (missed : List Inlet)
    (w : Writer) : Option (Writer × Outlet) :=
  ((if .replies ∈ missed then none else w.takeReply? s now o).or
    (if .queue ∈ missed then none else w.takeFrame? s now o)).or
      ((w.takeTime? s now seen silence).map (·, o))

/-- One step of a writer, unless it has to wait. -/
def step? (s : Settings) (now seen : Instant) (o : Outlet) (missed : List Inlet) (w : Writer) :
    Option (Writer × Outlet) :=
  match w.task with
  | .starting => some (w.start s now seen, o)
  | .waiting silence => w.takeUp? s now seen silence o missed
  | .writing frame deadline =>
    match o.socket.offer frame with
    | .taken socket => some (w.await s seen, { o with socket })
    | .broken => some (w.close s now .writeFailed, o)
    | .stalled => if deadline ≤ now then some (w.close s now .writeFailed, o) else none
  | .leaving why deadline =>
    match o.socket.offer (.close none) with
    | .taken socket => some (w.close s now why, { o with socket })
    | .broken => some (w.close s now why, o)
    | .stalled => if deadline ≤ now then some (w.close s now why, o) else none
  | .closing why deadline =>
    if !o.socket.closeHangs then
      some ({ w with task := .finished why }, { o with socket := o.socket.finish })
    else if deadline ≤ now then some ({ w with task := .finished why }, o)
    else none
  | .finished _ | .crashed | .aborted => none

/-- The times at which a writer that waits may go on. -/
def deadlines (w : Writer) : List Instant :=
  match w.task with
  | .waiting silence => [silence, w.nextBeat]
  | .writing _ deadline | .leaving _ deadline | .closing _ deadline => [deadline]
  | .starting | .finished _ | .crashed | .aborted => []

end Writer

end Switchboard
