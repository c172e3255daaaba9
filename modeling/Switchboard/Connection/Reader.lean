import Switchboard.Authorizer
import Switchboard.Connection.Writer
import Switchboard.Hub.Requests
import Switchboard.Wire.Control

/-!
# The reader

What a connection does about the frames of its client: a handshake that can be tried a few times,
then subscriptions. A breach of the protocol is reported and ends the connection; a failed handshake
is reported and counted; a channel that is denied is reported and that is all.
-/

namespace Switchboard

open Wire

/-- What a reader knows of its client. -/
inductive Session where
  | unauthenticated (failures : Nat)
  | authenticated (identity : Identity) (topics : List Topic)
  deriving DecidableEq, Repr

/-- Changes the topics that a client has been told it listens to. -/
def Session.updateTopics (f : List Topic → List Topic) : Session → Session
  | .authenticated identity topics => .authenticated identity (f topics)
  | session => session

/-- What a reader asks of the hub. -/
inductive Purpose where
  | registration (identity : Identity)
  | subscription (identity : Identity) (topics : List Topic)
  | unsubscription (identity : Identity) (topics : List Topic)
  deriving DecidableEq, Repr

def Purpose.request (c : ConnectionId) (q : QueueId) : Purpose → Request
  | .registration identity => .register ⟨c, identity, q⟩
  | .subscription identity topics => .subscribe identity.userId c topics
  | .unsubscription identity topics => .unsubscribe identity.userId c topics

inductive ReaderTask where
  | listening
  /-- Judging a token, which takes until an instant. -/
  | validating (token : String) (ready : Instant)
  /-- Deciding on the channels left, with those allowed so far. -/
  | deciding (identity : Identity) (channels : List String) (allowed : List Topic)
  | asking (purpose : Purpose)
  | awaiting (purpose : Purpose) (ticket : Ticket)
  | finished (why : Termination)
  deriving DecidableEq, Repr

/-- The reading half of a connection. -/
structure Reader where
  session : Session
  /-- Replies that have to be passed on before anything else. -/
  outgoing : List Message
  task : ReaderTask
  /-- Whether the connection's queue has not been handed over. -/
  holdsQueue : Bool
  /-- The user that the hub may have an entry for on the connection's behalf. -/
  registered : Option String

structure Service where
  validate : String → Except Error Identity
  validationTime : Millis

/-- What all connections share. -/
structure Site where
  service : Service
  now : Instant
  hub : Hub
  directory : Directory

namespace Reader

def start : Reader := ⟨.unauthenticated 0, [], .listening, true, none⟩

def goOn (r : Reader) (task : ReaderTask) : Reader := { r with task }

/-- Replies and goes on to another task. -/
def say (r : Reader) (m : Message) (task : ReaderTask) : Reader := { r with outgoing := [m], task }

/-- Reports a breach of the protocol and ends. -/
def violate (r : Reader) (e : Error) : Reader :=
  r.say (.error e.code e.message) (.finished (.protocolViolation e.code))

/-- Reports a failed handshake; after too many it ends. -/
def failHandshake (s : Settings) (r : Reader) (e : Error) : Reader :=
  match r.session with
  | .authenticated .. => r.goOn .listening
  | .unauthenticated failures =>
    let failures := failures + 1
    { r with session := .unauthenticated failures }.say (.authError e.code e.message)
      (if s.maxAuthAttempts ≤ failures then .finished .authAttemptsExhausted else .listening)

def fail (s : Settings) (r : Reader) (e : Error) : Reader :=
  if e.isFatal then r.violate e else r.failHandshake s e

/-! ## Frames -/

def frameTooLarge : Error := .protocol .frameTooLarge "Frame exceeds the size limit"

def binaryFrame : Error := .protocol .binaryFrame "Only text frames are accepted"

def alreadyAuthenticated : Error :=
  .protocol .alreadyAuthenticated "Re-authentication requires a new connection"

def alreadyRegistered : Error :=
  .protocol .alreadyAuthenticated "Connection was already registered"

def notAuthenticated : Error :=
  .protocol .notAuthenticated "Authenticate before managing subscriptions"

/-- Takes up what a control frame asks for. -/
def obey (s : Settings) (now : Instant) (delay : Millis) (r : Reader) : ControlFrame → Reader
  | .auth token =>
    match r.session with
    | .authenticated .. => r.fail s alreadyAuthenticated
    | .unauthenticated _ => r.goOn (.validating token (now + delay))
  | .subscribe channels =>
    match r.session with
    | .authenticated identity _ => r.goOn (.deciding identity channels [])
    | .unauthenticated _ => r.fail s notAuthenticated
  | .unsubscribe channels =>
    match r.session with
    | .authenticated identity _ =>
      -- names no channel has cannot be listened to, so there is nothing to stop
      r.goOn (.asking (.unsubscription identity (channels.filterMap Topic.ofName?)))
    | .unauthenticated _ => r.fail s notAuthenticated

/-- Takes up what a text frame asks for. -/
def hearText (s : Settings) (now : Instant) (delay : Millis) (r : Reader) (text : String) :
    Reader :=
  if s.maxFrameBytes < text.utf8ByteSize then r.fail s frameTooLarge
  else
    match ControlFrame.decode text with
    | .error e => r.fail s e
    | .ok frame => r.obey s now delay frame

/-- Takes up what a frame asks for. -/
def hear (s : Settings) (now : Instant) (delay : Millis) (r : Reader) : Incoming → Reader
  | .text text => r.hearText s now delay text
  | .binary _ => r.fail s binaryFrame
  | .ping _ | .pong _ => r
  | .close _ | .endOfStream => r.goOn (.finished .clientClosed)
  | .failure _ => r.goOn (.finished .readError)

/-- Whether reading it shows that the peer is there. -/
def isSignOfLife : Incoming → Bool
  | .endOfStream | .failure _ => false
  | _ => true

/-! ## Tokens and channels -/

/-- Takes up the judgement of a token. -/
def judge (s : Settings) (r : Reader) : Except Error Identity → Reader
  | .error e => r.fail s e
  | .ok identity =>
    if r.holdsQueue then r.goOn (.asking (.registration identity)) else r.fail s alreadyRegistered

/-- Takes up the decision on a channel. -/
def takeDecision (r : Reader) (identity : Identity) (channel : String) (rest : List String)
    (allowed : List Topic) : Decision → Reader
  | .allow topic => r.goOn (.deciding identity rest (allowed ++ [topic]))
  | .deny denial =>
    r.say (.subscribeRejected channel denial.code) (.deciding identity rest allowed)

/-- When every channel has been decided on, the hub is asked for those allowed, if any. -/
def conclude (r : Reader) (identity : Identity) (allowed : List Topic) : Reader :=
  if allowed = [] then r.goOn .listening else r.goOn (.asking (.subscription identity allowed))

/-! ## The hub -/

/-- A registration hands the queue over, and may leave an entry from then on. -/
def handOver (r : Reader) : Purpose → Reader
  | .registration identity => { r with holdsQueue := false, registered := some identity.userId }
  | _ => r

/-- Asks the hub, if that is what comes next. -/
def submit (c : ConnectionId) (q : QueueId) (r : Reader) (hub : Hub) : Reader × Hub :=
  match r.task with
  | .asking p =>
    let (ticket, hub) := hub.issue (p.request c q)
    ((r.handOver p).goOn (.awaiting p ticket), hub)
  | _ => (r, hub)

def learn (s : Settings) (r : Reader) : Purpose → Answer → Reader
  | _, .unavailable => r.fail s hubUnavailable
  | .registration identity, _ =>
    { r with session := .authenticated identity [] }.say (.authOk identity.userId) .listening
  | _, .found false => r.goOn (.finished .queueClosed)
  | .subscription _ topics, _ =>
    let session := r.session.updateTopics fun current => topics.foldl Exchange.addTopic current
    { r with session }.say (.subscribed (topics.map Topic.name)) .listening
  | .unsubscription _ topics, _ =>
    let session := r.session.updateTopics fun current => current.filter (!topics.contains ·)
    { r with session }.say (.unsubscribed (topics.map Topic.name)) .listening

end Reader

end Switchboard
