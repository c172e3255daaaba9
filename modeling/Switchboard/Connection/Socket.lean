import Switchboard.Wire.Envelope

/-!
# Sockets

Both directions of a connection's transport: frames that can be read, and frames that have been
taken for the peer. A peer that does not read can stall the way out, and the way out can break. A
WebSocket does some things without being asked: it answers pings, and once its peer has said
goodbye it takes nothing more and only returns the goodbye.
-/

namespace Switchboard

open Wire

/-- Why a peer says goodbye. -/
abbrev CloseCode := Nat

inductive Incoming where
  | text (text : String)
  | binary (octets : List UInt8)
  | ping (octets : List UInt8)
  | pong (octets : List UInt8)
  | close (code : Option CloseCode)
  | endOfStream
  | failure (reason : String)
  deriving DecidableEq, Repr

inductive Outgoing where
  | envelope (e : Envelope)
  | ping
  | pong (octets : List UInt8)
  | close (code : Option CloseCode)

/-- What the frames of a socket travel by. -/
inductive Transport where
  /-- Frames are handed over as they are. -/
  | plain
  | webSocket
  deriving DecidableEq, Repr

structure Socket where
  transport : Transport
  /-- What can be read, the next one first. -/
  incoming : List Incoming
  /-- What has been taken for the peer, in order. -/
  sent : List Outgoing
  /-- How many of those the peer has read. -/
  taken : Nat
  /-- How many frames may be taken that the peer has not read. -/
  window : Option Nat
  /-- After how many frames the way out is broken. -/
  failAfter : Option Nat
  /-- Whether closing never comes to an end. -/
  closeHangs : Bool
  /-- The goodbye that the peer has said, when the transport minds. -/
  goodbye : Option (Option CloseCode)
  /-- Whether the way out has been closed. -/
  ended : Bool

namespace Socket

/-- A socket with nothing to read whose way out is open. -/
def new (transport : Transport) : Socket :=
  ⟨transport, [], [], 0, none, none, false, none, false⟩

/-- How many frames have been taken that the peer has not read. -/
def unread (s : Socket) : Nat := s.sent.length - s.taken

def push (s : Socket) (frame : Outgoing) : Socket := { s with sent := s.sent ++ [frame] }

def arrive (s : Socket) (frames : List Incoming) : Socket :=
  { s with incoming := s.incoming ++ frames }

/-- The peer reads some of the frames that have been taken for it. -/
def take (s : Socket) (n : Nat) : Socket := { s with taken := min (s.taken + n) s.sent.length }

/-- What the transport does about a frame that is being read. -/
def attend (s : Socket) (frame : Incoming) : Socket :=
  match s.transport, frame with
  | .webSocket, .ping octets => s.push (.pong octets)
  | .webSocket, .close code => { s with goodbye := some code }
  | _, _ => s

def receive? (s : Socket) : Option (Incoming × Socket) :=
  match s.incoming with
  | [] => none
  | frame :: incoming => some (frame, { s with incoming }.attend frame)

/-- What becomes of a frame on its way out. -/
inductive Offer where
  | taken (s : Socket)
  /-- The peer has to read first. -/
  | stalled
  | broken

/-- Whether no more frames will be taken, ever. -/
def isBroken (s : Socket) : Bool :=
  s.goodbye.isSome || s.failAfter.any (· ≤ s.sent.length)

/-- Whether no more frames are taken until the peer reads. -/
def isFull (s : Socket) : Bool := s.window.any (· ≤ s.unread)

def offer (s : Socket) (frame : Outgoing) : Offer :=
  if s.isBroken then .broken else if s.isFull then .stalled else .taken (s.push frame)

/-- The reason that is returned for a peer's reason; not every number may be one. -/
def echo (code : CloseCode) : CloseCode :=
  let mayBeSent := (1000 ≤ code && code ≤ 1003) || (1007 ≤ code && code ≤ 1013) ||
    (3000 ≤ code && code ≤ 4999)
  if mayBeSent then code else 1002

/-- Closes the way out, returning a goodbye if the peer has said one. -/
def finish (s : Socket) : Socket :=
  match s.goodbye with
  | some code => { s.push (.close (code.map echo)) with ended := true }
  | none => { s with ended := true }

end Socket

end Switchboard
