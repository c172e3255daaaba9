/-!
# Connection settings

The limits of one connection. Some combinations cannot be served: a queue needs room for a frame and
no more than can be counted, a heartbeat needs an interval, and every deadline has to be a time that
the clock can show.
-/

namespace Switchboard

/-- A span of time in milliseconds. -/
abbrev Millis := Nat

/-- A point in time, in milliseconds since the clock's start. -/
abbrev Instant := Nat

structure Settings where
  /-- How many frames may wait for a slow reader. -/
  queueCapacity : Nat
  /-- The time between two pings. -/
  heartbeat : Millis
  /-- How long a peer may stay silent. -/
  pong : Millis
  /-- How long one write may take. -/
  write : Millis
  /-- The longest text frame that is read, in octets. -/
  maxFrameBytes : Nat
  /-- How many failed handshakes are put up with. -/
  maxAuthAttempts : Nat
  deriving DecidableEq, Repr

namespace Settings

/-- The limits of a connection when nothing else is said. -/
def standard : Settings := ⟨256, 54000, 60000, 10000, 16384, 3⟩

/-- The largest capacity that can be counted. -/
def maxCapacity : Nat := Nat.pow 2 61 - 1

/-- Whether a queue of the capacity can be made. -/
def hasQueue (s : Settings) : Bool := 1 ≤ s.queueCapacity && s.queueCapacity ≤ maxCapacity

/-- The first instant that the clock cannot show. -/
def clockEnd : Instant := Nat.pow 2 63 * 1000

/-- The first span of time that cannot be held. -/
def spanEnd : Millis := Nat.pow 2 64 * 1000

/-- Whether the clock can show an instant. -/
def isShown (t : Instant) : Bool := t < clockEnd

/-- How long a writer that is no longer wanted has to finish. -/
def grace (s : Settings) : Millis := s.write * 2

/-- Whether a writer can be given its time to finish. -/
def hasGrace (s : Settings) : Bool := s.grace < spanEnd

/-- Whether a heartbeat can be started at an instant. -/
def hasHeartbeat (s : Settings) (now : Instant) : Bool :=
  0 < s.heartbeat && isShown (now + s.heartbeat)

/-- Whether the silence of a peer heard at an instant can be timed. -/
def hasSilence (s : Settings) (seen : Instant) : Bool := isShown (seen + s.pong)

end Settings

end Switchboard
