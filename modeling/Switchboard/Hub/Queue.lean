import Switchboard.Error
import Switchboard.Wire.Envelope

/-!
# Outbound queues

A bounded queue of frames between the hub, which puts them in, and the writer of one connection,
which takes them out. Either end can let go: without its sender a queue runs dry, without its
receiver it takes nothing more.
-/

namespace Switchboard

open Wire

/-- What has become of the receiving end. -/
inductive Receiver where
  | listening
  /-- No more frames are taken in; those that wait can still be taken out. -/
  | closed
  /-- The frames that waited are lost. -/
  | gone
  deriving DecidableEq, Repr

/-- The frames that wait for one connection, the next one first. -/
structure Queue where
  capacity : Nat
  frames : List Envelope
  receiver : Receiver
  hasSender : Bool

namespace Queue

/-- A queue with both ends held. -/
def new (capacity : Nat) : Queue := ⟨capacity, [], .listening, true⟩

/-- Why the queue will not take a frame. A queue that is closed says so even when it is full. -/
def refusal? (q : Queue) : Option DeliveryFault :=
  if q.receiver ≠ .listening then some .queueClosed
  else if q.capacity ≤ q.frames.length then some .queueFull
  else none

def push (q : Queue) (frame : Envelope) : Queue := { q with frames := q.frames ++ [frame] }

def pop? (q : Queue) : Option (Envelope × Queue) :=
  match q.frames with
  | [] => none
  | frame :: frames => some (frame, { q with frames })

/-- Takes out the next frames, all of them or no more than so many. -/
def takeUpTo (q : Queue) (most : Option Nat) : List Envelope × Queue :=
  let n := most.getD q.frames.length
  (q.frames.take n, { q with frames := q.frames.drop n })

/-- Lets go of the sending end. -/
def release (q : Queue) : Queue := { q with hasSender := false }

/-- Refuses further frames. -/
def close (q : Queue) : Queue :=
  if q.receiver = .listening then { q with receiver := .closed } else q

/-- Lets go of the receiving end. -/
def drop (q : Queue) : Queue := { q with frames := [], receiver := .gone }

/-- Whether nothing will ever be put in again. -/
def isEnded (q : Queue) : Bool := !q.hasSender || q.receiver ≠ .listening

end Queue

abbrev QueueId := Nat

/-- Every queue there has been, by number. -/
structure Mail where
  queues : List Queue

namespace Mail

def empty : Mail := ⟨[]⟩

def create (m : Mail) (capacity : Nat) : QueueId × Mail :=
  (m.queues.length, ⟨m.queues ++ [Queue.new capacity]⟩)

def get? (m : Mail) (id : QueueId) : Option Queue := m.queues[id]?

/-- Changes every queue according to its number. -/
def map (m : Mail) (f : QueueId → Queue → Queue) : Mail := ⟨m.queues.mapIdx f⟩

def modify (m : Mail) (id : QueueId) (f : Queue → Queue) : Mail := ⟨m.queues.modify id f⟩

/-- Why a queue will not take a frame; one that never was counts as closed. -/
def refusal? (m : Mail) (id : QueueId) : Option DeliveryFault :=
  match m.get? id with
  | some q => q.refusal?
  | none => some .queueClosed

@[simp] theorem get?_map (m : Mail) (f : QueueId → Queue → Queue) (id : QueueId) :
    (m.map f).get? id = (m.get? id).map (f id) := by
  simp [map, get?]

theorem get?_modify (m : Mail) (id : QueueId) (f : Queue → Queue) (other : QueueId) :
    (m.modify id f).get? other = if id = other then (m.get? other).map f else m.get? other := by
  unfold modify get?
  rw [List.getElem?_modify]
  split <;> simp

theorem get?_create (m : Mail) (capacity : Nat) (id : QueueId) :
    (m.create capacity).2.get? id =
      if id = m.queues.length then some (Queue.new capacity) else m.get? id := by
  unfold create get?
  by_cases h : id < m.queues.length
  · rw [List.getElem?_append_left h, if_neg (Nat.ne_of_lt h)]
  · by_cases he : id = m.queues.length
    · subst he; simp
    · have hlt : m.queues.length < id := Nat.lt_of_le_of_ne (Nat.le_of_not_lt h) (Ne.symm he)
      rw [if_neg he, List.getElem?_eq_none (by simpa using Nat.succ_le_of_lt hlt),
        List.getElem?_eq_none (Nat.le_of_lt hlt)]

end Mail

end Switchboard
