import Switchboard.Json.Printer
import Switchboard.Time.Reader
import Switchboard.Wire.Message
import Switchboard.Wire.Version

/-!
# Envelopes

A message with the version it is written in and the time it was sent, all in one flat object.
Reading looks at the version first, so a frame from another version is refused as such, whatever
else is wrong with it.
-/

namespace Switchboard.Wire

open Json Time

/-- A message as it travels. -/
structure Envelope where
  version : Version
  timestamp : Timestamp
  message : Message
  deriving BEq, Repr

namespace Envelope

def wrap (now : Timestamp) (m : Message) : Envelope := ⟨.current, now, m⟩

def members (e : Envelope) : List (String × Value) :=
  ("version", .text e.version.name) :: ("timestamp", .text e.timestamp.toText) :: e.message.members

def encode (e : Envelope) : String := String.ofList ('{' :: renderMembers e.members ++ ['}'])

/-- The envelope of a tree whose version has been looked at. -/
def ofTree? (t : Tree) : Option Envelope :=
  match Fields.ofTree? t with
  | some (.named members) => do
    let version ← Version.ofName? (← (← (← lookupOnce "version" members)).text?)
    let timestamp ← Timestamp.ofText? (← (← (← lookupOnce "timestamp" members)).text?)
    let rest := members.filter fun m => m.1 ≠ "version" ∧ m.1 ≠ "timestamp"
    let message ← Message.ofFields? true (.named rest)
    return ⟨version, timestamp, message⟩
  | _ => none

/-- The version that a tree says it is written in. -/
def version? (t : Tree) : Except Error String :=
  match header? ["version"] t with
  | some [some version] => .ok version
  | some _ => .error (.protocol (.invalidFrame "missing version") "Envelope has no version")
  | none => .error .malformed

def decode (text : String) : Except Error Envelope :=
  match Tree.ofText? text with
  | none => .error .malformed
  | some t =>
    match version? t with
    | .error e => .error e
    | .ok version =>
      match Version.check version with
      | .error e => .error e
      | .ok _ =>
        match ofTree? t with
        | none => .error .malformed
        | some e => .ok e

end Envelope

end Switchboard.Wire
