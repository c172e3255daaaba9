import Switchboard.Wire.Fields
import Switchboard.Wire.Version

/-!
# Control frames

What a client may say: who it is, and which channels it wants to hear. A frame's version and type
are judged before the rest of it is read.
-/

namespace Switchboard.Wire

open Json

inductive ControlFrame where
  | auth (token : String)
  | subscribe (channels : List String)
  | unsubscribe (channels : List String)
  deriving DecidableEq, Repr

inductive ControlType where
  | auth
  | subscribe
  | unsubscribe
  deriving DecidableEq, Repr

def ControlType.all : List ControlType := [auth, subscribe, unsubscribe]

def ControlType.name : ControlType → String
  | auth => "auth"
  | subscribe => "subscribe"
  | unsubscribe => "unsubscribe"

/-- The most channels one frame may name. -/
def maxChannels : Nat := 32

namespace ControlFrame

def type : ControlFrame → ControlType
  | auth _ => .auth
  | subscribe _ => .subscribe
  | unsubscribe _ => .unsubscribe

/-- The frame of a type with the given fields. -/
def ofType? (fields : Fields) : ControlType → Option ControlFrame
  | .auth =>
    match fields.take? ["token"] with
    | some [some (.text token)] => some (.auth token)
    | _ => none
  | .subscribe =>
    match fields.take? ["channels"] with
    | some [some channels] => channels.texts?.map .subscribe
    | _ => none
  | .unsubscribe =>
    match fields.take? ["channels"] with
    | some [some channels] => channels.texts?.map .unsubscribe
    | _ => none

/-- The frame of a tree whose header has been looked at. -/
def ofTree? (t : Tree) : Option ControlFrame :=
  match (Fields.ofTree? t).bind (·.split? "type") with
  | none => none
  | some (tag, rest) =>
    (entryOf? ControlType.all ControlType.name false tag).bind (ofType? rest)

/-- The type and version in a frame's header. -/
def header? (t : Tree) : Option (Option String × Option String) :=
  match Wire.header? ["type", "version"] t with
  | some [type, version] => some (type, version)
  | _ => none

/-- A version need not be given, but one that is has to be supported. -/
def checkVersion : Option String → Except Error Unit
  | none => .ok ()
  | some version =>
    match Version.check version with
    | .ok _ => .ok ()
    | .error e => .error e

/-- A type has to be given and be one a client may use. -/
def checkType : Option String → Except Error Unit
  | none => .error (.protocol (.invalidFrame "missing type") "Control frame has no type")
  | some type =>
    if type = "event" then
      .error (.protocol .clientEventFrame "Clients may not publish events")
    else if ControlType.all.any (·.name = type) then .ok ()
    else .error (.protocol (.unknownControlType type) "Unrecognised control frame type")

/-- A list of channels names at least one, and not too many. -/
def checkChannels (channels : List String) : Except Error Unit :=
  if channels = [] then
    .error (.protocol (.invalidFrame "no channels") "Channel list is empty")
  else if maxChannels < channels.length then
    .error
      (.protocol (.invalidFrame "too many channels") "Channel list exceeds the per-frame limit")
  else .ok ()

/-- Judges what a frame that could be read asks for. -/
def check : ControlFrame → Except Error Unit
  | auth _ => .ok ()
  | subscribe channels | unsubscribe channels => checkChannels channels

def decode (text : String) : Except Error ControlFrame := do
  let some t := Tree.ofText? text | throw .malformed
  let some (type, version) := header? t | throw .malformed
  checkVersion version
  checkType type
  let some frame := ofTree? t | throw .malformed
  frame.check
  return frame

end ControlFrame

end Switchboard.Wire
