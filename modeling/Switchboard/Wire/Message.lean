import Switchboard.Wire.Fields

/-!
# Messages

What the server says. An event carries something that happened to those who listen for it; the
other messages answer a client's own frames. A message is written as an object with its tag first
and then its fields, an absent display name left out.
-/

namespace Switchboard.Wire

open Json

/-- Something that happened; the payloads of posts, responses and notifications are opaque. -/
inductive Event where
  | newPost (postId : String) (post : Value)
  | newResponse (postId responseId : String) (response : Value)
  | supporterJoined (postId supporterId : String) (displayName : Option String)
  | postDeleted (postId : String)
  | notification (userId : String) (notification : Value)
  | userOnline (userId : String) (displayName : Option String)
  | userOffline (userId : String)
  deriving BEq, Repr

/-- What the server writes to a client. -/
inductive Message where
  | event (event : Event)
  | authOk (userId : String)
  | authError (code reason : String)
  | subscribed (channels : List String)
  | subscribeRejected (channel reason : String)
  | unsubscribed (channels : List String)
  | error (code message : String)
  deriving BEq, Repr

/-! ## Tags -/

inductive EventKind where
  | newPost
  | newResponse
  | supporterJoined
  | postDeleted
  | notification
  | userOnline
  | userOffline
  deriving DecidableEq, Repr

def EventKind.all : List EventKind :=
  [newPost, newResponse, supporterJoined, postDeleted, notification, userOnline, userOffline]

def EventKind.name : EventKind → String
  | newPost => "new_post"
  | newResponse => "new_response"
  | supporterJoined => "supporter_joined"
  | postDeleted => "post_deleted"
  | notification => "notification"
  | userOnline => "user_online"
  | userOffline => "user_offline"

def Event.kind : Event → EventKind
  | newPost .. => .newPost
  | newResponse .. => .newResponse
  | supporterJoined .. => .supporterJoined
  | postDeleted .. => .postDeleted
  | notification .. => .notification
  | userOnline .. => .userOnline
  | userOffline .. => .userOffline

inductive MessageKind where
  | event
  | authOk
  | authError
  | subscribed
  | subscribeRejected
  | unsubscribed
  | error
  deriving DecidableEq, Repr

def MessageKind.all : List MessageKind :=
  [event, authOk, authError, subscribed, subscribeRejected, unsubscribed, error]

def MessageKind.name : MessageKind → String
  | event => "event"
  | authOk => "auth_ok"
  | authError => "auth_error"
  | subscribed => "subscribed"
  | subscribeRejected => "subscribe_rejected"
  | unsubscribed => "unsubscribed"
  | error => "error"

def Message.kind : Message → MessageKind
  | event _ => .event
  | authOk _ => .authOk
  | authError .. => .authError
  | subscribed _ => .subscribed
  | subscribeRejected .. => .subscribeRejected
  | unsubscribed _ => .unsubscribed
  | error .. => .error

/-- What a message reports: the tag of its event, or its own. -/
def Message.eventType : Message → String
  | event e => e.kind.name
  | m => m.kind.name

/-! ## Writing -/

/-- The member of a display name, if there is one. -/
def displayMember : Option String → List (String × Value)
  | none => []
  | some name => [("displayName", .text name)]

/-- The value of a list of texts. -/
def textList (texts : List String) : Value := .array (texts.map .text)

/-- The members of an event after its tag. -/
def Event.fields : Event → List (String × Value)
  | newPost postId post => [("postId", .text postId), ("post", post)]
  | newResponse postId responseId response =>
    [("postId", .text postId), ("responseId", .text responseId), ("response", response)]
  | supporterJoined postId supporterId displayName =>
    ("postId", .text postId) :: ("supporterId", .text supporterId) :: displayMember displayName
  | postDeleted postId => [("postId", .text postId)]
  | notification userId payload => [("userId", .text userId), ("notification", payload)]
  | userOnline userId displayName => ("userId", .text userId) :: displayMember displayName
  | userOffline userId => [("userId", .text userId)]

def Event.members (e : Event) : List (String × Value) :=
  ("eventType", .text e.kind.name) :: e.fields

/-- The members of a message after its tag. -/
def Message.fields : Message → List (String × Value)
  | event e => e.members
  | authOk userId => [("userId", .text userId)]
  | authError code reason => [("code", .text code), ("reason", .text reason)]
  | subscribed channels => [("channels", textList channels)]
  | subscribeRejected channel reason => [("channel", .text channel), ("reason", .text reason)]
  | unsubscribed channels => [("channels", textList channels)]
  | error code message => [("code", .text code), ("message", .text message)]

def Message.members (m : Message) : List (String × Value) :=
  ("type", .text m.kind.name) :: m.fields

/-! ## Reading -/

/-- The event of a kind with the given fields. -/
def Event.ofKind? (fields : Fields) : EventKind → Option Event
  | .newPost =>
    match fields.take? ["postId", "post"] with
    | some [some (.text postId), some post] => some (.newPost postId post)
    | _ => none
  | .newResponse =>
    match fields.take? ["postId", "responseId", "response"] with
    | some [some (.text postId), some (.text responseId), some response] =>
      some (.newResponse postId responseId response)
    | _ => none
  | .supporterJoined =>
    match fields.take? ["postId", "supporterId", "displayName"] with
    | some [some (.text postId), some (.text supporterId), name] =>
      (optionalText? name).map (.supporterJoined postId supporterId)
    | _ => none
  | .postDeleted =>
    match fields.take? ["postId"] with
    | some [some (.text postId)] => some (.postDeleted postId)
    | _ => none
  | .notification =>
    match fields.take? ["userId", "notification"] with
    | some [some (.text userId), some payload] => some (.notification userId payload)
    | _ => none
  | .userOnline =>
    match fields.take? ["userId", "displayName"] with
    | some [some (.text userId), name] => (optionalText? name).map (.userOnline userId)
    | _ => none
  | .userOffline =>
    match fields.take? ["userId"] with
    | some [some (.text userId)] => some (.userOffline userId)
    | _ => none

/-- Reads an event; its tag may be a position where `byPosition` is set. -/
def Event.ofFields? (byPosition : Bool) (fields : Fields) : Option Event :=
  match fields.split? "eventType" with
  | none => none
  | some (tag, rest) =>
    (entryOf? EventKind.all EventKind.name byPosition tag).bind (Event.ofKind? rest)

/-- Reads an event that stands by itself. -/
def Event.ofValue? (v : Value) : Option Event := (Fields.ofValue? v).bind (Event.ofFields? false)

/-- The message of a kind with the given fields. -/
def Message.ofKind? (fields : Fields) : MessageKind → Option Message
  | .event => (Event.ofFields? true fields).map .event
  | .authOk =>
    match fields.take? ["userId"] with
    | some [some (.text userId)] => some (.authOk userId)
    | _ => none
  | .authError =>
    match fields.take? ["code", "reason"] with
    | some [some (.text code), some (.text reason)] => some (.authError code reason)
    | _ => none
  | .subscribed =>
    match fields.take? ["channels"] with
    | some [some channels] => channels.texts?.map .subscribed
    | _ => none
  | .subscribeRejected =>
    match fields.take? ["channel", "reason"] with
    | some [some (.text channel), some (.text reason)] => some (.subscribeRejected channel reason)
    | _ => none
  | .unsubscribed =>
    match fields.take? ["channels"] with
    | some [some channels] => channels.texts?.map .unsubscribed
    | _ => none
  | .error =>
    match fields.take? ["code", "message"] with
    | some [some (.text code), some (.text message)] => some (.error code message)
    | _ => none

/-- Reads a message; its tag may be a position where `byPosition` is set. -/
def Message.ofFields? (byPosition : Bool) (fields : Fields) : Option Message :=
  match fields.split? "type" with
  | none => none
  | some (tag, rest) =>
    (entryOf? MessageKind.all MessageKind.name byPosition tag).bind (Message.ofKind? rest)

/-- Reads a message that stands by itself. -/
def Message.ofValue? (v : Value) : Option Message :=
  (Fields.ofValue? v).bind (Message.ofFields? false)

end Switchboard.Wire
