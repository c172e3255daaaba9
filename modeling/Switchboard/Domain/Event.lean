import Switchboard.Json.Value

/-!
# Domain events

What has happened on the platform, before anyone has decided who is told. Ids are whatever other
services use; the data of posts, responses and notifications is opaque.
-/

namespace Switchboard

open Json (Value)

inductive DomainEvent where
  /-- A post, visible to one circle if there is one and to all otherwise. -/
  | postCreated (postId : String) (circleId : Option String) (post : Value)
  | responseCreated (postId responseId : String) (response : Value)
  /-- The name is absent when the supporter stays anonymous. -/
  | supporterJoined (postId supporterId : String) (displayName : Option String)
  | postDeleted (postId : String)
  | notificationCreated (recipientId : String) (payload : Value)

def DomainEvent.name : DomainEvent → String
  | postCreated .. => "post_created"
  | responseCreated .. => "response_created"
  | supporterJoined .. => "supporter_joined"
  | postDeleted _ => "post_deleted"
  | notificationCreated .. => "notification_created"

end Switchboard
