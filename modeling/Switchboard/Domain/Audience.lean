import Switchboard.Domain.Publisher
import Switchboard.Hub.Requests

/-!
# Audiences

Who is told of a domain event, and what. A post in a circle is for that circle alone; a notification
is for its recipient whatever anyone listens to.
-/

namespace Switchboard

open Wire (Event)

namespace DomainEvent

/-- What listeners are told. -/
def announcement : DomainEvent → Event
  | postCreated postId _ post => .newPost postId post
  | responseCreated postId responseId response => .newResponse postId responseId response
  | supporterJoined postId supporterId name => .supporterJoined postId supporterId name
  | postDeleted postId => .postDeleted postId
  | notificationCreated recipientId payload => .notification recipientId payload

/-- Whom an event is for, in the order they are told. -/
def audience : DomainEvent → List Target
  | postCreated _ (some circle) _ => [.topic (.circle circle)]
  | postCreated _ none _ => [.topic .posts]
  | responseCreated postId _ _ => [.topic .responses, .topic (.post postId)]
  | supporterJoined postId _ _ => [.topic (.post postId)]
  | postDeleted postId => [.topic .posts, .topic (.post postId)]
  | notificationCreated recipientId _ => [.user recipientId]

end DomainEvent

/-- The handler that asks the hub to tell an event's audience. -/
def Hub.announceEvent : Handler Hub := fun e h =>
  e.audience.foldl (fun h target => h.dispatch target e.announcement) h

/-- The publisher that tells listeners and does nothing else. -/
def realtimePublisher : Publisher Hub := Publisher.empty.withHandler Hub.announceEvent

end Switchboard
