import Mathlib.Data.List.Basic
import Switchboard.Hub.Requests

/-!
# The veil

What those can tell of a hub who see neither the names of anonymous users nor when frames were sent.
Veiling takes both out of everything that holds them; every other name stays
(`Identity.veil_eq_iff`). A hub goes by user ids and by queues and makes frames from public names
alone, so it does to what is veiled as it does to what is not: veiling commutes with all that it
does (`Hub.step?_veil`).
-/

namespace Switchboard

open Wire

namespace Identity

/-- An identity without its name, if that is nobody's business. -/
def veil (i : Identity) : Identity := if i.isAnonymous then { i with displayName := "" } else i

/-- The veil does not hide who a user is -/
@[simp] theorem userId_veil (i : Identity) : i.veil.userId = i.userId := by
  unfold veil
  split <;> rfl

/-- nor that they are anonymous. -/
@[simp] theorem isAnonymous_veil (i : Identity) : i.veil.isAnonymous = i.isAnonymous := by
  unfold veil
  split <;> rfl

/-- The public name is what can be seen through the veil. -/
@[simp] theorem publicName_veil (i : Identity) : i.veil.publicName = i.publicName := by
  unfold publicName
  rw [isAnonymous_veil]
  split
  · rfl
  · rename_i h
    unfold veil
    rw [if_neg h]

/-- The veil hides the names of anonymous users and nothing else. -/
theorem veil_eq_iff {i j : Identity} :
    i.veil = j.veil ↔ i.userId = j.userId ∧ i.isAnonymous = j.isAnonymous ∧
      (i.isAnonymous = false → i.displayName = j.displayName) := by
  constructor
  · intro h
    have ha : i.isAnonymous = j.isAnonymous := by
      rw [← isAnonymous_veil i, h, isAnonymous_veil]
    refine ⟨?_, ha, fun hi => ?_⟩
    · rw [← userId_veil i, h, userId_veil]
    · have hname := congrArg displayName h
      unfold veil at hname
      rw [if_neg (Bool.eq_false_iff.mp hi), if_neg (Bool.eq_false_iff.mp (ha ▸ hi))] at hname
      exact hname
  · obtain ⟨u, n, a⟩ := i
    obtain ⟨u', n', a'⟩ := j
    rintro ⟨rfl, rfl, hn⟩
    cases a with
    | true => rfl
    | false => rw [show n = n' from hn rfl]

end Identity

/-- A time that says nothing. -/
def Time.Timestamp.epoch : Time.Timestamp := ⟨⟨1970, 1, 1⟩, 0, 0, 0, 0⟩

/-- A frame without the time it was sent. -/
def Wire.Envelope.veil (e : Envelope) : Envelope := { e with timestamp := .epoch }

/-- Frames look alike if they say the same, whenever they were sent. -/
theorem Wire.Envelope.veil_eq_iff {e e' : Envelope} :
    e.veil = e'.veil ↔ e.version = e'.version ∧ e.message = e'.message := by
  constructor
  · intro h
    have hversion := congrArg Envelope.version h
    have hmessage := congrArg Envelope.message h
    exact ⟨hversion, hmessage⟩
  · obtain ⟨v, t, m⟩ := e
    obtain ⟨v', t', m'⟩ := e'
    rintro ⟨rfl, rfl⟩
    rfl

/-- An entry of the registry as it can be seen: it still shows the connection and its topics. -/
def Entry.veil (e : Entry) : Entry := { e with identity := e.identity.veil }

/-- A registration without the name that it may have to hide. -/
def Registration.veil (r : Registration) : Registration := { r with identity := r.identity.veil }

/-- A queue whose frames do not tell when they were sent. -/
def Queue.veil (q : Queue) : Queue := { q with frames := q.frames.map Envelope.veil }

def Mail.veil (m : Mail) : Mail := ⟨m.queues.map Queue.veil⟩

/-- The exchange as it can be seen. Its counters hide nothing, and its clock says nothing. -/
def Exchange.veil (x : Exchange) : Exchange :=
  ⟨x.registry.map Entry.veil, x.mail.veil, x.stats, .epoch⟩

/-- A request as it can be seen. Only one with an identity or a frame has something to hide. -/
def Request.veil : Request → Request
  | register r => register r.veil
  | dispatch target frame => dispatch target frame.veil
  | r => r

/-- What waits for a hub, veiled. -/
def veilWaiting (waiting : List (Ticket × Request)) : List (Ticket × Request) :=
  waiting.map fun p => (p.1, p.2.veil)

/-- The hub as it can be seen, with all that waits for it. -/
def Hub.veil (h : Hub) : Hub :=
  { h with exchange := h.exchange.veil, pending := veilWaiting h.pending }

/-! ## Queues -/

namespace Queue

/-- Whether a queue has room does not depend on what its frames say. -/
@[simp] theorem refusal?_veil (q : Queue) : q.veil.refusal? = q.refusal? := by
  unfold refusal? veil
  rw [List.length_map]

@[simp] theorem push_veil (q : Queue) (frame : Envelope) :
    q.veil.push frame.veil = (q.push frame).veil := by
  unfold push veil
  rw [List.map_append]
  rfl

/-- The first frame comes out first. -/
@[simp] theorem pop?_veil (q : Queue) :
    q.veil.pop? = q.pop?.map fun p => (p.1.veil, p.2.veil) := by
  obtain ⟨capacity, frames, receiver, hasSender⟩ := q
  cases frames <;> rfl

@[simp] theorem release_veil (q : Queue) : q.veil.release = q.release.veil := rfl

@[simp] theorem drop_veil (q : Queue) : q.veil.drop = q.drop.veil := rfl

@[simp] theorem isEnded_veil (q : Queue) : q.veil.isEnded = q.isEnded := rfl

end Queue

namespace Mail

@[simp] theorem get?_veil (m : Mail) (id : QueueId) : m.veil.get? id = (m.get? id).map Queue.veil :=
  List.getElem?_map

/-- The queues refuse what they would refuse without the veil. -/
@[simp] theorem refusal?_veil (m : Mail) (id : QueueId) : m.veil.refusal? id = m.refusal? id := by
  unfold refusal?
  rw [get?_veil]
  cases m.get? id with
  | none => rfl
  | some q => exact q.refusal?_veil

/-- What is done to every queue alike under the veil is done to the queues under it. -/
theorem map_veil (m : Mail) {f g : QueueId → Queue → Queue}
    (h : ∀ id q, f id q.veil = (g id q).veil) : m.veil.map f = (m.map g).veil := by
  unfold map veil
  congr 1
  refine List.ext_getElem? fun i => ?_
  rw [List.getElem?_mapIdx, List.getElem?_map, List.getElem?_map, List.getElem?_mapIdx]
  cases m.queues[i]? with
  | none => rfl
  | some q => exact congrArg some (h i q)

/-- So is what is done to one of them. -/
theorem modify_veil (m : Mail) (id : QueueId) {f g : Queue → Queue}
    (h : ∀ q, f q.veil = (g q).veil) : m.veil.modify id f = (m.modify id g).veil := by
  unfold modify veil
  congr 1
  refine List.ext_getElem? fun i => ?_
  rw [List.getElem?_modify, List.getElem?_map, List.getElem?_map, List.getElem?_modify]
  cases m.queues[i]? with
  | none => rfl
  | some q => by_cases hi : id = i <;> simp [hi, h]

/-- A new queue gets the same number. -/
@[simp] theorem create_veil (m : Mail) (capacity : Nat) :
    m.veil.create capacity = ((m.create capacity).1, (m.create capacity).2.veil) := by
  unfold create veil
  rw [List.length_map, List.map_append]
  rfl

end Mail

/-! ## The exchange -/

namespace Entry

@[simp] theorem userId_veil (e : Entry) : e.veil.userId = e.userId := e.identity.userId_veil

@[simp] theorem connection_veil (e : Entry) : e.veil.connection = e.connection := rfl

@[simp] theorem queue_veil (e : Entry) : e.veil.queue = e.queue := rfl

/-- Targets select by user id, by topic or everyone, all of which can be seen. -/
@[simp] theorem selects_veil (target : Target) (e : Entry) :
    target.selects e.veil = target.selects e := by
  cases target <;> simp [Target.selects]
  rfl

end Entry

namespace Exchange

variable (x : Exchange)

@[simp] theorem stats_veil : x.veil.stats = x.stats := rfl

@[simp] theorem registry_veil : x.veil.registry = x.registry.map Entry.veil := rfl

@[simp] theorem mail_veil : x.veil.mail = x.mail.veil := rfl

/-- A frame is made of what it says and of the time, which the veil takes out. -/
@[simp] theorem frame_veil (m : Message) : x.veil.frame m = (x.frame m).veil := rfl

theorem count_veil (f : Stats → Stats) : x.veil.count f = (x.count f).veil := rfl

/-- Whoever is looked up is found under the veil. -/
@[simp] theorem find?_veil (user : String) : x.veil.find? user = (x.find? user).map Entry.veil := by
  unfold find?
  rw [registry_veil, List.find?_map]
  refine congrArg (fun p => (x.registry.find? p).map Entry.veil) (funext fun e => ?_)
  rw [Function.comp_apply, e.userId_veil]

@[simp] theorem isOnline_veil (user : String) : x.veil.isOnline user = x.isOnline user := by
  unfold isOnline
  rw [find?_veil, Option.isSome_map]

/-- So is a connection of theirs. -/
@[simp] theorem findConnection?_veil (user : String) (c : ConnectionId) :
    x.veil.findConnection? user c = (x.findConnection? user c).map Entry.veil := by
  unfold findConnection?
  rw [find?_veil]
  cases x.find? user with
  | none => rfl
  | some e => by_cases hc : e.connection = c <;> simp [Option.filter, hc]

@[simp] theorem refusal?_veil (e : Entry) : x.veil.refusal? e.veil = x.refusal? e :=
  x.mail.refusal?_veil e.queue

/-- The same connections take a frame, -/
@[simp] theorem takes_veil (target : Target) (e : Entry) :
    x.veil.takes target e.veil = x.takes target e := by
  unfold takes
  rw [Entry.selects_veil, refusal?_veil]

/-- and the same ones refuse it. -/
@[simp] theorem refuses_veil (target : Target) (e : Entry) :
    x.veil.refuses target e.veil = x.refuses target e := by
  unfold refuses
  rw [Entry.selects_veil, refusal?_veil]

/-- A choice among veiled entries that only looks at what can be seen. -/
theorem filter_veil {p q : Entry → Bool} (es : List Entry) (h : ∀ e, p e.veil = q e) :
    (es.map Entry.veil).filter p = (es.filter q).map Entry.veil := by
  rw [List.filter_map]
  congr 2
  funext e
  exact h e

theorem any_queue_veil (es : List Entry) (id : QueueId) :
    ((es.map Entry.veil).any fun e => e.queue = id) = es.any fun e => e.queue = id := by
  rw [List.any_map]
  rfl

/-- What is delivered comes onto the same queues. -/
@[simp] theorem deliver_veil (m : Mail) (frame : Envelope) (takers refusers : List Entry) :
    deliver m.veil frame.veil (takers.map Entry.veil) (refusers.map Entry.veil) =
      (deliver m frame takers refusers).veil := by
  refine m.map_veil fun id q => ?_
  rw [any_queue_veil, any_queue_veil]
  split
  · exact q.push_veil frame
  · split <;> rfl

/-- A fan-out delivers and puts out the same connections under the veil. -/
@[simp] theorem fanOut_veil (target : Target) (frame : Envelope) :
    x.veil.fanOut target frame.veil =
      ((x.fanOut target frame).1.veil, (x.fanOut target frame).2.map Entry.veil) := by
  have htakers := filter_veil x.registry (x.takes_veil target)
  have hrefusers := filter_veil x.registry (x.refuses_veil target)
  have hkept := filter_veil (p := fun e => !x.veil.refuses target e)
    (q := fun e => !x.refuses target e) x.registry (fun e => by rw [x.refuses_veil target])
  have hslow := filter_veil (p := fun e => decide (x.veil.refusal? e = some .queueFull))
    (q := fun e => decide (x.refusal? e = some .queueFull))
    (x.registry.filter (x.refuses target)) (fun e => by rw [x.refusal?_veil])
  unfold fanOut
  dsimp only [registry_veil, mail_veil, stats_veil]
  rw [htakers, hrefusers, hkept, hslow, List.length_map, List.length_map, List.length_map,
    deliver_veil]
  rfl

theorem map_userId_veil (es : List Entry) :
    (es.map Entry.veil).map Entry.userId = es.map Entry.userId := by
  rw [List.map_map]
  exact List.map_congr_left fun e _ => e.userId_veil

/-- The departures that it sets off are announced to the same connections. -/
@[simp] theorem announce_veil (users : List String) :
    x.veil.announce users = (x.announce users).veil := by
  fun_induction announce x users with
  | case1 x => rw [announce]
  | case2 x user waiting r ih =>
    -- whoever is put out is announced by user id, which the veil does not hide
    rw [announce, frame_veil, fanOut_veil, map_userId_veil]
    exact ih

/-- A frame is sent, with all that follows from it, as it would be without the veil. -/
@[simp] theorem send_veil (target : Target) (frame : Envelope) :
    x.veil.send target frame.veil = (x.send target frame).veil := by
  unfold send
  rw [fanOut_veil]
  dsimp only
  rw [map_userId_veil, announce_veil]

/-- Publishing counts one frame more, whatever it says. -/
@[simp] theorem publish_veil (target : Target) (frame : Envelope) :
    x.veil.publish target frame.veil = (x.publish target frame).veil := by
  unfold publish
  rw [count_veil, send_veil]

@[simp] theorem release_veil (q : QueueId) : x.veil.release q = (x.release q).veil := by
  unfold release
  rw [mail_veil, x.mail.modify_veil q Queue.release_veil]
  rfl

@[simp] theorem remove_veil (user : String) : x.veil.remove user = (x.remove user).veil := by
  unfold remove
  rw [registry_veil, filter_veil (q := fun e => decide (e.userId ≠ user)) x.registry
    (fun e => by rw [e.userId_veil])]
  rfl

@[simp] theorem insert_veil (e : Entry) : x.veil.insert e.veil = (x.insert e).veil := by
  unfold insert veil
  rw [List.map_append]
  rfl

/-- Whoever comes is announced by their public name. -/
@[simp] theorem register_veil (r : Registration) :
    x.veil.register r.veil = (x.register r).veil := by
  have hentry : r.veil.entry = r.entry.veil := rfl
  have huser : r.veil.identity.userId = r.identity.userId := r.identity.userId_veil
  have hname : r.veil.identity.publicName = r.identity.publicName := r.identity.publicName_veil
  unfold register
  rw [huser, hname, hentry, count_veil]
  dsimp only
  rw [find?_veil]
  cases (x.count _).find? r.identity.userId with
  | some previous =>
    dsimp only [Option.map_some]
    rw [Entry.queue_veil, release_veil, remove_veil, insert_veil]
  | none =>
    dsimp only [Option.map_none]
    rw [insert_veil, frame_veil, send_veil]

/-- Whoever leaves is announced by user id. -/
@[simp] theorem unregister_veil (user : String) (c : ConnectionId) :
    x.veil.unregister user c = (x.unregister user c).veil := by
  unfold unregister
  rw [findConnection?_veil]
  cases x.findConnection? user c with
  | none => rfl
  | some e =>
    dsimp only [Option.map_some]
    rw [Entry.queue_veil, release_veil, remove_veil, count_veil, announce_veil]

/-- All queues of the registry are let go of in the end. -/
@[simp] theorem clear_veil : x.veil.clear = x.clear.veil := by
  unfold clear
  rw [mail_veil, x.mail.map_veil (g := fun id q =>
    if x.registry.any (·.queue = id) then q.release else q)]
  · rfl
  · intro id q
    rw [registry_veil, any_queue_veil]
    split <;> rfl

/-- Topics are changed for the same connection. -/
@[simp] theorem updateTopics_veil (user : String) (c : ConnectionId) (f : List Topic → List Topic) :
    x.veil.updateTopics user c f = (x.updateTopics user c f).veil := by
  unfold updateTopics veil
  rw [List.map_map, List.map_map]
  congr 1
  refine List.map_congr_left fun e _ => ?_
  dsimp only [Function.comp_apply]
  rw [Entry.userId_veil, Entry.connection_veil]
  split <;> rfl

theorem subscribe_veil (user : String) (c : ConnectionId) (topics : List Topic) :
    x.veil.subscribe user c topics = (x.subscribe user c topics).veil :=
  x.updateTopics_veil user c _

theorem unsubscribe_veil (user : String) (c : ConnectionId) (topics : List Topic) :
    x.veil.unsubscribe user c topics = (x.unsubscribe user c topics).veil :=
  x.updateTopics_veil user c _

end Exchange

/-! ## The hub -/

namespace Request

/-- A request waits in the same lane under the veil. -/
@[simp] theorem lane_veil (r : Request) : r.veil.lane = r.lane := by
  cases r <;> rfl

end Request

namespace Hub

variable (h : Hub)

@[simp] theorem exchange_veil : h.veil.exchange = h.exchange.veil := rfl

@[simp] theorem nextTicket_veil : h.veil.nextTicket = h.nextTicket := rfl

/-- Answers hide nothing: they tell who is online and how many are. -/
@[simp] theorem answer?_veil (t : Ticket) : h.veil.answer? t = h.answer? t := rfl

/-- A hub whose exchange is veiled is the veiled hub with that exchange. -/
theorem update_veil {x y : Exchange} (hx : x = y.veil) :
    ({ h.veil with exchange := x } : Hub) = ({ h with exchange := y } : Hub).veil := by
  rw [hx]
  rfl

/-- A request that is refused gets the same answer, and its queue is let go of. -/
@[simp] theorem abandon_veil (t : Ticket) (r : Request) :
    h.veil.abandon t r.veil = (h.abandon t r).veil := by
  cases r with
  | register r =>
    exact congrArg (reply · t .unavailable) (h.update_veil (h.exchange.release_veil r.queue))
  | unregister | dispatch | subscribe | unsubscribe | isOnline | onlineCount | shutdown => rfl

/-- A request that is issued gets the same ticket. -/
@[simp] theorem issue_veil (r : Request) :
    h.veil.issue r.veil = ((h.issue r).1, (h.issue r).2.veil) := by
  unfold issue
  dsimp only [nextTicket_veil]
  congr 1
  rw [show h.veil.running = h.running from rfl]
  split
  · unfold veil veilWaiting
    dsimp only
    rw [List.map_append]
    rfl
  · exact abandon_veil { h with nextTicket := h.nextTicket + 1 } h.nextTicket r

/-- All that waits is refused alike. -/
theorem foldl_abandon_veil (waiting : List (Ticket × Request)) :
    (veilWaiting waiting).foldl (fun (g : Hub) (p : Ticket × Request) => g.abandon p.1 p.2) h.veil =
      (waiting.foldl (fun (g : Hub) (p : Ticket × Request) => g.abandon p.1 p.2) h).veil := by
  induction waiting generalizing h with
  | nil => rfl
  | cons p waiting ih =>
    have hp := h.abandon_veil p.1 p.2
    show (veilWaiting waiting).foldl _ (h.veil.abandon p.1 p.2.veil) = _
    rw [hp]
    exact ih (h.abandon p.1 p.2)

/-- A hub stops under the veil as it does without. -/
@[simp] theorem stop_veil : h.veil.stop = h.stop.veil := by
  have hclear : ({ h.veil with
      exchange := h.veil.exchange.clear, running := false, pending := [] } : Hub) =
      ({ h with exchange := h.exchange.clear, running := false, pending := [] } : Hub).veil := by
    rw [exchange_veil, Exchange.clear_veil]
    rfl
  unfold stop
  dsimp only
  rw [hclear]
  exact foldl_abandon_veil _ h.pending

/-- Whatever is handled has the same effect and the same answer. -/
@[simp] theorem handle_veil (t : Ticket) (r : Request) :
    h.veil.handle t r.veil = (h.handle t r).veil := by
  have found : ∀ user c, (h.veil.exchange.findConnection? user c).isSome =
      (h.exchange.findConnection? user c).isSome := by
    intro user c
    rw [exchange_veil, Exchange.findConnection?_veil, Option.isSome_map]
  cases r with
  | register r =>
    exact congrArg (reply · t .registered) (h.update_veil (h.exchange.register_veil r))
  | unregister user c => exact h.update_veil (h.exchange.unregister_veil user c)
  | dispatch target frame => exact h.update_veil (h.exchange.publish_veil target frame)
  | subscribe user c topics =>
    have hx := h.update_veil (h.exchange.subscribe_veil user c topics)
    show (Hub.reply _ t (.found _)) = _
    rw [found]
    exact congrArg (reply · t _) hx
  | unsubscribe user c topics =>
    have hx := h.update_veil (h.exchange.unsubscribe_veil user c topics)
    show (Hub.reply _ t (.found _)) = _
    rw [found]
    exact congrArg (reply · t _) hx
  | isOnline user =>
    show h.veil.reply t (.online (h.veil.exchange.isOnline user)) = _
    rw [exchange_veil, Exchange.isOnline_veil]
    rfl
  | onlineCount =>
    show h.veil.reply t (.count (h.exchange.registry.map Entry.veil).length) = _
    rw [List.length_map]
    rfl
  | shutdown => exact h.stop_veil

/-- The first of a lane is the same request, veiled. -/
theorem find?_veilWaiting (waiting : List (Ticket × Request)) (l : Lane) :
    (veilWaiting waiting).find? (·.2.lane = l) =
      (waiting.find? (·.2.lane = l)).map fun p => (p.1, p.2.veil) := by
  unfold veilWaiting
  rw [List.find?_map]
  congr 2
  funext p
  exact congrArg (decide <| · = l) p.2.lane_veil

/-- A look misses the same lanes under the veil and finds the same request. -/
@[simp] theorem next?_veil (missed : List Lane) :
    h.veil.next? missed = (h.next? missed).map fun p => (p.1, p.2.veil) := by
  unfold next?
  rw [show h.veil.pending = veilWaiting h.pending from rfl, List.map_findSome?]
  congr 1
  funext l
  rw [Function.comp_apply]
  split
  · rfl
  · exact find?_veilWaiting h.pending l

/-- What is taken out of its lane is taken out of it under the veil. -/
@[simp] theorem take_veil (t : Ticket) : h.veil.take t = (h.take t).veil := by
  unfold take veil veilWaiting
  dsimp only
  rw [List.filter_map]
  rfl

/-- **A hub goes on under the veil as it does without.** -/
@[simp] theorem step?_veil (missed : List Lane) :
    h.veil.step? missed = (h.step? missed).map Hub.veil := by
  unfold step?
  rw [next?_veil]
  cases h.next? missed with
  | none => rfl
  | some p =>
    dsimp only [Option.map_some]
    rw [take_veil, handle_veil]

end Hub

end Switchboard
