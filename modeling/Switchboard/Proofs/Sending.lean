import Switchboard.Hub.Requests

/-!
# Sendings

Every frame that goes out goes through `fanOut`. A *sending* is one such frame with the exchange it
met, so that whom it was meant for and who could not take it can be read off it later.

What a request makes of the exchange is stated here as a relation, because two things are left open
that the functions of the exchange decide: the time that an announcement is stamped with, and the
order in which those put out by one sending are announced. `handling_handled` says that what the
functions do is one of the ways left open.
-/

namespace Switchboard

open Wire

/-- A frame on its way to everyone it is meant for. -/
structure Sending where
  /-- The exchange that the frame met. -/
  before : Exchange
  target : Target
  frame : Envelope
  /-- Whether the hub announces something, and not a caller. -/
  isAnnounced : Bool

namespace Sending

/-- The exchange once the frame has gone out. -/
def after (s : Sending) : Exchange := (s.before.fanOut s.target s.frame).1

/-- Those whom the frame put out. -/
def refusers (s : Sending) : List Entry := (s.before.fanOut s.target s.frame).2

/-- Whether the frame was meant for the connection of a queue. -/
def selects (s : Sending) (q : QueueId) : Bool :=
  s.before.registry.any fun e => e.queue = q && s.target.selects e

/-- Whether a queue could not take the frame. -/
def isRefusedBy (s : Sending) (q : QueueId) : Bool := (s.before.mail.refusal? q).isSome

/-- Whether the frame was put on a queue. -/
def reaches (s : Sending) (q : QueueId) : Bool := s.selects q && !s.isRefusedBy q

/-- Whether the connection of a queue is out because the queue could not take the frame. -/
def putsOut (s : Sending) (q : QueueId) : Bool := s.selects q && s.isRefusedBy q

/-- The announcement that a user is gone. -/
def offline (x : Exchange) (user : String) (time : Time.Timestamp) : Sending :=
  ⟨x, .everyoneBut user, .wrap time (.event (.userOffline user)), true⟩

/-- The announcement that a user has come. -/
def online (x : Exchange) (i : Identity) (time : Time.Timestamp) : Sending :=
  ⟨x, .everyoneBut i.userId, .wrap time (.event (.userOnline i.userId i.publicName)), true⟩

end Sending

/--
`Announcing x users log y`: telling everyone in `x` that the users are gone, and those whom this
puts out in turn, sends `log` and leaves `y`. Whoever was put out by one sending is announced before
anyone who waits already, in any order.
-/
inductive Announcing : Exchange → List String → List Sending → Exchange → Prop
  | done (x : Exchange) : Announcing x [] [] x
  | next {x y : Exchange} {user : String} {waiting : List String} {log : List Sending}
      (time : Time.Timestamp) {out : List Entry} :
      out.Perm (Sending.offline x user time).refusers →
      Announcing (Sending.offline x user time).after (out.map Entry.userId ++ waiting) log y →
      Announcing x (user :: waiting) (.offline x user time :: log) y

/-- A sending followed by the announcements of those it puts out. -/
inductive Spreading (s : Sending) : List Sending → Exchange → Prop
  | mk {out : List Entry} {log : List Sending} {y : Exchange} :
      out.Perm s.refusers → Announcing s.after (out.map Entry.userId) log y →
      Spreading s (s :: log) y

/-- The exchange with a connection that nobody has been told of. -/
def Exchange.welcome (x : Exchange) (r : Registration) : Exchange :=
  (x.count fun s => { s with registered := s.registered + 1 }).insert r.entry

/-- The exchange without a connection of which nobody has been told that it is gone. -/
def Exchange.discharge (x : Exchange) (e : Entry) : Exchange :=
  ((x.release e.queue).remove e.userId).count fun s =>
    { s with unregistered := s.unregistered + 1 }

/--
`Handling x r log y`: the hub's handling of request `r` in `x` sends `log` and leaves `y`. Requests
that only ask, and the one to stop, are not among those handled here.
-/
inductive Handling : Exchange → Request → List Sending → Exchange → Prop
  | join {x y : Exchange} {r : Registration} {log : List Sending} (time : Time.Timestamp) :
      x.find? r.identity.userId = none →
      Spreading (.online (x.welcome r) r.identity time) log y → Handling x (.register r) log y
  | replace {x : Exchange} {r : Registration} {previous : Entry} :
      x.find? r.identity.userId = some previous → Handling x (.register r) [] (x.register r)
  | leave {x y : Exchange} {user : String} {c : ConnectionId} {e : Entry} {log : List Sending} :
      x.findConnection? user c = some e → Announcing (x.discharge e) [user] log y →
      Handling x (.unregister user c) log y
  | stay {x : Exchange} {user : String} {c : ConnectionId} :
      x.findConnection? user c = none → Handling x (.unregister user c) [] x
  | deliver {x y : Exchange} {target : Target} {frame : Envelope} {log : List Sending} :
      Spreading ⟨x.count fun s => { s with published := s.published + 1 }, target, frame, false⟩
        log y →
      Handling x (.dispatch target frame) log y
  | subscribe (x : Exchange) (user : String) (c : ConnectionId) (topics : List Topic) :
      Handling x (.subscribe user c topics) [] (x.subscribe user c topics)
  | unsubscribe (x : Exchange) (user : String) (c : ConnectionId) (topics : List Topic) :
      Handling x (.unsubscribe user c topics) [] (x.unsubscribe user c topics)

/-! ## What one sending does -/

namespace Sending

theorem mem_after {s : Sending} {e : Entry} :
    e ∈ s.after.registry ↔ e ∈ s.before.registry ∧ s.before.refuses s.target e = false := by
  show e ∈ s.before.registry.filter (fun e => !s.before.refuses s.target e) ↔ _
  rw [List.mem_filter, Bool.not_eq_true']

theorem mem_refusers {s : Sending} {e : Entry} :
    e ∈ s.refusers ↔ e ∈ s.before.registry ∧ s.before.refuses s.target e = true :=
  List.mem_filter

/-- Nobody enters the registry by a sending, and nobody's entry changes. -/
theorem after_sublist (s : Sending) : s.after.registry.Sublist s.before.registry :=
  List.filter_sublist

theorem any_takers (s : Sending) (q : QueueId) :
    (s.before.registry.filter (s.before.takes s.target)).any (·.queue = q) = s.reaches q := by
  rw [Bool.eq_iff_iff, List.any_eq_true]
  unfold reaches selects isRefusedBy Exchange.takes Exchange.refusal?
  simp only [List.mem_filter, Bool.and_eq_true, List.any_eq_true, decide_eq_true_eq,
    Bool.not_eq_true', Option.isNone_iff_eq_none, Option.isSome_eq_false_iff]
  constructor
  · rintro ⟨e, ⟨he, hs, hr⟩, rfl⟩
    exact ⟨⟨e, he, rfl, hs⟩, hr⟩
  · rintro ⟨⟨e, he, rfl, hs⟩, hr⟩
    exact ⟨e, ⟨he, hs, hr⟩, rfl⟩

theorem any_refusers (s : Sending) (q : QueueId) :
    s.refusers.any (·.queue = q) = s.putsOut q := by
  rw [Bool.eq_iff_iff, List.any_eq_true]
  unfold putsOut selects isRefusedBy
  simp only [mem_refusers, Exchange.refuses, Exchange.refusal?, Bool.and_eq_true,
    List.any_eq_true, decide_eq_true_eq]
  constructor
  · rintro ⟨e, ⟨he, hs, hr⟩, rfl⟩
    exact ⟨⟨e, he, rfl, hs⟩, hr⟩
  · rintro ⟨⟨e, he, rfl, hs⟩, hr⟩
    exact ⟨e, ⟨he, hs, hr⟩, rfl⟩

/-- A queue gets the frame, or loses its sender, or neither. -/
theorem get?_after (s : Sending) (q : QueueId) :
    s.after.mail.get? q = (s.before.mail.get? q).map fun a =>
      if s.reaches q then a.push s.frame else if s.putsOut q then a.release else a := by
  show (Exchange.deliver s.before.mail s.frame _ s.refusers).get? q = _
  unfold Exchange.deliver
  rw [Mail.get?_map]
  simp only [any_takers, any_refusers]

end Sending

/-! ## What is sent on account of others -/

/-- Only departures are announced on account of departures. -/
theorem Announcing.kinds {x y : Exchange} {waiting : List String} {log : List Sending}
    (h : Announcing x waiting log y) {s : Sending} (hs : s ∈ log) :
    ∃ x' user time, s = .offline x' user time := by
  induction h with
  | done x => simp at hs
  | next time _ _ ih =>
    rcases List.mem_cons.mp hs with rfl | hs
    · exact ⟨_, _, time, rfl⟩
    · exact ih hs

theorem Spreading.kinds {t : Sending} {y : Exchange} {log : List Sending}
    (h : Spreading t log y) {s : Sending} (hs : s ∈ log) :
    s = t ∨ ∃ x' user time, s = .offline x' user time := by
  cases h with
  | mk _ ha =>
    rcases List.mem_cons.mp hs with rfl | hs
    · exact Or.inl rfl
    · exact Or.inr (ha.kinds hs)

/-! ## The functions of the exchange are one way of handling -/

/-- What the hub makes of the exchange when it handles a request other than the one to stop. -/
def Exchange.handled (x : Exchange) : Request → Exchange
  | .register r => x.register r
  | .unregister user c => x.unregister user c
  | .dispatch target frame => x.publish target frame
  | .subscribe user c topics => x.subscribe user c topics
  | .unsubscribe user c topics => x.unsubscribe user c topics
  | .isOnline _ | .onlineCount | .shutdown => x

/-- Requests that change the exchange. -/
def Request.isExchange : Request → Bool
  | .register _ | .unregister .. | .dispatch .. | .subscribe .. | .unsubscribe .. => true
  | .isOnline _ | .onlineCount | .shutdown => false

theorem announcing_announce (x : Exchange) (users : List String) :
    ∃ log, Announcing x users log (x.announce users) := by
  induction x, users using Exchange.announce.induct with
  | case1 x => rw [Exchange.announce]; exact ⟨[], .done x⟩
  | case2 x user waiting r ih =>
    obtain ⟨log, h⟩ := ih
    rw [Exchange.announce]
    -- the last to be put out is announced first, which is one of the orders left open
    rw [← List.map_reverse] at h ⊢
    exact ⟨_, .next x.clock (List.reverse_perm _) h⟩

theorem spreading_send (x : Exchange) (target : Target) (frame : Envelope) (isAnnounced : Bool) :
    ∃ log, Spreading ⟨x, target, frame, isAnnounced⟩ log (x.send target frame) := by
  obtain ⟨log, h⟩ := announcing_announce (x.fanOut target frame).1
    ((x.fanOut target frame).2.map Entry.userId).reverse
  have hs : (x.fanOut target frame).1.announce
      ((x.fanOut target frame).2.map Entry.userId).reverse = x.send target frame := rfl
  rw [hs, ← List.map_reverse] at h
  exact ⟨_, .mk (List.reverse_perm _) h⟩

namespace Exchange

theorem userId_of_find? {x : Exchange} {user : String} {e : Entry} (h : x.find? user = some e) :
    e.userId = user := by
  have := List.find?_some h
  simpa using this

theorem findConnection?_eq_some {x : Exchange} {user : String} {c : ConnectionId} {e : Entry} :
    x.findConnection? user c = some e ↔ x.find? user = some e ∧ e.connection = c := by
  unfold findConnection?
  rw [Option.filter_eq_some_iff]
  simp

end Exchange

theorem handling_register (x : Exchange) (r : Registration) :
    ∃ log, Handling x (.register r) log (x.register r) := by
  cases hf : x.find? r.identity.userId with
  | some previous => exact ⟨[], .replace hf⟩
  | none =>
    obtain ⟨log, h⟩ := spreading_send (x.welcome r) (.everyoneBut r.identity.userId)
      (x.frame (.event (.userOnline r.identity.userId r.identity.publicName))) true
    refine ⟨log, .join x.clock hf ?_⟩
    show Spreading _ log (x.register r)
    unfold Exchange.register
    have hf' : (x.count fun s => { s with registered := s.registered + 1 }).find?
        r.identity.userId = none := hf
    simp only [hf']
    exact h

theorem handling_unregister (x : Exchange) (user : String) (c : ConnectionId) :
    ∃ log, Handling x (.unregister user c) log (x.unregister user c) := by
  unfold Exchange.unregister
  cases hf : x.findConnection? user c with
  | none => exact ⟨[], .stay hf⟩
  | some e =>
    obtain ⟨log, h⟩ := announcing_announce (x.discharge e) [user]
    refine ⟨log, .leave hf ?_⟩
    -- the entry is removed by the name that was asked for, which is its user's
    have hu : e.userId = user :=
      Exchange.userId_of_find? (Exchange.findConnection?_eq_some.mp hf).1
    unfold Exchange.discharge at h ⊢
    rw [hu] at h ⊢
    exact h

/-- Other requests leave the exchange as it is. -/
theorem handled_of_not_isExchange (x : Exchange) {r : Request} (hr : ¬r.isExchange) :
    x.handled r = x := by
  cases r with
  | register | unregister | dispatch | subscribe | unsubscribe => exact absurd rfl hr
  | isOnline | onlineCount | shutdown => rfl

/-- **What the functions of the exchange do is a way of handling the request.** -/
theorem handling_handled (x : Exchange) {r : Request} (hr : r.isExchange) :
    ∃ log, Handling x r log (x.handled r) := by
  cases r with
  | register r => exact handling_register x r
  | unregister user c => exact handling_unregister x user c
  | dispatch target frame =>
    obtain ⟨log, h⟩ := spreading_send (x.count fun s => { s with published := s.published + 1 })
      target frame false
    exact ⟨log, .deliver h⟩
  | subscribe user c topics => exact ⟨[], .subscribe x user c topics⟩
  | unsubscribe user c topics => exact ⟨[], .unsubscribe x user c topics⟩
  | isOnline user => simp [Request.isExchange] at hr
  | onlineCount => simp [Request.isExchange] at hr
  | shutdown => simp [Request.isExchange] at hr

end Switchboard
