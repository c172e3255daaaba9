import Switchboard.Proofs.Entitlement
import Switchboard.Proofs.Life

/-!
# What a client has been told

The topics of a connection are kept in three places: in the hub's entry, which decides what is
delivered; with the connection's reader; and, as names, in the replies that the client has had. They
change at different times. Between the moment at which the hub handles a request and the one at
which the reader learns of it, the entry is ahead by what was asked, and never by more, because a
reader waits for the answer to one request before it asks the next (`InStep`). The replies are
behind the reader only while one is still to be passed on, and a topic's name names no other
(`Course.told_uttered`).

So whenever a reader is about to take up a frame, all three agree (`told_faithful`).
-/

namespace Switchboard

open Wire Exchange

/-! ## Reading the replies -/

/-- What a client listens to by what it is told, given what it listened to before. -/
def Wire.Message.tell (topics : List Topic) : Message → List Topic
  | .subscribed channels => (channels.filterMap Topic.ofName?).foldl addTopic topics
  | .unsubscribed channels => topics.filter (!(channels.filterMap Topic.ofName?).contains ·)
  | _ => topics

/-- What a client listens to by all that it has been told. -/
def told (replies : List Message) : List Topic := replies.foldl Message.tell []

theorem told_append (replies more : List Message) :
    told (replies ++ more) = more.foldl Message.tell (told replies) :=
  List.foldl_append

/-- Names are read back as the topics that were named. -/
theorem filterMap_ofName?_names {topics : List Topic}
    (h : ∀ t ∈ topics, Topic.ofName? t.name = some t) :
    (topics.map Topic.name).filterMap Topic.ofName? = topics := by
  induction topics with
  | nil => rfl
  | cons t topics ih =>
    rw [List.map_cons, List.filterMap_cons_some (h t List.mem_cons_self),
      ih fun t' ht' => h t' (List.mem_cons_of_mem t ht')]

/-- The topics that a reader takes its client to listen to. -/
def Session.topics : Session → List Topic
  | .unauthenticated _ => []
  | .authenticated _ topics => topics

theorem Session.topics_updateTopics {session : Session} {i : Identity} {current : List Topic}
    (h : session = .authenticated i current) (f : List Topic → List Topic) :
    (session.updateTopics f).topics = f session.topics := by
  rw [h]
  rfl

section Replies

variable {site : Site} {c : Connection} {asked : Option Purpose} {r : Reader}

/-- A reader tells its client nothing but what it takes to be so. -/
theorem Stride.tells (hs : c.reader.Sound) (h : Stride site c asked r)
    (ho : c.reader.outgoing = []) :
    r.outgoing.foldl Message.tell c.reader.session.topics = r.session.topics := by
  cases h with
  | pass ho' =>
    rw [ho'] at ho
    cases ho
  | skip | leave | present | name | drop | ignore | register | allow | conclude | subscribe
    | lost =>
    -- it says nothing
    show c.reader.outgoing.foldl Message.tell _ = _
    rw [ho]
    rfl
  | refuse _ hsess _ _ =>
    rw [hsess]
    rfl
  | deny | violate => rfl
  | welcome hat _ _ =>
    obtain ⟨n, hsess⟩ := hs.suits hat
    rw [hsess]
    rfl
  | @subscribed i topics t a hat _ _ _ =>
    obtain ⟨⟨current, hsess⟩, hnames⟩ := hs.suits hat
    show Message.tell _ (.subscribed (topics.map Topic.name)) =
      (c.reader.session.updateTopics _).topics
    rw [Session.topics_updateTopics hsess]
    unfold Message.tell
    dsimp only
    rw [filterMap_ofName?_names hnames]
  | @unsubscribed i topics t a hat _ _ _ =>
    obtain ⟨⟨current, hsess⟩, hnames⟩ := hs.suits hat
    show Message.tell _ (.unsubscribed (topics.map Topic.name)) =
      (c.reader.session.updateTopics _).topics
    rw [Session.topics_updateTopics hsess]
    unfold Message.tell
    dsimp only
    rw [filterMap_ofName?_names hnames]

end Replies

/-! ## The hub is ahead by what was asked -/

/-- Who listens to something else, or at all, because of a request. -/
def Request.asker? : Request → Option ConnectionId
  | register reg => some reg.connection
  | subscribe _ k _ | unsubscribe _ k _ => some k
  | unregister .. | dispatch .. | isOnline _ | onlineCount | shutdown => none

theorem Purpose.asker?_request (p : Purpose) (k : ConnectionId) (q : QueueId) :
    (p.request k q).asker? = some k := by
  cases p <;> rfl

/-- What handling a request for `p` makes of a connection's topics. -/
def Purpose.revise (p : Purpose) (current : List Topic) : List Topic :=
  match p with
  | .registration _ => current
  | .subscription _ topics => topics.foldl addTopic current
  | .unsubscription _ topics => current.filter (!topics.contains ·)

/--
`r.Expects done topics`: by what the reader `r` knows, a hub that has handled `done` has these
topics for its connection.
-/
inductive Reader.Expects (done : List (Ticket × Request)) (r : Reader) : List Topic → Prop
  | settled : (∀ p t q, r.task = .awaiting p t → (t, q) ∉ done) → Expects done r r.session.topics
  /-- The hub has handled what was asked, and the reader does not know yet. -/
  | ahead {p : Purpose} {t : Ticket} {q : Request} :
      r.task = .awaiting p t → (t, q) ∈ done → Expects done r (p.revise r.session.topics)
  /-- A reader that has finished does not know. -/
  | finished {why : Termination} {topics : List Topic} :
      r.task = .finished why → Expects done r topics

namespace Reader.Expects

variable {done : List (Ticket × Request)} {r : Reader} {topics : List Topic}

theorem of_not_awaiting (h : r.session.topics = topics) (hr : ∀ p t, r.task ≠ .awaiting p t) :
    r.Expects done topics :=
  h ▸ .settled fun p t _ ht => absurd ht (hr p t)

/-- A reader that is not behind expects what it knows of. -/
theorem eq (h : r.Expects done topics) (hr : ∀ p t q, r.task = .awaiting p t → (t, q) ∉ done)
    (hf : ∀ why, r.task ≠ .finished why) : topics = r.session.topics := by
  cases h with
  | settled => rfl
  | ahead ht hq => exact absurd hq (hr _ _ _ ht)
  | finished ht => exact absurd ht (hf _)

theorem eq_of_not_awaiting (h : r.Expects done topics) (hr : ∀ p t, r.task ≠ .awaiting p t)
    (hf : ∀ why, r.task ≠ .finished why) : topics = r.session.topics :=
  h.eq (fun p t _ ht => absurd ht (hr p t)) hf

/-- What a reader does not wait for makes no difference to what it expects. -/
theorem append (h : r.Expects done topics) {t : Ticket} (q : Request)
    (hr : ∀ p, r.task ≠ .awaiting p t) : r.Expects (done ++ [(t, q)]) topics := by
  cases h with
  | settled hn =>
    refine .settled fun p t' q' hp hq => ?_
    rcases List.mem_append.mp hq with hq | hq
    · exact hn p t' q' hp hq
    · obtain ⟨rfl, -⟩ := Prod.mk.inj (List.mem_singleton.mp hq)
      exact hr p hp
  | ahead hp hq => exact .ahead hp (List.mem_append_left _ hq)
  | finished hf => exact .finished hf

/-- A reader that was not behind, knows what it knew and is not behind, expects what it did. -/
theorem goOn (h : r.Expects done topics) (hr : ∀ p t, r.task ≠ .awaiting p t)
    (hf : ∀ why, r.task ≠ .finished why) {r' : Reader}
    (hs : r'.session.topics = r.session.topics)
    (hr' : ∀ p t q, r'.task = .awaiting p t → (t, q) ∉ done) : r'.Expects done topics := by
  rw [h.eq_of_not_awaiting hr hf, ← hs]
  exact .settled hr'

/-- A reader that learns what the hub has made of its request is not behind any more. -/
theorem learn (h : r.Expects done topics) {p : Purpose} {t : Ticket} {q : Request}
    (hp : r.task = .awaiting p t) (hq : (t, q) ∈ done) {r' : Reader}
    (hs : r'.session.topics = p.revise r.session.topics)
    (hr' : ∀ p t, r'.task ≠ .awaiting p t) : r'.Expects done topics := by
  refine .of_not_awaiting ?_ hr'
  rw [hs]
  cases h with
  | settled hn => exact absurd hq (hn p t q hp)
  | ahead hp' _ =>
    obtain ⟨rfl, -⟩ := ReaderTask.awaiting.inj (hp.symm.trans hp')
    rfl
  | finished hf => cases hp.symm.trans hf

end Reader.Expects

section Strides

variable {site : Site} {c : Connection} {asked : Option Purpose} {r : Reader}
  {done : List (Ticket × Request)} {topics : List Topic}

/-- A reader that has asked waits. -/
theorem Stride.awaits {p : Purpose} (h : Stride site c (some p) r) :
    r.task = .awaiting p site.hub.nextTicket ∧ r.session = c.reader.session := by
  cases h with
  | drop | register | subscribe => exact ⟨rfl, rfl⟩

/-- A reader waits until it has an answer. -/
theorem Stride.waits {t : Ticket} (h : Stride site c asked r)
    (hw : (∃ p, c.reader.task = .awaiting p t) ∨ ∃ why, c.reader.task = .finished why)
    (hans : ∀ a, site.hub.answer? t = some a → a = .unavailable) :
    (∃ p, r.task = .awaiting p t) ∨ ∃ why, r.task = .finished why := by
  have idle : ∀ {task}, c.IsAt task → (∀ p t, task ≠ .awaiting p t) →
      (∀ why, task ≠ .finished why) → False := by
    intro task hat hw' hf
    rcases hw with ⟨p, hp⟩ | ⟨why, hwhy⟩
    · exact hw' p t (hat.2.symm.trans hp)
    · exact hf why (hat.2.symm.trans hwhy)
  have answered : ∀ {p t' a}, c.IsAt (.awaiting p t') → site.hub.answer? t' = some a →
      a ≠ .unavailable → False := by
    intro p t' a hat ha hu
    rcases hw with ⟨p', hp⟩ | ⟨why, hwhy⟩
    · obtain ⟨-, rfl⟩ := ReaderTask.awaiting.inj (hat.2.symm.trans hp)
      exact hu (hans a ha)
    · cases hat.2.symm.trans hwhy
  cases h with
  | pass _ => exact hw
  | leave | violate => exact Or.inr ⟨_, rfl⟩
  | skip _ hat | present _ _ hat _ | name hat _ _ _ | drop _ hat _ | refuse hat _ _ _
    | ignore hat _ | register hat _ _ | allow hat _ | deny hat _ | conclude hat
    | subscribe hat _ => exact (idle hat (by simp) (by simp)).elim
  | welcome hat ha hu => exact (answered hat ha hu).elim
  | lost hat ha => exact (answered hat ha (by simp)).elim
  | subscribed hat ha hu _ | unsubscribed hat ha hu _ => exact (answered hat ha hu).elim

/-- Asking makes no difference until the hub handles what was asked, and what the reader learns it
has done already. -/
theorem Stride.expects (hs : c.reader.Sound) (h : Stride site c asked r)
    (hnext : ∀ q, (site.hub.nextTicket, q) ∉ done)
    (hans : ∀ t a, site.hub.answer? t = some a → a ≠ .unavailable → ∃ q, (t, q) ∈ done)
    (he : c.reader.Expects done topics) : r.Expects done topics := by
  have goes : ∀ {task}, c.IsAt task → (∀ p t, task ≠ .awaiting p t) →
      (∀ why, task ≠ .finished why) → r.session.topics = c.reader.session.topics →
      (∀ p t q, r.task = .awaiting p t → (t, q) ∉ done) → r.Expects done topics :=
    fun hat hw hf => he.goOn (hat.2 ▸ hw) (hat.2 ▸ hf)
  have asks : ∀ {task p}, c.IsAt task → (∀ p t, task ≠ .awaiting p t) →
      (∀ why, task ≠ .finished why) → asked = some p → r.Expects done topics := by
    intro task p hat hw hf ha
    rw [ha] at h
    obtain ⟨hr, hsess⟩ := h.awaits
    refine goes hat hw hf (congrArg Session.topics hsess) fun p' t' q ht' => ?_
    rw [hr] at ht'
    obtain ⟨-, rfl⟩ := ReaderTask.awaiting.inj ht'
    exact hnext q
  have learns : ∀ {p t a}, c.IsAt (.awaiting p t) → site.hub.answer? t = some a →
      a ≠ .unavailable → r.session.topics = p.revise c.reader.session.topics →
      r.task = .listening → r.Expects done topics := by
    intro p t a hat ha hu hsess hr
    obtain ⟨q, hq⟩ := hans t a ha hu
    exact he.learn hat.2 hq hsess (by simp [hr])
  cases h with
  | pass _ =>
    cases he with
    | settled hn => exact .settled (r := { c.reader with outgoing := _ }) hn
    | ahead ht hq => exact .ahead (r := { c.reader with outgoing := _ }) ht hq
    | finished ht => exact .finished ht
  | skip _ hat => exact he
  | leave => exact .finished rfl
  | present _ _ hat _ => exact goes hat (by simp) (by simp) rfl (by simp [Reader.goOn])
  | name hat _ _ _ => exact goes hat (by simp) (by simp) rfl (by simp [Reader.goOn])
  | drop _ hat _ => exact asks hat (by simp) (by simp) rfl
  | refuse hat hsess _ _ =>
    refine goes hat (by simp) (by simp) ?_ fun p t q ht => ?_
    · rw [hsess]
      rfl
    · rcases Settings.afterFailures_cases _ _ with ht' | ht'
      · cases ht'.symm.trans ht
      · cases ht'.symm.trans ht
  | ignore hat _ => exact goes hat (by simp) (by simp) rfl (by simp [Reader.goOn])
  | register hat _ _ => exact asks hat (by simp) (by simp) rfl
  | allow hat _ => exact goes hat (by simp) (by simp) rfl (by simp [Reader.goOn])
  | deny hat _ => exact goes hat (by simp) (by simp) rfl (by simp [Reader.say])
  | conclude hat => exact goes hat (by simp) (by simp) rfl (by simp [Reader.goOn])
  | subscribe hat _ => exact asks hat (by simp) (by simp) rfl
  | welcome hat ha hu =>
    obtain ⟨n, hsess⟩ := hs.suits hat
    refine learns hat ha hu ?_ rfl
    rw [hsess]
    rfl
  | lost => exact .finished rfl
  | subscribed hat ha hu _ =>
    obtain ⟨⟨current, hsess⟩, -⟩ := hs.suits hat
    exact learns hat ha hu (Session.topics_updateTopics hsess _) rfl
  | unsubscribed hat ha hu _ =>
    obtain ⟨⟨current, hsess⟩, -⟩ := hs.suits hat
    exact learns hat ha hu (Session.topics_updateTopics hsess _) rfl
  | violate => exact .finished rfl

end Strides

/-- The hub's entries are what readers expect, and what it has been asked is what they wait for. -/
structure InStep (past : List Moment) (w : World) : Prop where
  entries : ∀ e ∈ w.site.hub.exchange.registry, ∀ c, w.connections[e.connection]? = some c →
    c.reader.Expects (handledIn past) e.topics
  pending : ∀ p ∈ w.site.hub.pending, ∀ k, p.2.asker? = some k →
    ∃ c, w.connections[k]? = some c ∧
      ((∃ purpose, c.reader.task = .awaiting purpose p.1) ∨ ∃ why, c.reader.task = .finished why)

/-- Requests that callers may make are not made for any connection. -/
def AsksForNobody (callers : Request → Prop) : Prop := ∀ r, callers r → r.asker? = none

theorem AsksForNobody.registersNobody {callers : Request → Prop} (h : AsksForNobody callers) :
    RegistersNobody callers := by
  intro r hr
  have := h r hr
  cases r with
  | register => cases this
  | _ => rfl

theorem AsksForNobody.subscribesNobody {callers : Request → Prop} (h : AsksForNobody callers) :
    SubscribesNobody callers := by
  intro r hr user k topics heq
  have := h r hr
  rw [heq] at this
  cases this

section Steps

variable {past : List Moment} {m : Moment} {v : World} {k : ConnectionId}

/-- Only a connection's own reader asks anything for it. -/
theorem Effect.asker (he : Effect m v) (hc : ∀ r, m.move = .undergo (.issue r) → r.asker? = none)
    {r : Request} (hr : m.request? = some r) (hk : r.asker? = some k) :
    m.move = .act (.reader k) ∧ ∃ s, m.world.stand? k = some s := by
  rcases he.source hr with hmove | ⟨k', s, reader, hm, hs, -, hturn, -⟩ | ⟨k', user, rfl⟩
  · rw [hc r hmove] at hk
    cases hk
  · cases hturn with
    | subscribe | unsubscribe | register =>
      obtain rfl := Option.some.inj hk
      exact ⟨hm, s, hs⟩
  · cases hk

/-- All that is known of a world and of the moment that it makes of it. -/
structure Situation (past : List Moment) (m : Moment) (v : World) : Prop where
  accounted : Accounted past m.world
  booked : Booked past m.hub
  vouched : Vouched past m.world
  sound : ∀ (k : ConnectionId) (c : Connection), m.world.connections[k]? = some c →
    c.reader.Sound
  effect : Effect m v
  becomes : ∀ (k : ConnectionId) (c : Connection), m.world.connections[k]? = some c →
    ∃ c', v.connections[k]? = some c' ∧ c.Becomes m k v c'
  callers : ∀ r, m.move = .undergo (.issue r) → r.asker? = none

namespace Situation

theorem connection (h : Situation past m v) {e : Entry} (he : e ∈ m.hub.exchange.registry) :
    ∃ c, m.world.connections[e.connection]? = some c := by
  obtain ⟨s, hs, -⟩ := h.accounted.registered _ (h.accounted.entries e he)
  obtain ⟨c, hc, -⟩ := Option.map_eq_some_iff.mp hs
  exact ⟨c, hc⟩

theorem nextTicket_not_mem (h : Situation past m v) (q : Request) :
    (m.hub.nextTicket, q) ∉ handledIn past := fun hq =>
  Nat.lt_irrefl _ (h.booked.lt_nextTicket (h.booked.handled _ hq))

theorem handled_of_answer (h : Situation past m v) {t : Ticket} {a : Answer}
    (ha : m.hub.answer? t = some a) (hu : a ≠ .unavailable) : ∃ q, (t, q) ∈ handledIn past :=
  h.booked.answered _ (Hub.mem_answers_of_answer? ha) hu

/-- The reader of a connection is the same after a move that is not its own. -/
theorem reader_eq (h : Situation past m v) {c c' : Connection}
    (hc : m.world.connections[k]? = some c) (hc' : v.connections[k]? = some c')
    (hm : m.move ≠ .act (.reader k)) : c'.reader = c.reader := by
  obtain ⟨c₁, hc₁, hbec⟩ := h.becomes k c hc
  obtain rfl := Option.some.inj (hc'.symm.trans hc₁)
  cases hbec with
  | stride hmove _ _ _ => exact absurd hmove hm
  | other _ hg => exact hg.reader

/-- What a reader waits for is what it has asked. -/
theorem awaited (h : Situation past m v) {c : Connection} (hc : m.world.connections[k]? = some c)
    {p : Purpose} {t : Ticket} (ht : c.reader.task = .awaiting p t) {r : Request}
    (hr : (t, r) ∈ m.hub.pending) : r = p.request k c.queue := by
  have hledger := (h.vouched.readers k _ (stand?_of_connection hc)).awaiting p t ht
  exact Option.some.inj ((h.booked.pending _ hr).symm.trans hledger)

/-- The identity of an entry is the one that its connection has authenticated as. -/
theorem userId_eq (h : Situation past m v) {e : Entry} (he : e ∈ m.hub.exchange.registry)
    {c : Connection} (hc : m.world.connections[e.connection]? = some c) {i : Identity}
    {topics : List Topic} (hs : c.reader.session = .authenticated i topics) :
    e.userId = i.userId := by
  have hj : Joined past ⟨e.connection, i, c.queue⟩ :=
    (h.vouched.readers _ _ (stand?_of_connection hc)).session i topics hs
  obtain ⟨m', hm', t, hhandles⟩ :=
    hj.exists_mem (p := (·.Handles (.register ⟨e.connection, i, c.queue⟩))) (by simp)
  have hreg : .register ⟨e.connection, i, c.queue⟩ ∈ ledger past :=
    List.mem_of_getElem? (h.booked.handled _ (List.mem_filterMap.mpr ⟨m', hm', hhandles⟩))
  have heq := h.accounted.eq_of_connection (h.accounted.entries e he) hreg rfl
  exact congrArg (fun reg : Registration => reg.identity.userId) heq

/-- What a request makes of the entry of the connection that waits for it. -/
theorem retopic_eq (h : Situation past m v) {e : Entry} (he : e ∈ m.hub.exchange.registry)
    {c : Connection} (hc : m.world.connections[e.connection]? = some c) {p : Purpose}
    {t : Ticket} (ht : c.reader.task = .awaiting p t) :
    (p.request e.connection c.queue).retopic e = p.revise e.topics := by
  have hsound := h.sound _ c hc
  unfold Reader.Sound at hsound
  rw [ht] at hsound
  cases p with
  | registration i => rfl
  | subscription i topics | unsubscription i topics =>
    obtain ⟨⟨current, hsess⟩, -⟩ := hsound
    exact if_pos ⟨h.userId_eq he hc hsess, rfl⟩

theorem retopic_of_ne {e : Entry} {r : Request} (hr : r.asker? ≠ some e.connection) :
    r.retopic e = e.topics := by
  cases r with
  | subscribe user k topics | unsubscribe user k topics =>
    refine if_neg fun heq => hr ?_
    rw [heq.2]
    rfl
  | register | unregister | dispatch | isOnline | onlineCount | shutdown => rfl

end Situation

namespace InStep

/-- A reader waits for what it has asked as long as the hub has it. -/
theorem awaits (h : InStep past m.world) (hv : Situation past m v) {t : Ticket} {r : Request}
    (hn : (t, r) ∈ m.hub.pending) {c : Connection} (hc : m.world.connections[k]? = some c)
    (hk : r.asker? = some k) :
    (∃ p, c.reader.task = .awaiting p t ∧ r = p.request k c.queue) ∨
      ∃ why, c.reader.task = .finished why := by
  obtain ⟨c₁, hc₁, hwait⟩ := h.pending _ hn k hk
  obtain rfl := Option.some.inj (hc.symm.trans hc₁)
  rcases hwait with ⟨p, hp⟩ | hf
  · exact Or.inl ⟨p, hp, hv.awaited hc hp hn⟩
  · exact Or.inr hf

/-- When a request is handled, whoever waits for it is told later. -/
theorem expects_handled (h : InStep past m.world) (hv : Situation past m v) {t : Ticket}
    {r : Request} (hn : (t, r) ∈ m.hub.pending) {e : Entry}
    (he : e ∈ m.hub.exchange.registry) {c : Connection}
    (hc : m.world.connections[e.connection]? = some c) :
    c.reader.Expects (handledIn past ++ [(t, r)]) (r.retopic e) := by
  have hexp := h.entries e he c hc
  by_cases hk : r.asker? = some e.connection
  · rcases h.awaits hv hn hc hk with ⟨p, hp, rfl⟩ | ⟨why, hf⟩
    · rw [hv.retopic_eq he hc hp]
      have htopics : e.topics = c.reader.session.topics := by
        refine hexp.eq (fun p' t' q hp' hq => ?_) (by simp [hp])
        -- what waits has not been handled
        obtain ⟨-, rfl⟩ := ReaderTask.awaiting.inj (hp.symm.trans hp')
        exact hv.booked.apart _ hq _ hn rfl
      rw [htopics]
      exact .ahead hp (List.mem_append_right _ (List.mem_singleton.mpr rfl))
    · exact .finished hf
  · rw [Situation.retopic_of_ne hk]
    refine hexp.append r fun p hp => hk ?_
    rw [hv.awaited hc hp hn]
    exact p.asker?_request _ _

/-- A connection that is taken in listens to nothing, and its reader knows of nothing. -/
theorem expects_registered (h : InStep past m.world) (hv : Situation past m v) {t : Ticket}
    {reg : Registration} (hn : (t, .register reg) ∈ m.hub.pending) :
    ∃ c, m.world.connections[reg.connection]? = some c ∧
      c.reader.Expects (handledIn past ++ [(t, .register reg)]) [] := by
  obtain ⟨c, hc, -⟩ := h.pending _ hn reg.connection rfl
  refine ⟨c, hc, ?_⟩
  rcases h.awaits hv hn hc rfl with ⟨p, hp, hreq⟩ | ⟨why, hf⟩
  · cases p with
    | registration i =>
      have hsound := hv.sound _ c hc
      unfold Reader.Sound at hsound
      rw [hp] at hsound
      obtain ⟨n, hsess⟩ := hsound
      have hexp : c.reader.Expects (handledIn past ++ [(t, .register reg)])
          c.reader.session.topics :=
        .ahead hp (List.mem_append_right _ (List.mem_singleton.mpr rfl))
      rw [hsess] at hexp
      exact hexp
    | subscription | unsubscription => cases hreq
  · exact .finished hf

/-- What the reader of an entry's connection expects after a move that is not the hub's. -/
theorem expects_other (h : InStep past m.world) (hv : Situation past m v) {e : Entry}
    (he : e ∈ m.hub.exchange.registry) {c' : Connection}
    (hc' : v.connections[e.connection]? = some c') :
    c'.reader.Expects (handledIn past) e.topics := by
  obtain ⟨c, hc⟩ := hv.connection he
  have hexp := h.entries e he c hc
  obtain ⟨c₁, hc₁, hbec⟩ := hv.becomes _ c hc
  obtain rfl := Option.some.inj (hc'.symm.trans hc₁)
  cases hbec with
  | stride _ _ hs _ =>
    exact hs.stride.expects (hv.sound _ c hc) hv.nextTicket_not_mem
      (fun _ _ ha hu => hv.handled_of_answer ha hu) hexp
  | other _ hg =>
    rw [hg.reader]
    exact hexp

theorem step_entries (h : InStep past m.world) (hv : Situation past m v) {e : Entry}
    (he : e ∈ v.site.hub.exchange.registry) {c' : Connection}
    (hc' : v.connections[e.connection]? = some c') :
    c'.reader.Expects (handledIn (past ++ [m])) e.topics := by
  cases hv.effect with
  | @handle _ t r hm hn hh _ =>
    have hne : m.move ≠ .act (.reader e.connection) := by simp [hm]
    have hmem := Hub.mem_pending_of_next? hn
    rw [(Booked.hub_step hm hn).2]
    rw [hh.exchange] at he
    rcases mem_handled he with ⟨reg, rfl, rfl⟩ | ⟨e₀, he₀, hreg, htopics⟩
    · obtain ⟨c, hc, hexp⟩ := h.expects_registered hv hmem
      rw [hv.reader_eq hc hc' hne]
      exact hexp
    · have hk : e₀.connection = e.connection := congrArg Registration.connection hreg
      obtain ⟨c, hc⟩ := hv.connection he₀
      rw [hv.reader_eq (hk ▸ hc) hc' hne, htopics]
      exact h.expects_handled hv hmem he₀ hc
  | stop _ _ hkeeps _ =>
    rw [hkeeps.registry] at he
    cases he
  | other hn hkeeps _ =>
    rw [hkeeps.registry, Hub.exchange_enter] at he
    rw [handledIn_snoc, hn]
    show c'.reader.Expects (handledIn past ++ []) e.topics
    rw [List.append_nil]
    exact h.expects_other hv he hc'

/-- A reader goes on waiting for what the hub has not handled. -/
theorem waits_other (h : InStep past m.world) (hv : Situation past m v) {p : Ticket × Request}
    (hp : p ∈ m.hub.pending) (hk : p.2.asker? = some k) :
    ∃ c', v.connections[k]? = some c' ∧
      ((∃ purpose, c'.reader.task = .awaiting purpose p.1) ∨
        ∃ why, c'.reader.task = .finished why) := by
  obtain ⟨c, hc, hwait⟩ := h.pending p hp k hk
  obtain ⟨c', hc', hbec⟩ := hv.becomes k c hc
  refine ⟨c', hc', ?_⟩
  cases hbec with
  | other _ hg =>
    rw [hg.reader]
    exact hwait
  | stride _ _ hs _ =>
    refine hs.stride.waits hwait fun a ha => ?_
    by_contra hu
    obtain ⟨q, hq⟩ := hv.handled_of_answer ha hu
    exact hv.booked.apart _ hq p hp rfl

theorem step_pending (h : InStep past m.world) (hv : Situation past m v) {p : Ticket × Request}
    (hp : p ∈ v.site.hub.pending) (hk : p.2.asker? = some k) :
    ∃ c', v.connections[k]? = some c' ∧
      ((∃ purpose, c'.reader.task = .awaiting purpose p.1) ∨
        ∃ why, c'.reader.task = .finished why) := by
  cases hv.effect with
  | handle _ _ hh _ =>
    rw [hh.pending] at hp
    exact h.waits_other hv (List.mem_filter.mp hp).1 hk
  | stop _ _ hkeeps _ =>
    rw [hkeeps.pending] at hp
    cases hp
  | other _ hkeeps _ =>
    rw [hkeeps.pending] at hp
    rcases Hub.mem_pending_enter hp with hp | ⟨ht, hr⟩
    · exact h.waits_other hv hp hk
    · obtain ⟨hm, s, hs⟩ := hv.effect.asker hv.callers hr hk
      obtain ⟨c, hc, -⟩ := Option.map_eq_some_iff.mp hs
      obtain ⟨c', hc', hbec⟩ := hv.becomes k c hc
      refine ⟨c', hc', Or.inl ?_⟩
      cases hbec with
      | other hne _ => exact absurd hm hne
      | stride _ _ hstrode _ =>
        have hasks : m.request? = c.asks? k m.world.site := by
          unfold Moment.request?
          rw [hm]
          dsimp only
          rw [hc]
          rfl
        rw [hasks, hstrode.asks] at hr
        obtain ⟨purpose, rfl, -⟩ := Option.map_eq_some_iff.mp hr
        exact ⟨purpose, ht ▸ hstrode.stride.awaits.1⟩

theorem step (h : InStep past m.world) (hv : Situation past m v) : InStep (past ++ [m]) v where
  entries _ he _ hc := h.step_entries hv he hc
  pending _ hp _ hk := h.step_pending hv hp hk

end InStep

end Steps

/-! ## Over a course -/

section Courses

variable {callers : Request → Prop} {past : List Moment} {w : World} {service : Service}
  {now : Instant} {clock : Time.Timestamp}

theorem Course.situation (hc : AsksForNobody callers)
    (h : Course callers (.start service now clock) past w) {m : Move} {v : World}
    (hcall : ∀ r, m = .undergo (.issue r) → callers r) (hmove : w.move? m = some v) :
    Situation past ⟨w, m⟩ v := by
  obtain ⟨ha, hb⟩ := h.kept hc.registersNobody
  exact ⟨ha, hb, h.vouched hc.registersNobody hc.subscribesNobody, fun _ _ => h.sound,
    effect_of_move ha.calm hmove, fun _ _ => becomes_of_move ha.calm hmove,
    fun r hr => hc r (hcall r hr)⟩

theorem Course.inStep (hc : AsksForNobody callers)
    (h : Course callers (.start service now clock) past w) : InStep past w := by
  induction h with
  | start =>
    refine ⟨?_, ?_⟩
    · intro e he
      cases he
    · intro p hp
      cases hp
  | move hcourse hcall hmove ih => exact ih.step (hcourse.situation hc hcall hmove)

/-- What has been said and what is still to be passed on tell what the reader takes to be so. -/
theorem Course.told_uttered (h : Course callers (.start service now clock) past w)
    {k : ConnectionId} {c : Connection} (hc : w.connections[k]? = some c) :
    told (uttered k past c) = c.reader.session.topics := by
  refine (h.life (P := fun past c => c.reader.Sound ∧
    told (uttered k past c) = c.reader.session.topics) ?_ ?_ ?_ hc).2
  · intro past c hstart hne
    rw [uttered_of_start hne hstart, hstart]
    exact ⟨trivial, rfl⟩
  · intro past m c asked c' site hm hc hs ⟨hsound, htold⟩
    refine ⟨hs.stride.sound hsound, ?_⟩
    rcases uttered_of_stride past hm hc hs.stride with
      ⟨_, rest, -, hr, hu⟩ | ⟨ho, hu⟩
    · rw [hu, hr, htold]
    · rw [hu, told_append, htold]
      exact hs.stride.tells hsound ho
  · intro past m c c' hm hg ⟨hsound, htold⟩
    rw [uttered_of_goesOn hm hg, hg.reader]
    exact ⟨hsound, htold⟩

/--
**What a client has been told is what it gets.** Whatever connections, clients and the directory do
and in whichever order: when a connection's reader is about to take up a frame of a client that has
authenticated, and the registry has the connection's entry, then the topics of the entry are those
that the reader knows of, and those that follow from all the replies so far.
-/
theorem told_faithful (hc : AsksForNobody callers)
    (h : Course callers (.start service now clock) past w) {k : ConnectionId} {c : Connection}
    (hk : w.connections[k]? = some c) (hat : c.IsAt .listening) {i : Identity}
    {topics : List Topic} (hs : c.reader.session = .authenticated i topics) {e : Entry}
    (he : w.site.hub.exchange.findConnection? i.userId k = some e) :
    e.topics = topics ∧ told (said k past) = topics := by
  obtain ⟨hfind, rfl⟩ := findConnection?_eq_some.mp he
  have htopics : c.reader.session.topics = topics := by
    rw [hs]
    rfl
  refine ⟨?_, ?_⟩
  · have hexp := (h.inStep hc).entries e (mem_of_find? hfind) c hk
    rw [← htopics]
    exact hexp.eq_of_not_awaiting (by simp [hat.2]) (by simp [hat.2])
  · have htold := h.told_uttered hk
    unfold uttered at htold
    rw [hat.1, List.append_nil] at htold
    rw [htold, htopics]

end Courses

/-! ## A change of mind -/

namespace Reconsidering

/-- Ann asks for channels twice, for one that is not hers and for one that there is not, and then
takes back one of them and some that she never had. -/
def moves : List Move :=
  [.undergo (.connect .standard ((Encounter.signIn "ann").arrive
      [.text ("\x7b\"type\":\"subscribe\",\"channels\":[\"posts\",\"circle:writers\"," ++
          "\"nowhere\",\"posts\",\"post:1\"]\x7d"),
        .text ("\x7b\"type\":\"unsubscribe\",\"channels\":[\"nowhere\",\"posts\"," ++
          "\"post:2\"]\x7d")])),
    .act (.reader 0), .act (.reader 0), .act (.hub [])] ++
  List.replicate 11 (.act (.reader 0)) ++ [.act (.hub [])] ++
  List.replicate 3 (.act (.reader 0)) ++ [.act (.hub [])] ++
  List.replicate 2 (.act (.reader 0))

theorem possible : (Encounter.start.follow? moves).isSome = true := by decide +kernel

/-- Ann has had her answers. -/
def evening : World := (Encounter.start.follow? moves).get possible

theorem course : Course (fun _ => False) Encounter.start (Encounter.start.trail moves) evening :=
  course_of_follow? (by simp [moves]) (Option.some_get possible).symm

theorem quiet : evening.connections[0]?.map
    (fun c => (c.reader.outgoing.isEmpty, c.reader.task, c.reader.session)) =
      some (true, .listening, .authenticated ⟨"ann", "ann", false⟩ [.post "1"]) := by
  decide +kernel

theorem listed : (evening.site.hub.exchange.findConnection? "ann" 0).isSome = true := by
  decide +kernel

end Reconsidering

theorem told_faithful_reconsidering : ∃ e : Entry,
    Reconsidering.evening.site.hub.exchange.findConnection? "ann" 0 = some e ∧
      e.topics = [.post "1"] ∧
      told (said 0 (Encounter.start.trail Reconsidering.moves)) = [.post "1"] := by
  obtain ⟨e, he⟩ := Option.isSome_iff_exists.mp Reconsidering.listed
  obtain ⟨c, hc, hquiet⟩ := Option.map_eq_some_iff.mp Reconsidering.quiet
  obtain ⟨ho, hquiet⟩ := Prod.mk.inj hquiet
  obtain ⟨ht, hs⟩ := Prod.mk.inj hquiet
  exact ⟨e, he, told_faithful (fun _ h => h.elim) Reconsidering.course hc
    ⟨List.isEmpty_iff.mp ho, ht⟩ hs he⟩

end Switchboard
