import Switchboard.Proofs.Departure
import Switchboard.Proofs.Life

/-!
# Entitlement

Whoever is sent what was published to a topic has been let in on it. The way there leads through
four parts of an instance: a token is validated and the hub takes the connection in; a frame that
names the topic is read; the directory allows it; and the hub subscribes the connection, which has
not been unsubscribed since. Each step is the connection's own, so nothing passes from one
connection of a user to the next.

The invariant (`Vouched`) keeps the evidence where it is next needed: with the reader that is
deciding, with the request that waits, with the entry in the registry. Since it speaks of requests
through the ledger and of evidence through the past, which only grow, requests that are stale or
never handled do it no harm.
-/

namespace Switchboard

open Exchange

/-! ## Evidence -/

/-- Moments of these kinds happened one after the other. -/
def InTurn : List Moment → List (Moment → Prop) → Prop
  | _, [] => True
  | past, kind :: kinds =>
    ∃ earlier m later, past = earlier ++ m :: later ∧ kind m ∧ InTurn later kinds

namespace InTurn

variable {past : List Moment} {kinds : List (Moment → Prop)}

theorem append (h : InTurn past kinds) (more : List Moment) : InTurn (past ++ more) kinds := by
  induction kinds generalizing past with
  | nil => trivial
  | cons kind kinds ih =>
    obtain ⟨earlier, m, later, rfl, hm, hl⟩ := h
    exact ⟨earlier, m, later ++ more, by simp, hm, ih hl⟩

theorem snoc (h : InTurn past kinds) {kind : Moment → Prop} {m : Moment} (hm : kind m) :
    InTurn (past ++ [m]) (kinds ++ [kind]) := by
  induction kinds generalizing past with
  | nil => exact ⟨past, m, [], rfl, hm, trivial⟩
  | cons kind' kinds ih =>
    obtain ⟨earlier, m', later, rfl, hm', hl⟩ := h
    exact ⟨earlier, m', later ++ [m], by simp, hm', ih hl⟩

theorem exists_mem (h : InTurn past kinds) {p : Moment → Prop} (hk : p ∈ kinds) :
    ∃ m ∈ past, p m := by
  induction kinds generalizing past with
  | nil => cases hk
  | cons kind' kinds ih =>
    obtain ⟨earlier, m, later, rfl, hm, hl⟩ := h
    rcases List.mem_cons.mp hk with rfl | hk
    · exact ⟨m, by simp, hm⟩
    · obtain ⟨m', hm', hkind⟩ := ih hl hk
      exact ⟨m', by simp [hm'], hkind⟩

end InTurn

namespace Moment

/-- The hub handles a request. -/
def Handles (m : Moment) (r : Request) : Prop := ∃ t, m.handles? = some (t, r)

/-- A frame is read on a connection that asks, among others, for the channel of a name. -/
def AsksFor (m : Moment) (k : ConnectionId) (name : String) : Prop :=
  ∃ channels, m.Names k channels ∧ name ∈ channels

/-- A connection is subscribed to a topic. -/
def Subscribes (m : Moment) (reg : Registration) (t : Topic) : Prop :=
  ∃ topics, m.Handles (.subscribe reg.identity.userId reg.connection topics) ∧ t ∈ topics

/-- A connection is unsubscribed from a topic. -/
def Unsubscribes (m : Moment) (reg : Registration) (t : Topic) : Prop :=
  ∃ topics, m.Handles (.unsubscribe reg.identity.userId reg.connection topics) ∧ t ∈ topics

end Moment

/-- A connection was validated as its identity's and then taken in. -/
def Joined (past : List Moment) (reg : Registration) : Prop :=
  InTurn past [(·.Validates reg.connection reg.identity), (·.Handles (.register reg))]

/-- Since it was taken in, a connection has asked for a channel. -/
def Asked (past : List Moment) (reg : Registration) (name : String) : Prop :=
  InTurn past [(·.Validates reg.connection reg.identity), (·.Handles (.register reg)),
    (·.AsksFor reg.connection name)]

/-- Since it was taken in, a connection has asked for a topic and then been allowed on it. -/
def Allowed (past : List Moment) (reg : Registration) (t : Topic) : Prop :=
  InTurn past [(·.Validates reg.connection reg.identity), (·.Handles (.register reg)),
    (·.AsksFor reg.connection t.name), (·.Allows reg.connection reg.identity t)]

/-- A connection was allowed on a topic and then subscribed to it, and has not been unsubscribed. -/
def Listens (past : List Moment) (reg : Registration) (t : Topic) : Prop :=
  ∃ earlier m later, past = earlier ++ m :: later ∧ Allowed earlier reg t ∧
    m.Subscribes reg t ∧ ∀ m' ∈ later, ¬ m'.Unsubscribes reg t

theorem Listens.snoc {past : List Moment} {reg : Registration} {t : Topic}
    (h : Listens past reg t) {m : Moment} (hm : ¬ m.Unsubscribes reg t) :
    Listens (past ++ [m]) reg t := by
  obtain ⟨earlier, sub, later, rfl, ha, hs, hl⟩ := h
  refine ⟨earlier, sub, later ++ [m], by simp, ha, hs, fun m' hm' => ?_⟩
  rcases List.mem_append.mp hm' with hm' | hm'
  · exact hl m' hm'
  · rw [List.mem_singleton.mp hm']
    exact hm

/-! ## The invariant -/

/-- Requests that callers may make do not subscribe anybody. -/
def SubscribesNobody (callers : Request → Prop) : Prop :=
  ∀ r, callers r → ∀ user k topics, r ≠ .subscribe user k topics

/-- Whatever a reader claims has happened. -/
structure Vouches (past : List Moment) (k : ConnectionId) (q : QueueId) (r : Reader) : Prop where
  session : ∀ i topics, r.session = .authenticated i topics → Joined past ⟨k, i, q⟩
  asked : ∀ i channels allowed, r.task = .deciding i channels allowed →
    ∀ name ∈ channels, Asked past ⟨k, i, q⟩ name
  allowed : ∀ i channels allowed, r.task = .deciding i channels allowed →
    ∀ t ∈ allowed, Allowed past ⟨k, i, q⟩ t
  awaiting : ∀ p t, r.task = .awaiting p t → (ledger past)[t]? = some (p.request k q)

/-- Connections do not share queues. -/
structure World.OwnQueues (w : World) : Prop where
  apart : ∀ k k' s s', w.stand? k = some s → w.stand? k' = some s' → s.queue = s'.queue → k = k'
  counted : ∀ k s, w.stand? k = some s → s.queue < w.site.hub.exchange.queueCount

/-- Whatever readers, requests and entries claim has happened. -/
structure Vouched (past : List Moment) (w : World) : Prop where
  queues : w.OwnQueues
  readers : ∀ k s, w.stand? k = some s → Vouches past k s.queue s.reader
  registers : ∀ reg, .register reg ∈ ledger past →
    InTurn past [(·.Validates reg.connection reg.identity)]
  joined : ∀ t reg, (t, .register reg) ∈ handledIn past → Joined past reg
  subscribes : ∀ user k topics, .subscribe user k topics ∈ ledger past →
    ∃ i q, i.userId = user ∧ ∀ t ∈ topics, Allowed past ⟨k, i, q⟩ t
  entries : ∀ e ∈ w.site.hub.exchange.registry, ∀ t ∈ e.topics, Listens past e.registration t

section Steps

variable {past : List Moment} {m : Moment} {v : World}

namespace Vouches

variable {k : ConnectionId} {q : QueueId} {r r' : Reader}

theorem append (h : Vouches past k q r) (m : Moment) : Vouches (past ++ [m]) k q r where
  session i topics hs := (h.session i topics hs).append [m]
  asked i channels allowed ht name hn := (h.asked i channels allowed ht name hn).append [m]
  allowed i channels allowed ht t hm := (h.allowed i channels allowed ht t hm).append [m]
  awaiting p t ht := ledger_mono (h.awaiting p t ht) m

/-- A reader that rests claims nothing new. -/
theorem rests (h : Vouches past k q r) (hr : r.Rests r') : Vouches past k q r' := by
  have hengaged : ∀ task, r'.task = task → task.isEngaged = true → r.task = task := by
    intro task ht he
    rcases hr.task with hsame | hidle
    · rw [← hsame, ht]
    · rw [ht, he] at hidle
      cases hidle
  refine ⟨fun i topics hs => ?_, fun i channels allowed ht => ?_,
    fun i channels allowed ht => ?_, fun p t ht => ?_⟩
  · obtain ⟨topics', hs'⟩ := hr.session i topics hs
    exact h.session i topics' hs'
  · exact h.asked i channels allowed (hengaged _ ht rfl)
  · exact h.allowed i channels allowed (hengaged _ ht rfl)
  · exact h.awaiting p t (hengaged _ ht rfl)

/-- A reader that is deciding claims that it was asked and what it has allowed. -/
theorem of_deciding (h : Vouches past k q r) {i : Identity} {channels : List String}
    {allowed : List Topic} (hs : r'.session = r.session)
    (ht : r'.task = .deciding i channels allowed)
    (hasked : ∀ name ∈ channels, Asked past ⟨k, i, q⟩ name)
    (hallowed : ∀ t ∈ allowed, Allowed past ⟨k, i, q⟩ t) : Vouches past k q r' := by
  refine ⟨?_, ?_, ?_, ?_⟩
  · rw [hs]
    exact h.session
  · intro i' channels' allowed' ht'
    obtain ⟨rfl, rfl, -⟩ := ReaderTask.deciding.inj (ht.symm.trans ht')
    exact hasked
  · intro i' channels' allowed' ht'
    obtain ⟨rfl, -, rfl⟩ := ReaderTask.deciding.inj (ht.symm.trans ht')
    exact hallowed
  · intro p t ht'
    rw [ht] at ht'
    cases ht'

/-- A reader with nothing new to claim but what it asks of the hub. -/
theorem of_awaiting (h : Vouches past k q r) (hb : Booked past m.hub) {p : Purpose}
    (hr : m.request? = some (p.request k q)) (hs : r'.session = r.session)
    (ht : r'.task = .awaiting p m.hub.nextTicket) : Vouches (past ++ [m]) k q r' := by
  refine ⟨?_, ?_, ?_, ?_⟩
  · rw [hs]
    exact (h.append m).session
  · intro i channels allowed ht'
    rw [ht] at ht'
    cases ht'
  · intro i channels allowed ht'
    rw [ht] at ht'
    cases ht'
  · intro p' t' ht'
    rw [ht] at ht'
    obtain ⟨rfl, rfl⟩ := ReaderTask.awaiting.inj ht'
    rw [ledger_snoc, hr, hb.count]
    exact List.getElem?_concat_length

/-- A reader that listens claims no more than its session. -/
theorem of_listening {i : Identity} {topics : List Topic} (hj : Joined past ⟨k, i, q⟩)
    (hs : r.session = .authenticated i topics) (ht : r.task = .listening) :
    Vouches past k q r := by
  refine ⟨?_, ?_, ?_, ?_⟩
  · intro i' topics' hs'
    obtain ⟨rfl, -⟩ := Session.authenticated.inj (hs.symm.trans hs')
    exact hj
  · intro i' channels allowed ht'
    rw [ht] at ht'
    cases ht'
  · intro i' channels allowed ht'
    rw [ht] at ht'
    cases ht'
  · intro p t ht'
    rw [ht] at ht'
    cases ht'

/-- A registration has been handled if the answer to it is not that the hub is unavailable. -/
theorem joined_of_answer (h : Vouches past k q r) (hb : Booked past m.hub)
    (hj : ∀ t reg, (t, .register reg) ∈ handledIn past → Joined past reg) {i : Identity}
    {t : Ticket} {a : Answer} (ht : r.task = .awaiting (.registration i) t)
    (ha : m.hub.answer? t = some a) (hu : a ≠ .unavailable) : Joined past ⟨k, i, q⟩ := by
  obtain ⟨req, hreq⟩ := hb.answered _ (Hub.mem_answers_of_answer? ha) hu
  have hreg := (hb.handled _ hreq).symm.trans (h.awaiting _ t ht)
  obtain rfl := Option.some.inj hreg
  exact hj t _ hreq

/-- What a reader claims after its turn has happened. -/
theorem turn (h : Vouches past k q r) (hb : Booked past m.hub)
    (hj : ∀ t reg, (t, .register reg) ∈ handledIn past → Joined past reg)
    (ht : Turn m k q r m.request? r') : Vouches (past ++ [m]) k q r' := by
  have ha := h.append m
  generalize hasked : m.request? = asked at ht
  cases ht with
  | rest hr => exact ha.rests hr
  | @name i topics channels hs hn =>
    refine ha.of_deciding rfl rfl (fun name hmem => ?_) (fun t hmem => by cases hmem)
    exact (h.session i topics hs).snoc ⟨channels, hn, hmem⟩
  | @allow i t rest allowed htask hal =>
    refine ha.of_deciding rfl rfl (fun name hmem => ?_) (fun t' hmem => ?_)
    · exact ha.asked i _ allowed htask name (List.mem_cons_of_mem _ hmem)
    · rcases List.mem_append.mp hmem with hmem | hmem
      · exact ha.allowed i _ allowed htask t' hmem
      · rw [List.mem_singleton.mp hmem]
        exact (h.asked i _ allowed htask t.name List.mem_cons_self).snoc hal
  | @deny i channel rest allowed reply htask =>
    refine ha.of_deciding rfl rfl (fun name hmem => ?_) (ha.allowed i _ allowed htask)
    exact ha.asked i _ allowed htask name (List.mem_cons_of_mem _ hmem)
  | @subscribe i allowed htask =>
    exact h.of_awaiting hb (p := .subscription i allowed) hasked rfl rfl
  | @unsubscribe i topics gone hs =>
    exact h.of_awaiting hb (p := .unsubscription i gone) hasked rfl rfl
  | @register i hq hv => exact h.of_awaiting hb (p := .registration i) hasked rfl rfl
  | @welcome i t a reply htask hans hu =>
    exact of_listening ((h.joined_of_answer hb hj htask hans hu).append [m]) rfl rfl

theorem becomes {s s' : Stand} (h : Vouches past k s.queue s.reader) (hb : Booked past m.hub)
    (hj : ∀ t reg, (t, .register reg) ∈ handledIn past → Joined past reg)
    (hs : s.Becomes m k s') : Vouches (past ++ [m]) k s'.queue s'.reader := by
  cases hs with
  | same => exact h.append m
  | turn _ _ ht => exact h.turn hb hj ht
  | part _ _ _ => exact h.append m

theorem start (past : List Moment) (k : ConnectionId) (q : QueueId) :
    Vouches past k q .start := by
  refine ⟨?_, ?_, ?_, ?_⟩
  · intro _ _ heq
    cases heq
  · intro _ _ _ heq
    cases heq
  · intro _ _ _ heq
    cases heq
  · intro _ _ heq
    cases heq

end Vouches

theorem World.OwnQueues.step (h : m.world.OwnQueues) (he : Effect m v) : v.OwnQueues := by
  constructor
  · intro k k' s s' hs hs' hq
    rcases he.before hs with ⟨s₀, hs₀, hbec⟩ | ho
    · rcases he.before hs' with ⟨s₀', hs₀', hbec'⟩ | ho'
      · refine h.apart k k' s₀ s₀' hs₀ hs₀' ?_
        rw [← hbec.queue, ← hbec'.queue, hq]
      · -- a queue that has just been made is nobody else's
        have hlt := h.counted k s₀ hs₀
        rw [← hbec.queue, hq, ho'.queue] at hlt
        exact absurd hlt (Nat.lt_irrefl _)
    · rcases ho.only k' s' hs' with hk | hs'
      · exact hk.symm
      · have hlt := h.counted k' s' hs'
        rw [← hq, ho.queue] at hlt
        exact absurd hlt (Nat.lt_irrefl _)
  · intro k s hs
    rcases he.before hs with ⟨s₀, hs₀, hbec⟩ | ho
    · rw [hbec.queue]
      exact Nat.lt_of_lt_of_le (h.counted k s₀ hs₀) he.queueCount_le
    · rw [ho.queue]
      exact ho.counted

/-- Only a connection's own reader subscribes it, to what it was allowed. -/
theorem Effect.subscribes {user : String} {k : ConnectionId} {topics : List Topic}
    (h : Effect m v)
    (hc : ∀ r, m.move = .undergo (.issue r) → ∀ user k topics, r ≠ .subscribe user k topics)
    (hr : m.request? = some (.subscribe user k topics)) :
    ∃ s i, m.world.stand? k = some s ∧ i.userId = user ∧
      s.reader.task = .deciding i [] topics := by
  rcases h.source hr with hmove | ⟨k', s, reader, -, hs, -, hturn, -⟩ | ⟨k', user', hleave⟩
  · exact absurd rfl (hc _ hmove user k topics)
  · cases hturn with
    | @subscribe i _ htask => exact ⟨s, i, hs, rfl, htask⟩
  · cases hleave

namespace Vouched

/-- Whoever is in the registry was itself allowed on what it is about to be subscribed to: the
evidence names the registration, and a connection has only one. -/
theorem allowed (h : Vouched past m.world) (ha : Accounted past m.world) (hb : Booked past m.hub)
    {e : Entry} (he : e ∈ m.hub.exchange.registry) {missed : List Lane} {t : Ticket}
    {topics : List Topic}
    (hn : m.hub.next? missed = some (t, .subscribe e.userId e.connection topics)) {topic : Topic}
    (ht : topic ∈ topics) : Allowed past e.registration topic := by
  have hledger := List.mem_of_getElem? (hb.pending _ (Hub.mem_pending_of_next? hn))
  obtain ⟨i, q, -, hall⟩ := h.subscribes _ _ _ hledger
  have hallowed := hall topic ht
  obtain ⟨m', hm', t', hjoin⟩ := hallowed.exists_mem
    (p := (·.Handles (.register ⟨e.connection, i, q⟩))) (by simp)
  have hreg : .register ⟨e.connection, i, q⟩ ∈ ledger past :=
    List.mem_of_getElem? (hb.handled _ (List.mem_filterMap.mpr ⟨m', hm', hjoin⟩))
  have heq : ⟨e.connection, i, q⟩ = e.registration :=
    ha.eq_of_connection hreg (ha.entries e he) rfl
  rw [heq] at hallowed
  exact hallowed

/-- What an entry listens to once a request has been handled was granted to it. -/
theorem listens (h : Vouched past m.world) (ha : Accounted past m.world) (hb : Booked past m.hub)
    {t : Ticket} {r : Request} (hm : m.handles? = some (t, r)) {e : Entry}
    (he : e ∈ m.hub.exchange.registry) {topic : Topic} (ht : topic ∈ r.retopic e) :
    Listens (past ++ [m]) e.registration topic := by
  obtain ⟨missed, -, hn⟩ := Moment.move_of_handles? hm
  have old : topic ∈ e.topics → (∀ topics, r = .unsubscribe e.userId e.connection topics →
      topic ∉ topics) → Listens (past ++ [m]) e.registration topic := by
    intro hmem hne
    refine (h.entries e he topic hmem).snoc ?_
    intro ⟨topics, ⟨t', ht'⟩, hin⟩
    obtain ⟨-, rfl⟩ := Prod.mk.inj (Option.some.inj (hm.symm.trans ht'))
    exact hne topics rfl hin
  cases r with
  | subscribe user c topics =>
    unfold Request.retopic at ht
    dsimp only at ht
    split at ht
    · rename_i hself
      obtain ⟨rfl, rfl⟩ := hself
      rcases mem_foldl_addTopic.mp ht with hmem | hmem
      · exact old hmem fun _ heq => by cases heq
      · exact ⟨past, m, [], rfl, h.allowed ha hb he hn hmem, ⟨topics, ⟨t, hm⟩, hmem⟩,
          fun _ hin => by cases hin⟩
    · exact old ht fun _ heq => by cases heq
  | unsubscribe user c topics =>
    unfold Request.retopic at ht
    dsimp only at ht
    split at ht
    · rename_i hself
      obtain ⟨hmem, hout⟩ := List.mem_filter.mp ht
      refine old hmem fun topics' heq => ?_
      cases heq
      simpa using hout
    · rename_i hother
      refine old ht fun topics' heq => ?_
      cases heq
      exact absurd ⟨rfl, rfl⟩ hother
  | register | unregister | dispatch | isOnline | onlineCount | shutdown =>
    exact old ht fun _ heq => by cases heq

theorem mem_registry (h : Vouched past m.world) (ha : Accounted past m.world)
    (hb : Booked past m.hub) (he : Effect m v) {e : Entry}
    (hm : e ∈ v.site.hub.exchange.registry) {topic : Topic} (ht : topic ∈ e.topics) :
    Listens (past ++ [m]) e.registration topic := by
  cases he with
  | @handle _ t r hmove hn hh _ =>
    rw [hh.exchange] at hm
    rcases mem_handled hm with ⟨reg, -, rfl⟩ | ⟨e₀, he₀, hreg, htopics⟩
    · cases ht
    · have hhandles : m.handles? = some (t, r) := by
        unfold Moment.handles?
        rw [hmove]
        exact hn
      rw [htopics] at ht
      rw [← hreg]
      exact h.listens ha hb hhandles he₀ ht
  | stop _ _ hk _ =>
    rw [hk.registry] at hm
    cases hm
  | other hn hk _ =>
    rw [hk.registry, Hub.exchange_enter] at hm
    refine (h.entries e hm topic ht).snoc ?_
    intro ⟨topics, ⟨t, hh⟩, _⟩
    rw [hn] at hh
    cases hh

theorem step (h : Vouched past m.world) (ha : Accounted past m.world) (hb : Booked past m.hub)
    (he : Effect m v) (hr : ∀ r, m.move = .undergo (.issue r) → r.registrant? = none)
    (hs : ∀ r, m.move = .undergo (.issue r) → ∀ user k topics, r ≠ .subscribe user k topics) :
    Vouched (past ++ [m]) v := by
  have hl := ledger_snoc past m
  refine ⟨h.queues.step he, ?_, ?_, ?_, ?_, fun e hm t ht => h.mem_registry ha hb he hm ht⟩
  · intro k s hstand
    rcases he.before hstand with ⟨s₀, hs₀, hbec⟩ | ho
    · exact (h.readers k s₀ hs₀).becomes hb h.joined hbec
    · rw [ho.reader]
      exact Vouches.start _ k _
  · intro reg hreg
    rw [hl] at hreg
    rcases List.mem_append.mp hreg with hreg | hreg
    · exact (h.registers reg hreg).append [m]
    · obtain ⟨s, s', hnew⟩ := he.registers hr (Option.mem_toList.mp hreg)
      exact ⟨past, m, [], rfl, hnew.validates, trivial⟩
  · intro t reg hreg
    rw [handledIn_snoc] at hreg
    rcases List.mem_append.mp hreg with hreg | hreg
    · exact (h.joined t reg hreg).append [m]
    · have hhandles := Option.mem_toList.mp hreg
      obtain ⟨missed, -, hn⟩ := Moment.move_of_handles? hhandles
      have hledger := List.mem_of_getElem? (hb.pending _ (Hub.mem_pending_of_next? hn))
      exact (h.registers reg hledger).snoc ⟨t, hhandles⟩
  · intro user k topics hsub
    rw [hl] at hsub
    rcases List.mem_append.mp hsub with hsub | hsub
    · obtain ⟨i, q, hi, hall⟩ := h.subscribes user k topics hsub
      exact ⟨i, q, hi, fun t ht => (hall t ht).append [m]⟩
    · -- the reader that subscribes has allowed all of it
      obtain ⟨s, i, hstand, hi, htask⟩ := he.subscribes hs (Option.mem_toList.mp hsub)
      refine ⟨i, s.queue, hi, fun t ht => ?_⟩
      exact ((h.readers k s hstand).allowed i [] topics htask t ht).append [m]

end Vouched

end Steps

/-! ## Over a course -/

section Courses

variable {callers : Request → Prop} {past : List Moment} {w : World} {service : Service}
  {now : Instant} {clock : Time.Timestamp}

theorem Vouched.start (service : Service) (now : Instant) (clock : Time.Timestamp) :
    Vouched [] (.start service now clock) := by
  refine ⟨⟨?_, ?_⟩, ?_, ?_, ?_, ?_, ?_⟩
  · intro k k' s s' hs
    cases hs
  · intro k s hs
    cases hs
  · intro k s hs
    cases hs
  · intro reg hreg
    cases hreg
  · intro t reg hreg
    cases hreg
  · intro user k topics hsub
    cases hsub
  · intro e he
    cases he

theorem Course.ownQueues (h : Course callers (.start service now clock) past w) :
    w.OwnQueues := by
  induction h with
  | start => exact (Vouched.start service now clock).queues
  | @move past u v m hcourse _ hmove ih =>
    exact World.OwnQueues.step (m := ⟨u, m⟩) ih (effect_of_move hcourse.calm hmove)

theorem Course.vouched (hr : RegistersNobody callers) (hs : SubscribesNobody callers)
    (h : Course callers (.start service now clock) past w) : Vouched past w := by
  induction h with
  | start => exact Vouched.start service now clock
  | @move past u v mv hcourse hcall hmove ih =>
    obtain ⟨ha, hb⟩ := hcourse.kept hr
    have he := effect_of_move ha.calm hmove
    exact Vouched.step (m := ⟨u, mv⟩) ih ha hb he (fun r h => hr r (hcall r h))
      fun r h => hs r (hcall r h)

/-- What is put on a queue by sending to a topic is there for an entry that listens on it. -/
theorem exists_listener {x : Exchange} {t : Topic} {frame : Wire.Envelope} {q : QueueId}
    (hput : (x.fanOut (.topic t) frame).1.framesOf q ≠ x.framesOf q) :
    ∃ e ∈ x.registry, e.queue = q ∧ t ∈ e.topics := by
  let s : Sending := ⟨x, .topic t, frame, false⟩
  have hreach : s.reaches q = true := by
    by_contra hn
    refine hput ?_
    have := s.framesOf_after q
    rw [if_neg hn, List.append_nil] at this
    exact this
  obtain ⟨hsel, -⟩ := Bool.and_eq_true_iff.mp hreach
  obtain ⟨e, he, hsel⟩ := List.any_eq_true.mp hsel
  obtain ⟨hq, hsel⟩ := Bool.and_eq_true_iff.mp hsel
  exact ⟨e, he, of_decide_eq_true hq, List.contains_iff_mem.mp hsel⟩

/-- An identity asks to listen on a circle's topic and is found to be a member. -/
def Moment.FindsMember (m : Moment) (k : ConnectionId) (i : Identity) (circle : String) : Prop :=
  m.Allows k i (.circle circle) ∧ (m.world.site.directory.ask i circle).1 = some true

/-- How it comes that a connection is sent what is published to a topic. -/
structure Entitled (past : List Moment) (reg : Registration) (t : Topic) : Prop where
  /-- It was validated and taken in, asked for the topic and was allowed on it, was subscribed to
  it, all in that order, and has not been unsubscribed since. -/
  listens : Listens past reg t
  /-- A user's channel is their own. -/
  owner : ∀ user, t = .user user → reg.identity.userId = user
  /-- Since it was taken in, its identity was found to be a member. -/
  member : ∀ circle, t = .circle circle → InTurn past
    [(·.Handles (.register reg)), (·.FindsMember reg.connection reg.identity circle)]

theorem Listens.entitled {reg : Registration} {t : Topic} (h : Listens past reg t) :
    Entitled past reg t := by
  refine ⟨h, ?_, ?_⟩
  · intro user ht
    obtain ⟨earlier, sub, later, -, hallowed, -, -⟩ := h
    obtain ⟨m, -, c, rest, allowed, -, -, hd⟩ := hallowed.exists_mem
      (p := (·.Allows reg.connection reg.identity t)) (by simp)
    exact ((Directory.authorize_eq_allow hd).2.1 user ht).symm
  · intro circle ht
    obtain ⟨earlier, sub, later, rfl, hallowed, -, -⟩ := h
    -- the five parts of the past that the four kinds of moments leave between them
    obtain ⟨a, val, _, rfl, -, b, join, _, rfl, hjoin, c, ask, _, rfl, -, d, allow, e, rfl, hallow,
      -⟩ := hallowed
    have hmember : (allow.world.site.directory.ask reg.identity circle).1 = some true := by
      obtain ⟨_, _, _, -, -, hd⟩ := hallow
      exact (Directory.authorize_eq_allow hd).2.2 circle ht
    subst ht
    have hfound : InTurn (a ++ val :: (b ++ join :: (c ++ ask :: (d ++ allow :: e))))
        [(·.Handles (.register reg)), (·.FindsMember reg.connection reg.identity circle)] :=
      ⟨a ++ val :: b, join, c ++ ask :: (d ++ allow :: e), by simp, hjoin,
        c ++ ask :: d, allow, e, by simp, ⟨hallow, hmember⟩, trivial⟩
    exact hfound.append _

/--
**Entitlement.** Whatever connections, clients and the directory do and in whichever order: if
sending a frame to a topic puts it on a connection's queue, the connection is entitled to it.
-/
theorem entitled_of_fanOut (hr : RegistersNobody callers) (hs : SubscribesNobody callers)
    (h : Course callers (.start service now clock) past w) {k : ConnectionId} {c : Connection}
    (hc : w.connections[k]? = some c) {t : Topic} {frame : Wire.Envelope}
    (hput : (w.site.hub.exchange.fanOut (.topic t) frame).1.framesOf c.queue ≠
      w.site.hub.exchange.framesOf c.queue) :
    ∃ i, Entitled past ⟨k, i, c.queue⟩ t := by
  obtain ⟨ha, hb⟩ := h.kept hr
  have hv := h.vouched hr hs
  -- somebody with this queue listens on the topic
  obtain ⟨e, he, hq, ht⟩ := exists_listener hput
  -- and that is the connection, since queues are not shared
  obtain ⟨s, hstand, -, -, hqueue⟩ := ha.registered _ (ha.entries e he)
  have hk : e.connection = k :=
    hv.queues.apart _ _ s c.stand hstand (stand?_of_connection hc) (hqueue.trans hq)
  refine ⟨e.identity, ?_⟩
  rw [← hk, ← hq]
  exact (hv.entries e he t ht).entitled

end Courses

/-! ## A reunion -/

namespace Reunion

/-- Ann signs in and asks to listen to the readers' circle, of which she is a member. -/
def moves : List Move :=
  [.undergo (.addMember "readers" "ann"),
    .undergo (.connect .standard ((Encounter.signIn "ann").arrive
      [.text "\x7b\"type\":\"subscribe\",\"channels\":[\"circle:readers\"]\x7d"])),
    .act (.reader 0), .act (.reader 0), .act (.hub []), .act (.reader 0), .act (.reader 0),
    .act (.reader 0), .act (.reader 0), .act (.reader 0), .act (.hub [])]

theorem possible : (Encounter.start.follow? moves).isSome = true := by decide +kernel

/-- Ann listens. -/
def evening : World := (Encounter.start.follow? moves).get possible

theorem course : Course (fun _ => False) Encounter.start (Encounter.start.trail moves) evening :=
  course_of_follow? (by simp [moves]) (Option.some_get possible).symm

def note : Wire.Envelope := .wrap ⟨⟨2024, 1, 1⟩, 0, 0, 0, 0⟩ (.event (.postDeleted "1"))

theorem queue_zero : evening.connections[0]?.map Connection.queue = some 0 := by decide +kernel

/-- What is published to the circle comes onto Ann's queue. -/
theorem put : (evening.site.hub.exchange.fanOut (.topic (.circle "readers")) note).1.framesOf 0 ≠
    evening.site.hub.exchange.framesOf 0 := by
  intro heq
  have hlength := congrArg List.length heq
  revert hlength
  decide +kernel

end Reunion

theorem entitled_of_fanOut_reunion : ∃ c i, Reunion.evening.connections[0]? = some c ∧
    Entitled (Encounter.start.trail Reunion.moves) ⟨0, i, c.queue⟩ (.circle "readers") := by
  obtain ⟨c, hc, hq⟩ := Option.map_eq_some_iff.mp Reunion.queue_zero
  obtain ⟨i, hi⟩ := entitled_of_fanOut (fun _ h => h.elim) (fun _ h => h.elim) Reunion.course hc
    (hq ▸ Reunion.put)
  exact ⟨c, i, hc, hi⟩

end Switchboard
