import Switchboard.Proofs.Erasure
import Switchboard.Proofs.Fates
import Switchboard.Proofs.Rulings

/-!
# Every channel is answered

What comes of a frame that asks to listen on channels, followed from the moment at which the reader
takes it up until it takes up another. Channels are decided on one after the other, and each is in
what is still to be decided, in a rejection, or among those that the hub is asked for (`Answering`);
the hub then finds the connection in the registry or not, or has stopped and does not look at all
(`Outcome`).

The hub answers a reader's request by what the registry is like when it handles it. That is known
from the fate of the request (`Course.fate`), whatever other callers ask in the meantime.
-/

namespace Switchboard

open Wire Exchange

/-! ## What the hub makes of it -/

namespace Exchange

variable {x : Exchange} {user : String} {k : ConnectionId}

/-- The entry of a connection has got topics, and nothing else has changed. -/
structure Gains (user : String) (k : ConnectionId) (topics : List Topic) (x y : Exchange) :
    Prop where
  entry : ∃ e e' : Entry, x.find? user = some e ∧ e.connection = k ∧ y.find? user = some e' ∧
    e'.registration = e.registration ∧ ∀ t, t ∈ e'.topics ↔ t ∈ e.topics ∨ t ∈ topics
  others : ∀ user', user' ≠ user → y.find? user' = x.find? user'
  rest : y = { x with registry := y.registry }

/-- What a request to listen comes to: an entry that is there gains the topics, and without one
nothing changes anywhere. -/
structure Enrols (user : String) (k : ConnectionId) (topics : List Topic) (x y : Exchange) :
    Prop where
  found : (x.findConnection? user k).isSome = true → x.Gains user k topics y
  missing : x.findConnection? user k = none → y = x

theorem find?_subscribe (x : Exchange) (user : String) (k : ConnectionId) (topics : List Topic)
    (user' : String) : (x.subscribe user k topics).find? user' = (x.find? user').map fun e =>
      if e.userId = user ∧ e.connection = k then
        { e with topics := topics.foldl addTopic e.topics } else e := by
  unfold subscribe updateTopics find?
  rw [List.find?_map]
  refine congrArg _ (congrFun (congrArg _ (funext fun e => ?_)) _)
  rw [Function.comp_apply]
  split <;> rfl

theorem gains_subscribe (h : (x.findConnection? user k).isSome = true) (topics : List Topic) :
    x.Gains user k topics (x.subscribe user k topics) := by
  obtain ⟨e, he⟩ := Option.isSome_iff_exists.mp h
  obtain ⟨hfind, hk⟩ := findConnection?_eq_some.mp he
  refine ⟨⟨e, { e with topics := topics.foldl addTopic e.topics }, hfind, hk, ?_, rfl,
    fun t => mem_foldl_addTopic⟩, fun user' hne => ?_, rfl⟩
  · rw [find?_subscribe, hfind, Option.map_some, if_pos ⟨userId_of_find? hfind, hk⟩]
  · rw [find?_subscribe]
    cases hfind' : x.find? user' with
    | none => rfl
    | some e' =>
      rw [Option.map_some, if_neg fun heq => hne ((userId_of_find? hfind').symm.trans heq.1)]

theorem enrols_subscribe (hx : x.UniqueUsers) (topics : List Topic) :
    x.Enrols user k topics (x.subscribe user k topics) :=
  ⟨fun h => gains_subscribe h topics,
    fun h => handled_of_stale (r := .subscribe user k topics) hx rfl h⟩

end Exchange

/-! ## How far a reader has got -/

/--
What has come of a reader's request to listen to the topics that were granted by `rs`, issued with
the ticket `t`: the reader is at the task, and has said what is listed since.
-/
inductive Outcome (k : ConnectionId) (i : Identity) (past later : List Moment) (w : World)
    (rs : List Ruling) (t : Ticket) : ReaderTask → List Message → Prop
  | awaited : Outcome k i past later w rs t (.awaiting (.subscription i (granted rs)) t) []
  /-- The connection was registered, and the reader knows. -/
  | subscribed {m : Moment} :
      m ∈ later → m.handles? = some (t, .subscribe i.userId k (granted rs)) →
      (m.hub.exchange.findConnection? i.userId k).isSome = true →
      Outcome k i past later w rs t .listening [.subscribed (grantedNames rs)]
  /-- It was not. -/
  | lost {m : Moment} :
      m ∈ later → m.handles? = some (t, .subscribe i.userId k (granted rs)) →
      m.hub.exchange.findConnection? i.userId k = none →
      Outcome k i past later w rs t (.finished .queueClosed) []
  /-- The hub has stopped without handling the request. -/
  | unavailable :
      w.site.hub.running = false → (∀ r, (t, r) ∉ handledIn (past ++ later)) →
      Outcome k i past later w rs t (.finished (.protocolViolation hubUnavailable.code))
        [.error hubUnavailable.code hubUnavailable.message]

/--
How far a reader has got with a frame that asks to listen on channels, when it has made the rulings
`rs`: the channels that are left, its task, what it has said other than rejections, and what it has
asked of the hub.
-/
inductive Headway (k : ConnectionId) (i : Identity) (past later : List Moment) (w : World)
    (rs : List Ruling) : List String → ReaderTask → List Message → List Request → Prop
  | deciding (rest : List String) :
      Headway k i past later w rs rest (.deciding i rest (granted rs)) [] []
  /-- Every channel was denied. -/
  | denied : granted rs = [] → Headway k i past later w rs [] .listening [] []
  | asked {m : Moment} {task : ReaderTask} {closing : List Message} :
      granted rs ≠ [] → m ∈ later → m.begs? k = some (.subscribe i.userId k (granted rs)) →
      Outcome k i past later w rs m.hub.nextTicket task closing →
      Headway k i past later w rs [] task closing [.subscribe i.userId k (granted rs)]

/--
How the reader of connection `k` has dealt so far with a frame that asks to listen on `channels`. It
was taken up as the last of `past`, and `later` has happened since.
-/
structure Answering (k : ConnectionId) (i : Identity) (topics : List Topic)
    (channels : List String) (past later : List Moment) (w : World) (c : Connection)
    (rest : List String) (closing : List Message) (asked : List Request) : Prop where
  /-- The client stays authenticated, and listens to what it has been told. -/
  session : c.reader.session = .authenticated i (closing.foldl Message.tell topics)
  /-- Channels are decided on once each and in their order. -/
  decided : (rulings k later).map Ruling.channel ++ rest = channels
  /-- Nothing is said but one rejection for each that is denied, and what comes of the others. -/
  replies : uttered k (past ++ later) c =
    said k past ++ (rejections (rulings k later) ++ closing)
  pleas : pleas k later = asked
  headway : Headway k i past later w (rulings k later) rest c.reader.task closing asked
  /-- The reader has made few steps, and few are left. -/
  toil : (turns k later).length + c.reader.toil ≤ 2 * channels.length + 3

section Steps

variable {k : ConnectionId} {i : Identity} {topics : List Topic} {channels : List String}
  {past later : List Moment} {w v : World} {m : Moment} {c c' : Connection} {rs : List Ruling}
  {rest : List String} {closing : List Message} {asked : List Request} {task : ReaderTask}
  {t : Ticket}

/-- A hub that has stopped stays so and handles nothing. -/
theorem stopped_of_effect (hb : Booked past m.hub) (he : Effect m v)
    (hr : m.hub.running = false) : v.site.hub.running = false ∧ m.handles? = none := by
  have hidle : ∀ {missed t r}, m.hub.next? missed ≠ some (t, r) := by
    intro missed t r hn
    have hp := Hub.mem_pending_of_next? hn
    rw [(hb.stopped hr).2] at hp
    cases hp
  cases he with
  | handle _ hn _ _ => exact absurd hn hidle
  | stop _ hn _ _ => exact absurd hn hidle
  | other hh hk _ => exact ⟨hk.running.trans ((Hub.running_enter _ _).trans hr), hh⟩

theorem Outcome.keep (h : Outcome k i past later m.world rs t task closing)
    (hb : Booked (past ++ later) m.hub) (he : Effect m v) :
    Outcome k i past (later ++ [m]) v rs t task closing := by
  cases h with
  | awaited => exact .awaited
  | subscribed hm hh hthere => exact .subscribed (List.mem_append_left _ hm) hh hthere
  | lost hm hh hnone => exact .lost (List.mem_append_left _ hm) hh hnone
  | unavailable hr hn =>
    obtain ⟨hr', hh⟩ := stopped_of_effect hb he hr
    refine .unavailable hr' fun r hmem => hn r ?_
    rw [← List.append_assoc, handledIn_snoc, hh] at hmem
    simpa using hmem

theorem Headway.keep (h : Headway k i past later m.world rs rest task closing asked)
    (hb : Booked (past ++ later) m.hub) (he : Effect m v) :
    Headway k i past (later ++ [m]) v rs rest task closing asked := by
  cases h with
  | deciding => exact .deciding rest
  | denied hnone => exact .denied hnone
  | asked hne hm hbegs ho => exact .asked hne (List.mem_append_left _ hm) hbegs (ho.keep hb he)

/-- Nothing is decided, asked or said. -/
theorem Answering.keep
    (h : Answering k i topics channels past later m.world c rest closing asked)
    (hb : Booked (past ++ later) m.hub) (he : Effect m v) (hrules : m.rules? k = none)
    (hbegs : m.begs? k = none) (hsession : c'.reader.session = c.reader.session)
    (htask : c'.reader.task = c.reader.task)
    (huttered : uttered k (past ++ (later ++ [m])) c' = uttered k (past ++ later) c)
    (htoil : (m.ofReader? k some).toList.length + c'.reader.toil ≤ c.reader.toil) :
    Answering k i topics channels past (later ++ [m]) v c' rest closing asked := by
  have hrulings : rulings k (later ++ [m]) = rulings k later := by
    rw [rulings_snoc, hrules]
    exact List.append_nil _
  refine ⟨hsession.trans h.session, ?_, ?_, ?_, ?_, ?_⟩
  · rw [hrulings]
    exact h.decided
  · rw [hrulings, huttered]
    exact h.replies
  · rw [pleas_snoc, hbegs]
    exact (List.append_nil _).trans h.pleas
  · rw [hrulings, htask]
    exact h.headway.keep hb he
  · rw [turns_snoc, List.length_append]
    have := h.toil
    omega

end Steps

/-! ## What the reader's steps do -/

section Strides

variable {k : ConnectionId} {i : Identity} {topics : List Topic} {channels : List String}
  {past later : List Moment} {v : World} {m : Moment} {c c' : Connection} {site : Site}
  {rest : List String} {closing : List Message} {asked : List Request}

/-- A step that the reader takes with nothing left to pass on. -/
structure Takes (k : ConnectionId) (past : List Moment) (m : Moment) (v : World)
    (c c' : Connection) (site : Site) : Prop where
  move : m.move = .act (.reader k)
  connection : m.world.connections[k]? = some c
  silent : c.reader.outgoing = []
  step : c.stepReader? k m.world.site = some (c', site)
  uttered : uttered k (past ++ [m]) c' = Switchboard.uttered k past c ++ c'.reader.outgoing
  booked : Booked past m.hub
  effect : Effect m v

namespace Takes

theorem isAt (h : Takes k past m v c c' site) {task : ReaderTask} (ht : c.reader.task = task) :
    c.IsAt task := ⟨h.silent, ht⟩

theorem rules? (h : Takes k past m v c c' site) :
    m.rules? k = c.rules? m.world.site.directory := Moment.ofReader?_of_act h.move h.connection

theorem begs? (h : Takes k past m v c c' site) : m.begs? k = c.asks? k m.world.site :=
  Moment.ofReader?_of_act h.move h.connection

theorem length_turns (h : Takes k past m v c c' site) (later : List Moment) :
    (turns k (later ++ [m])).length = (turns k later).length + 1 := by
  have hturn : m.ofReader? k some = some c := Moment.ofReader?_of_act h.move h.connection
  rw [turns_snoc, hturn, List.length_append]
  rfl

end Takes

/-- What a ruling adds to those made before. -/
theorem granted_append (rs : List Ruling) (r : Ruling) :
    granted (rs ++ [r]) = granted rs ++ r.grant?.toList := filterMap_snoc Ruling.grant? rs r

theorem rejections_append (rs : List Ruling) (r : Ruling) :
    rejections (rs ++ [r]) = rejections rs ++ r.rejection?.toList :=
  filterMap_snoc Ruling.rejection? rs r

/-- The reader decides on a channel. -/
theorem Answering.rule {channel : String}
    (h : Answering k i topics channels past later m.world c (channel :: rest) [] [])
    (ht : Takes k (past ++ later) m v c c' site)
    (htask : c.reader.task = .deciding i (channel :: rest) (granted (rulings k later))) :
    Answering k i topics channels past (later ++ [m]) v c' rest [] [] := by
  have hat := ht.isAt htask
  obtain ⟨hreader, hasks⟩ := stepReader?_of_channel hat ht.step
  obtain ⟨r, hr⟩ : ∃ r : Ruling,
      r = ⟨channel, (m.world.site.directory.authorize i channel).1⟩ := ⟨_, rfl⟩
  have hrulings : rulings k (later ++ [m]) = rulings k later ++ [r] := by
    rw [rulings_snoc, ht.rules?, Connection.rules?_of_deciding _ hat, hr]
    rfl
  have hbegs : m.begs? k = none := ht.begs?.trans hasks
  have hsaid := ht.uttered
  rw [List.append_assoc, h.replies, List.append_nil] at hsaid
  have hleft : c.reader.toil = 2 * (rest.length + 1) + 3 := by
    unfold Reader.toil
    rw [ht.silent, htask]
    simp
  have hturns := ht.length_turns later
  have htoil := h.toil
  have hfacts : c'.reader.session = c.reader.session ∧
      c'.reader.task = .deciding i rest (granted (rulings k later ++ [r])) ∧
      c'.reader.outgoing = r.rejection?.toList := by
    rw [hreader, granted_append, hr]
    cases (m.world.site.directory.authorize i channel).1 with
    | allow t => exact ⟨rfl, rfl, ht.silent⟩
    | deny denial => exact ⟨rfl, congrArg _ (List.append_nil _).symm, rfl⟩
  obtain ⟨hsession, htask', hout⟩ := hfacts
  refine ⟨hsession.trans h.session, ?_, ?_, ?_, ?_, ?_⟩
  · rw [hrulings, List.map_append, List.append_assoc, ← h.decided, hr]
    rfl
  · rw [hsaid, hrulings, rejections_append, hout, List.append_nil, List.append_assoc]
  · rw [pleas_snoc, hbegs, h.pleas]
    rfl
  · rw [hrulings, htask']
    exact .deciding rest
  · have hone : c'.reader.toil ≤ 1 + (2 * rest.length + 3) := by
      unfold Reader.toil
      rw [htask', hout]
      cases r.rejection? <;> simp
    omega

/-- The reader decides on nothing and gets on with what it has decided. -/
theorem Answering.goOn
    (h : Answering k i topics channels past later m.world c rest closing asked)
    (ht : Takes k (past ++ later) m v c c' site) (hrules : m.rules? k = none)
    {closing' : List Message} {asked' : List Request}
    (hsession : c'.reader.session = .authenticated i (closing'.foldl Message.tell topics))
    (hclosing : closing ++ c'.reader.outgoing = closing')
    (hasked : asked ++ (m.begs? k).toList = asked')
    (hheadway : Headway k i past (later ++ [m]) v (rulings k later) rest c'.reader.task closing'
      asked')
    (htoil : c'.reader.toil < c.reader.toil) :
    Answering k i topics channels past (later ++ [m]) v c' rest closing' asked' := by
  have hrulings : rulings k (later ++ [m]) = rulings k later := by
    rw [rulings_snoc, hrules]
    exact List.append_nil _
  refine ⟨hsession, ?_, ?_, ?_, ?_, ?_⟩
  · rw [hrulings]
    exact h.decided
  · rw [← List.append_assoc, ht.uttered, h.replies, hrulings, ← hclosing]
    simp only [List.append_assoc]
  · rw [pleas_snoc, h.pleas]
    exact hasked
  · rw [hrulings]
    exact hheadway
  · have hturns := ht.length_turns later
    have := h.toil
    omega

/-- Every channel has been decided on. -/
theorem Answering.conclude (h : Answering k i topics channels past later m.world c [] [] [])
    (ht : Takes k (past ++ later) m v c c' site)
    (htask : c.reader.task = .deciding i [] (granted (rulings k later))) :
    ∃ asked', Answering k i topics channels past (later ++ [m]) v c' [] [] asked' := by
  have hat := ht.isAt htask
  have hrules : m.rules? k = none :=
    ht.rules?.trans (Connection.rules?_of_not_deciding _ hat (by simp))
  have hleft : c.reader.toil = 3 := by
    unfold Reader.toil
    rw [ht.silent, htask]
    rfl
  by_cases hnone : granted (rulings k later) = []
  · rw [hnone] at hat
    obtain ⟨hreader, hasks⟩ := stepReader?_of_none hat ht.step
    refine ⟨[], h.goOn ht hrules ?_ ?_ ?_ ?_ ?_⟩
    · rw [hreader]
      exact h.session
    · rw [hreader]
      exact ht.silent
    · rw [ht.begs?, hasks]
      rfl
    · rw [hreader]
      exact .denied hnone
    · rw [hleft, hreader]
      show c.reader.outgoing.length + 0 < 3
      rw [ht.silent]
      decide
  · obtain ⟨hreader, hasks⟩ := stepReader?_of_some hat hnone ht.step
    have hbegs := ht.begs?.trans hasks
    refine ⟨[.subscribe i.userId k (granted (rulings k later))], h.goOn ht hrules ?_ ?_ ?_ ?_ ?_⟩
    · rw [hreader]
      exact h.session
    · rw [hreader]
      exact ht.silent
    · rw [hbegs]
      rfl
    · rw [hreader]
      exact .asked hnone (List.mem_append_right _ (List.mem_singleton.mpr rfl)) hbegs .awaited
    · rw [hleft, hreader]
      show c.reader.outgoing.length + 2 < 3
      rw [ht.silent]
      decide

end Strides

/-! ## What the reader learns -/

section Learning

variable {callers : Request → Prop} {service : Service} {now : Instant} {clock : Time.Timestamp}
  {past later : List Moment} {w v : World} {m m₀ : Moment} {k : ConnectionId} {t : Ticket}
  {r : Request}

theorem Moment.request?_of_begs? (h : m.begs? k = some r) : m.request? = some r := by
  unfold begs? ofReader? at h
  split at h
  · rename_i k' hm
    split at h
    · rename_i hk
      subst hk
      unfold request?
      rw [hm]
      exact h
    · cases h
  · cases h

/-- A request is in the books under the ticket that was the next when it was issued. -/
theorem Course.ledger_nextTicket (h : Course callers (.start service now clock) past w)
    (hm : m ∈ past) (hr : m.request? = some r) :
    (ledger past)[m.hub.nextTicket]? = some r := by
  obtain ⟨a, b, rfl⟩ := List.append_of_mem hm
  have hcount : m.hub.nextTicket = (ledger a).length := h.upTo.booked.count
  rw [hcount]
  unfold ledger
  rw [List.filterMap_append, List.filterMap_cons_some hr,
    List.getElem?_append_right (Nat.le_refl _), Nat.sub_self]
  rfl

/-- What is handled has been issued before. -/
theorem Course.handled_later (h : Course callers (.start service now clock) (past ++ later) w)
    (hm₀ : m₀ ∈ later) (hm : m ∈ past ++ later)
    (hh : m.handles? = some (m₀.hub.nextTicket, r)) : m ∈ later := by
  refine (List.mem_append.mp hm).resolve_left fun hpast => ?_
  -- what was handled in `past` has a ticket that was given out there
  obtain ⟨u, hu, -⟩ := h.split
  have hissued := hu.booked.handled _ (List.mem_filterMap.mpr ⟨m, hpast, hh⟩)
  have hlt : m₀.hub.nextTicket < (ledger past).length := (List.getElem?_eq_some_iff.mp hissued).1
  obtain ⟨a, b, rfl⟩ := List.append_of_mem hm₀
  rw [← List.append_assoc] at h
  have hcount : m₀.hub.nextTicket = (ledger (past ++ a)).length := h.upTo.booked.count
  have hlength : (ledger (past ++ a)).length = (ledger past).length + (ledger a).length := by
    unfold ledger
    rw [List.filterMap_append, List.length_append]
  exact Nat.not_lt_of_le (hlength ▸ Nat.le_add_right _ _) (hcount ▸ hlt)

/-- What the hub makes of a request to listen. -/
theorem exchange_of_handles? {user : String} {topics : List Topic}
    (hmove : m.world.move? m.move = some v)
    (hh : m.handles? = some (t, .subscribe user k topics)) :
    v.site.hub.exchange = m.hub.exchange.subscribe user k topics := by
  unfold Moment.handles? at hh
  split at hh
  · rename_i hm
    rw [hm] at hmove
    obtain ⟨t', r', hn, heq⟩ := hub_of_hub hmove
    obtain ⟨rfl, rfl⟩ := Prod.mk.inj (Option.some.inj (hn.symm.trans hh))
    rw [heq]
    rfl
  · cases hh

/-- Whenever the hub handles a request to listen, it enrols who has asked. -/
theorem Course.enrols (h : Course callers (.start service now clock) past w) (hm : m ∈ past)
    {user : String} {topics : List Topic}
    (hh : m.handles? = some (t, .subscribe user k topics)) :
    ∃ v, m.world.move? m.move = some v ∧
      m.hub.exchange.Enrols user k topics v.site.hub.exchange := by
  obtain ⟨a, b, rfl⟩ := List.append_of_mem hm
  obtain ⟨u, -, hrest⟩ := h.split
  obtain ⟨rfl, -, v, hmove, -⟩ := hrest.uncons
  refine ⟨v, hmove, ?_⟩
  rw [exchange_of_handles? hmove hh]
  exact enrols_subscribe h.upTo.uniqueUsers topics

variable {i : Identity} {topics : List Topic} {channels : List String} {c c' : Connection}
  {site : Site} {rest : List String} {closing : List Message} {asked : List Request}

/-- The answer to what the reader has asked. -/
theorem Answering.learn
    (hcourse : Course callers (.start service now clock) (past ++ later) m.world)
    (h : Answering k i topics channels past later m.world c [] []
      [.subscribe i.userId k (granted (rulings k later))])
    (ht : Takes k (past ++ later) m v c c' site) (hne : granted (rulings k later) ≠ [])
    (hm₀ : m₀ ∈ later)
    (hbegs : m₀.begs? k = some (.subscribe i.userId k (granted (rulings k later))))
    (htask : c.reader.task =
      .awaiting (.subscription i (granted (rulings k later))) m₀.hub.nextTicket) :
    ∃ closing', Answering k i topics channels past (later ++ [m]) v c' [] closing'
      [.subscribe i.userId k (granted (rulings k later))] := by
  have hat := ht.isAt htask
  have hrules : m.rules? k = none :=
    ht.rules?.trans (Connection.rules?_of_not_deciding _ hat (by simp))
  have hleft : c.reader.toil = 2 := by
    unfold Reader.toil
    rw [ht.silent, htask]
    rfl
  obtain ⟨a, ha⟩ := answer?_of_stepReader? hat ht.step
  -- once the reader has moved on, it is where the outcome says
  have settle : ∀ (r : Reader) {closing' : List Message},
      Outcome k i past later m.world (rulings k later) m₀.hub.nextTicket r.task closing' →
      c.reader.learn c.settings (.subscription i (granted (rulings k later))) a = r →
      (∀ p, r.task ≠ .asking p) → r.toil < 2 → r.outgoing = closing' →
      r.session = .authenticated i (closing'.foldl Message.tell topics) →
      Answering k i topics channels past (later ++ [m]) v c' [] closing'
        [.subscribe i.userId k (granted (rulings k later))] := by
    intro r closing' ho hlearn hask htoil hout hsession
    obtain ⟨rfl, hasks⟩ := reader_of_answer? hat ha hask hlearn ht.step
    refine h.goOn ht hrules hsession hout ?_ ?_ (hleft ▸ htoil)
    · rw [ht.begs?, hasks]
      exact List.append_nil _
    · exact (Headway.asked hne hm₀ hbegs ho).keep ht.booked ht.effect
  have hledger := hcourse.ledger_nextTicket (List.mem_append_right past hm₀)
    (Moment.request?_of_begs? hbegs)
  -- there is an answer, so the hub has handled the request or has refused it
  cases hcourse.fate hledger with
  | waits _ _ hnone => cases ha.symm.trans hnone
  | @handled m₁ hm₁ hh hans =>
    have hlater := hcourse.handled_later hm₀ hm₁ hh
    obtain rfl : a = .found (m₁.hub.exchange.findConnection? i.userId k).isSome :=
      Option.some.inj (ha.symm.trans hans)
    cases hthere : (m₁.hub.exchange.findConnection? i.userId k).isSome with
    | true =>
      rw [hthere] at settle
      have hnames := names_granted_rulings k later
      -- the names that the client is told are read back as the topics that it has got
      have htell : (grantedNames (rulings k later)).filterMap Topic.ofName? =
          granted (rulings k later) := by
        have hsound := hcourse.sound ht.connection
        unfold Reader.Sound at hsound
        rw [htask] at hsound
        rw [← hnames]
        exact filterMap_ofName?_names hsound.2
      let session := c.reader.session.updateTopics fun current =>
        (granted (rulings k later)).foldl addTopic current
      let reader := { c.reader with session }.say
        (.subscribed (grantedNames (rulings k later))) .listening
      have hsession : session = .authenticated i
          (((grantedNames (rulings k later)).filterMap Topic.ofName?).foldl addTopic topics) := by
        rw [htell]
        exact congrArg (Session.updateTopics _) h.session
      refine ⟨_, settle reader (.subscribed hlater hh hthere) ?_ nofun Nat.one_lt_two rfl
        hsession⟩
      unfold Reader.learn
      dsimp only
      rw [hnames]
    | false =>
      rw [hthere] at settle
      have hnone : m₁.hub.exchange.findConnection? i.userId k = none :=
        Option.not_isSome_iff_eq_none.mp (by simp [hthere])
      have htoil : (c.reader.goOn (.finished .queueClosed)).toil < 2 := by
        show c.reader.outgoing.length + 0 < 2
        rw [ht.silent]
        decide
      exact ⟨_, settle (c.reader.goOn (.finished .queueClosed))
        (.lost hlater hh hnone) rfl nofun htoil ht.silent h.session⟩
  | refused hrun hn hans =>
    obtain rfl := Option.some.inj (ha.symm.trans hans)
    exact ⟨_, settle (c.reader.violate hubUnavailable) (.unavailable hrun hn) rfl nofun
      Nat.one_lt_two rfl h.session⟩

end Learning

/-! ## Until the next frame -/

section Courses

variable {callers : Request → Prop} {service : Service} {now : Instant} {clock : Time.Timestamp}
  {before past later : List Moment} {w v : World} {m m₀ : Moment} {k : ConnectionId}
  {i : Identity} {topics : List Topic} {channels : List String} {c c₀ : Connection}
  {rest : List String} {closing : List Message} {asked : List Request}

/-- The frame is taken up. -/
theorem Course.answering_start
    (h : Course callers (.start service now clock) (before ++ [m₀]) w)
    (hm : m₀.move = .act (.reader k)) (hc₀ : m₀.world.connections[k]? = some c₀)
    (hreads : c₀.reads? = some (.subscribe channels))
    (hsess : c₀.reader.session = .authenticated i topics) :
    ∃ c, w.connections[k]? = some c ∧
      Answering k i topics channels (before ++ [m₀]) [] w c channels [] [] := by
  obtain ⟨-, hmove⟩ := h.unsnoc
  rw [hm] at hmove
  obtain ⟨c, site, hstep, -, hc⟩ := stepReader?_of_act? hmove hc₀
  have hreader := stepReader?_of_subscribe hreads hsess hstep
  have ho := (Connection.reads?_eq_some hreads).1.1
  refine ⟨c, hc, ?_, rfl, ?_, rfl, ?_, ?_⟩
  · rw [hreader]
    exact hsess
  · rw [List.append_nil]
    unfold uttered
    rw [hreader]
    exact congrArg _ ho
  · rw [hreader]
    exact .deciding channels
  · rw [hreader]
    show 0 + (c₀.reader.outgoing.length + (2 * channels.length + 3)) ≤ _
    rw [ho]
    exact Nat.le_of_eq (by simp)

/-- Whatever happens, unless another frame is taken up. -/
theorem Answering.step
    (hcourse : Course callers (.start service now clock) (past ++ later) m.world)
    (h : Answering k i topics channels past later m.world c rest closing asked)
    (hc : m.world.connections[k]? = some c) (hmove : m.world.move? m.move = some v)
    (hnext : m.ofReader? k Connection.hears? = none) :
    ∃ c' rest' closing' asked', v.connections[k]? = some c' ∧
      Answering k i topics channels past (later ++ [m]) v c' rest' closing' asked' := by
  have hb : Booked (past ++ later) m.hub := hcourse.booked
  have he : Effect m v := effect_of_move hcourse.calm hmove
  by_cases hm : m.move = .act (.reader k)
  case neg =>
    obtain ⟨c', hc', hbec⟩ := becomes_of_move hcourse.calm hmove hc
    cases hbec with
    | stride hm' => exact absurd hm' hm
    | other _ hg =>
      have huttered : uttered k (past ++ later ++ [m]) c' = uttered k (past ++ later) c :=
        uttered_of_goesOn hm hg
      rw [List.append_assoc] at huttered
      refine ⟨c', _, _, _, hc', h.keep hb he (Moment.ofReader?_of_ne hm) (Moment.ofReader?_of_ne hm)
        (congrArg _ hg.reader) (congrArg _ hg.reader) huttered ?_⟩
      rw [Moment.ofReader?_of_ne hm, hg.reader]
      exact Nat.le_of_eq (Nat.zero_add _)
  case pos =>
    obtain ⟨c', site, hstep, -, hc'⟩ := stepReader?_of_act? (hm ▸ hmove) hc
    obtain ⟨-, purpose, hs⟩ := strode_of_step (hcourse.calm k _ (stand?_of_connection hc)) hstep
    rcases uttered_of_stride (past ++ later) hm hc hs.stride with
      ⟨reply, more, ho, hreader, huttered⟩ | ⟨ho, huttered⟩
    · -- a reply is passed on
      have hrules : m.rules? k = none :=
        (Moment.ofReader?_of_act hm hc).trans (Connection.rules?_of_outgoing _ ho)
      have hbegs : m.begs? k = none :=
        (Moment.ofReader?_of_act hm hc).trans (Connection.asks?_of_outgoing k _ ho)
      have hturn : m.ofReader? k some = some c := Moment.ofReader?_of_act hm hc
      rw [List.append_assoc] at huttered
      refine ⟨c', _, _, _, hc', h.keep hb he hrules hbegs ?_ ?_ huttered ?_⟩
      · rw [hreader]
      · rw [hreader]
      · rw [hturn, hreader, ← Reader.toil_pass ho]
        exact Nat.le_of_eq (Nat.add_comm _ _)
    · -- with nothing to pass on it is at its task, of which the headway says what it can be
      have ht : Takes k (past ++ later) m v c c' site := ⟨hm, hc, ho, hstep, huttered, hb, he⟩
      have hheadway := h.headway
      generalize htask : c.reader.task = task at hheadway
      have quiet : task ≠ .listening := by
        rintro rfl
        have hhears : c.hears? = none := (Moment.ofReader?_of_act hm hc).symm.trans hnext
        rw [stepReader?_of_hears? ⟨ho, htask⟩ hhears] at hstep
        cases hstep
      have unfinished : ∀ why, task ≠ .finished why := by
        rintro why rfl
        rcases hs.stride.origin with ⟨_, _, ho', -⟩ | ⟨task, hat, hf⟩
        · rw [ho] at ho'
          cases ho'
        · exact hf why (hat.2.symm.trans htask)
      cases hheadway with
      | deciding rest =>
        cases rest with
        | nil =>
          obtain ⟨asked', h'⟩ := h.conclude ht htask
          exact ⟨c', _, _, _, hc', h'⟩
        | cons channel rest => exact ⟨c', _, _, _, hc', h.rule ht htask⟩
      | denied => exact absurd rfl quiet
      | asked hne hm₁ hbegs hout =>
        cases hout with
        | awaited =>
          obtain ⟨closing', h'⟩ := h.learn hcourse ht hne hm₁ hbegs htask
          exact ⟨c', _, _, _, hc', h'⟩
        | subscribed => exact absurd rfl quiet
        | lost => exact absurd rfl (unfinished _)
        | unavailable => exact absurd rfl (unfinished _)

theorem Course.answering
    (h : Course callers (.start service now clock) (before ++ [m₀] ++ later) w)
    (hm : m₀.move = .act (.reader k)) (hc₀ : m₀.world.connections[k]? = some c₀)
    (hreads : c₀.reads? = some (.subscribe channels))
    (hsess : c₀.reader.session = .authenticated i topics)
    (hnext : ∀ m ∈ later, m.ofReader? k Connection.hears? = none) :
    ∃ c rest closing asked, w.connections[k]? = some c ∧
      Answering k i topics channels (before ++ [m₀]) later w c rest closing asked := by
  induction later using List.reverseRecOn generalizing w with
  | nil =>
    rw [List.append_nil] at h
    obtain ⟨c, hc, h'⟩ := h.answering_start hm hc₀ hreads hsess
    exact ⟨c, _, _, _, hc, h'⟩
  | append_singleton later m ih =>
    rw [← List.append_assoc] at h
    obtain ⟨hcourse, hmove⟩ := h.unsnoc
    obtain ⟨c, rest, closing, asked, hc, h'⟩ :=
      ih hcourse fun m' hm' => hnext m' (List.mem_append_left _ hm')
    exact h'.step hcourse hc hmove
      (hnext m (List.mem_append_right _ (List.mem_singleton.mpr rfl)))

/-- What a connection that serves goes on with. -/
inductive Connection.Proceeds (k : ConnectionId) (w : World) (c : Connection) : Prop
  /-- The reader has dealt with the frame and has said so. -/
  | through : c.reader.IsThrough → Proceeds k w c
  | reads : (w.act? (.reader k)).isSome = true → Proceeds k w c
  /-- As many replies as may wait for the writer do. -/
  | writes :
      c.reader.outgoing ≠ [] → c.writer.isRunning = true → replyCapacity ≤ c.replies.length →
      Proceeds k w c
  /-- The hub has something to handle, and the reader waits for that. -/
  | waits {p : Purpose} {t : Ticket} :
      c.IsAt (.awaiting p t) → (w.act? (.hub [])).isSome = true → Proceeds k w c

theorem Answering.proceeds
    (hcourse : Course callers (.start service now clock) (past ++ later) w)
    (h : Answering k i topics channels past later w c rest closing asked)
    (hc : w.connections[k]? = some c) (hserv : c.isServing = true) : c.Proceeds k w := by
  have reads : (c.stepReader? k w.site).isSome = true → c.Proceeds k w := by
    intro hstep
    refine .reads ?_
    unfold World.act?
    dsimp only
    rw [hc, Option.bind_some, Option.isSome_map]
    exact hstep
  by_cases ho : c.reader.outgoing = []
  case neg =>
    by_cases hroom : c.writer.isRunning = true ∧ Connection.replyCapacity ≤ c.replies.length
    · exact .writes ho hroom.1 hroom.2
    · exact reads (isSome_stepReader?_of_outgoing k hserv ho hroom)
  case pos =>
    have hheadway := h.headway
    generalize htask : c.reader.task = task at hheadway
    cases hheadway with
    | deciding rest =>
      refine reads (isSome_stepReader? k hserv ho ?_)
      unfold Connection.doTask?
      rw [htask]
      cases rest <;> rfl
    | denied => exact .through ⟨ho, Or.inl htask⟩
    | @asked m₁ _ _ hne hm₁ hbegs hout =>
      cases hout with
      | subscribed => exact .through ⟨ho, Or.inl htask⟩
      | lost => exact .through ⟨ho, Or.inr ⟨_, htask⟩⟩
      | unavailable => exact .through ⟨ho, Or.inr ⟨_, htask⟩⟩
      | awaited =>
        have learns : ∀ {a}, w.site.hub.answer? m₁.hub.nextTicket = some a → c.Proceeds k w := by
          intro a ha
          refine reads (isSome_stepReader? k hserv ho ?_)
          unfold Connection.doTask?
          rw [htask]
          dsimp only
          rw [ha]
          rfl
        -- the reader waits for an answer only as long as the hub has not come to the request
        have hledger := hcourse.ledger_nextTicket (List.mem_append_right past hm₁)
          (Moment.request?_of_begs? hbegs)
        cases hcourse.fate hledger with
        | waits _ hp _ =>
          refine .waits ⟨ho, htask⟩ ?_
          obtain ⟨⟨t, r⟩, hn⟩ := Option.isSome_iff_exists.mp (Hub.next?_isSome hp List.not_mem_nil)
          unfold World.act? Hub.step?
          dsimp only
          rw [hn]
          rfl
        | handled _ _ ha => exact learns ha
        | refused _ _ ha => exact learns ha

/--
**Every channel is answered.** A client that has authenticated asks to listen on `channels`, and
`m₀` is the moment at which its reader takes the frame up. Whatever has happened until then,
whatever the directory is like at each decision, and whatever happens in whichever order until
another frame is taken up: `Answering` says how the reader has dealt with the frame so far. It gets
to the end of it in a bounded number of its own steps, and until then, while the connection serves,
it can take one, or waits for its writer to make room or for a hub that can handle a request
(`Proceeds`). Whenever the hub handles what the reader has asked, the connection's entry gains the
topics that were granted and no others, and if there is no such entry, nobody gains any (`Enrols`).
-/
theorem channels_answered
    (h : Course callers (.start service now clock) (before ++ [m₀] ++ later) w)
    (hm : m₀.move = .act (.reader k)) (hc₀ : m₀.world.connections[k]? = some c₀)
    (hreads : c₀.reads? = some (.subscribe channels))
    (hsess : c₀.reader.session = .authenticated i topics)
    (hnext : ∀ m ∈ later, m.ofReader? k Connection.hears? = none) :
    ∃ c rest closing asked, w.connections[k]? = some c ∧
      Answering k i topics channels (before ++ [m₀]) later w c rest closing asked ∧
      (c.isServing = true → c.Proceeds k w) ∧
      ∀ m ∈ later, ∀ t, m.handles? =
          some (t, .subscribe i.userId k (granted (rulings k later))) →
        ∃ v, m.world.move? m.move = some v ∧
          m.hub.exchange.Enrols i.userId k (granted (rulings k later)) v.site.hub.exchange := by
  obtain ⟨c, rest, closing, asked, hc, h'⟩ := h.answering hm hc₀ hreads hsess hnext
  exact ⟨c, rest, closing, asked, hc, h', h'.proceeds h hc,
    fun m hm' t hh => h.enrols (List.mem_append_right _ hm') hh⟩

end Courses

/-! ## A petition -/

namespace Petition

/-- Ann asks for channels, for one of them twice, for one that is not hers and for one that there is
not. -/
def frame : Incoming :=
  .text ("\x7b\"type\":\"subscribe\",\"channels\":[\"posts\",\"circle:writers\"," ++
    "\"nowhere\",\"posts\",\"post:1\"]\x7d")

/-- She signs in before, and something else may happen. -/
def before (meanwhile : List Move) : List Move :=
  [.undergo (.connect .standard ((Encounter.signIn "ann").arrive [frame])), .act (.reader 0),
    .act (.reader 0), .act (.hub []), .act (.reader 0), .act (.reader 0)] ++ meanwhile

/-- Her reader takes all its steps, and the hub may handle what it is asked. -/
def after (handling : List Move) : List Move :=
  List.replicate 8 (.act (.reader 0)) ++ handling ++ List.replicate 2 (.act (.reader 0))

def channels : List String := ["posts", "circle:writers", "nowhere", "posts", "post:1"]

def rulings : List Ruling :=
  [⟨"posts", .allow .posts⟩, ⟨"circle:writers", .deny .notMember⟩,
    ⟨"nowhere", .deny .unknownChannel⟩, ⟨"posts", .allow .posts⟩, ⟨"post:1", .allow (.post "1")⟩]

/-- A course in which her reader takes the frame up. -/
theorem course {callers : Request → Prop} {meanwhile handling : List Move} {morning noon v : World}
    (hc : ∀ r, .undergo (.issue r) ∈ meanwhile ++ handling → callers r)
    (hbefore : Encounter.start.follow? (before meanwhile) = some morning)
    (htakes : morning.move? (.act (.reader 0)) = some noon)
    (hafter : noon.follow? (after handling) = some v) :
    Course callers Encounter.start (Encounter.start.trail (before meanwhile) ++
      [⟨morning, .act (.reader 0)⟩] ++ noon.trail (after handling)) v := by
  have hmorning : Course callers Encounter.start (Encounter.start.trail (before meanwhile))
      morning := by
    refine course_of_follow? (fun r hr => hc r (List.mem_append_left _ ?_)) hbefore
    simpa [before] using hr
  refine (hmorning.move (fun r hr => by cases hr) htakes).trans
    (course_of_follow? (fun r hr => hc r (List.mem_append_right _ ?_)) hafter)
  simpa [after] using hr

/-! The hub handles her request. -/

theorem signsIn : (Encounter.start.follow? (before [])).isSome = true := by decide +kernel

def morning : World := (Encounter.start.follow? (before [])).get signsIn

theorem takesUp : (morning.move? (.act (.reader 0))).isSome = true := by decide +kernel

def noon : World := (morning.move? (.act (.reader 0))).get takesUp

theorem isHandled : (noon.follow? (after [.act (.hub [])])).isSome = true := by decide +kernel

def evening : World := (noon.follow? (after [.act (.hub [])])).get isHandled

theorem heard : Course (fun _ => False) Encounter.start (Encounter.start.trail (before []) ++
    [⟨morning, .act (.reader 0)⟩] ++ noon.trail (after [.act (.hub [])])) evening :=
  course (by simp) (Option.some_get signsIn).symm (Option.some_get takesUp).symm
    (Option.some_get isHandled).symm

theorem asking : morning.connections[0]?.map (fun c => (c.reads?, c.reader.session)) =
    some (some (.subscribe channels), .authenticated ⟨"ann", "ann", false⟩ []) := by
  decide +kernel

theorem undisturbed : (noon.trail (after [.act (.hub [])])).all (fun m =>
    (m.ofReader? 0 Connection.hears?).isNone) = true := by
  decide +kernel

theorem ruled : Switchboard.rulings 0 (noon.trail (after [.act (.hub [])])) = rulings ∧
    evening.connections[0]?.map (·.reader.task) = some .listening := by
  decide +kernel

end Petition

theorem channels_answered_petition : ∃ c rest closing asked,
    Petition.evening.connections[0]? = some c ∧
    Answering 0 ⟨"ann", "ann", false⟩ [] Petition.channels
      (Encounter.start.trail (Petition.before []) ++ [⟨Petition.morning, .act (.reader 0)⟩])
      (Petition.noon.trail (Petition.after [.act (.hub [])]))
      Petition.evening c rest closing asked ∧
    closing = [.subscribed ["posts", "posts", "post:1"]] := by
  obtain ⟨c₀, hc₀, hasking⟩ := Option.map_eq_some_iff.mp Petition.asking
  obtain ⟨hreads, hsess⟩ := Prod.mk.inj hasking
  obtain ⟨c, rest, closing, asked, hc, h, -⟩ :=
    channels_answered Petition.heard rfl hc₀ hreads hsess fun m hm =>
      Option.isNone_iff_eq_none.mp (List.all_eq_true.mp Petition.undisturbed m hm)
  refine ⟨c, rest, closing, asked, hc, h, ?_⟩
  obtain ⟨hrulings, hlistening⟩ := Petition.ruled
  obtain ⟨c', hc', htask⟩ := Option.map_eq_some_iff.mp hlistening
  obtain rfl := Option.some.inj (hc.symm.trans hc')
  have hheadway := h.headway
  rw [hrulings, htask] at hheadway
  cases hheadway with
  | denied hnone => cases hnone
  | asked _ _ _ ho =>
    cases ho with
    | subscribed => rfl

namespace Petition

/-! The hub is asked to shut down before, and has stopped when she asks. -/

def stopping : List Move := [.undergo (.issue .shutdown), .act (.hub [])]

theorem signsInEarly : (Encounter.start.follow? (before stopping)).isSome = true := by
  decide +kernel

def dusk : World := (Encounter.start.follow? (before stopping)).get signsInEarly

theorem takesUpLate : (dusk.move? (.act (.reader 0))).isSome = true := by decide +kernel

def night : World := (dusk.move? (.act (.reader 0))).get takesUpLate

theorem isRefused : (night.follow? (after [])).isSome = true := by decide +kernel

def midnight : World := (night.follow? (after [])).get isRefused

theorem unheard : Course (· = .shutdown) Encounter.start
    (Encounter.start.trail (before stopping) ++ [⟨dusk, .act (.reader 0)⟩] ++
      night.trail (after [])) midnight :=
  course (by simp [stopping]) (Option.some_get signsInEarly).symm (Option.some_get takesUpLate).symm
    (Option.some_get isRefused).symm

theorem askingLate : dusk.connections[0]?.map (fun c => (c.reads?, c.reader.session)) =
    some (some (.subscribe channels), .authenticated ⟨"ann", "ann", false⟩ []) := by
  decide +kernel

theorem undisturbedLate : (night.trail (after [])).all (fun m =>
    (m.ofReader? 0 Connection.hears?).isNone) = true := by
  decide +kernel

theorem ruledLate : Switchboard.rulings 0 (night.trail (after [])) = rulings ∧
    midnight.connections[0]?.map (fun c => (c.reader.outgoing.isEmpty, c.reader.task)) =
      some (true, .finished (.protocolViolation "internal_error")) := by
  decide +kernel

end Petition

/-- Of a hub that has stopped it is not learnt whether the connection was registered: after the two
rejections the client is told of an error, and not of the three channels that were granted. -/
theorem petition_unheard :
    let past := Encounter.start.trail (Petition.before Petition.stopping) ++
      [⟨Petition.dusk, .act (.reader 0)⟩]
    let later := Petition.night.trail (Petition.after [])
    Course (· = .shutdown) Encounter.start (past ++ later) Petition.midnight ∧
    Petition.dusk.connections[0]?.map (fun c => (c.reads?, c.reader.session)) =
      some (some (.subscribe Petition.channels), .authenticated ⟨"ann", "ann", false⟩ []) ∧
    grantedNames (rulings 0 later) = ["posts", "posts", "post:1"] ∧
    Petition.midnight.connections[0]?.map (·.reader.task) =
      some (.finished (.protocolViolation "internal_error")) ∧
    said 0 (past ++ later) = said 0 past ++ [.subscribeRejected "circle:writers" "not_member",
      .subscribeRejected "nowhere" "unknown_channel",
      .error "internal_error" hubUnavailable.message] := by
  intro past later
  have hcourse : Course (· = .shutdown) Encounter.start (past ++ later) Petition.midnight :=
    Petition.unheard
  obtain ⟨c₀, hc₀, hasking⟩ := Option.map_eq_some_iff.mp Petition.askingLate
  obtain ⟨hreads, hsess⟩ := Prod.mk.inj hasking
  obtain ⟨c, rest, closing, asked, hc, h⟩ :=
    hcourse.answering rfl hc₀ hreads hsess fun m hm =>
      Option.isNone_iff_eq_none.mp (List.all_eq_true.mp Petition.undisturbedLate m hm)
  obtain ⟨hrulings, hfinished⟩ := Petition.ruledLate
  obtain ⟨c', hc', hquiet⟩ := Option.map_eq_some_iff.mp hfinished
  obtain rfl := Option.some.inj (hc.symm.trans hc')
  obtain ⟨ho, htask⟩ := Prod.mk.inj hquiet
  have hreplies := h.replies
  have hheadway := h.headway
  rw [hrulings] at hreplies
  rw [hrulings, htask] at hheadway
  refine ⟨hcourse, Petition.askingLate, ?_, ?_, ?_⟩
  · rw [hrulings]
    rfl
  · rw [hc, Option.map_some, htask]
  · unfold uttered at hreplies
    rw [List.isEmpty_iff.mp ho, List.append_nil] at hreplies
    rw [hreplies]
    cases hheadway with
    | asked _ _ _ hout =>
      generalize hwhy : Termination.protocolViolation "internal_error" = why at hout
      cases hout with
      | lost => cases hwhy
      | unavailable => rfl

end Switchboard
