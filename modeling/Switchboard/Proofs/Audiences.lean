import Switchboard.Proofs.Entitlement
import Switchboard.Proofs.Names
import Switchboard.Proofs.Turns

/-!
# Audiences

An event reaches exactly those it is for. Publishing it asks the hub for one delivery for each of
its targets (`Announces`), and whenever it is their turn, everyone gets the copies that are for
them, if all have room.

That a post stays inside its circle needs no room: whatever is put out on account of the frame,
only a connection that listens to the circle gets the post. Ids are not checked when an event is
published, so its topics may have no name at all. Connections only ever listen to topics that they
have named, so such a topic has no listeners, unless somebody else subscribes them.
-/

namespace Switchboard

open Wire Exchange Traffic

/-! ## Publishing -/

/-- A publisher that has the hub tell the audience of every event; its other handlers leave the hub
alone. -/
def Publisher.TellsAudience (p : Publisher Hub) : Prop :=
  ∃ before after, p.handlers = before ++ Hub.announceEvent :: after ∧
    ∀ f ∈ before ++ after, ∀ e h, f e h = h

theorem Publisher.TellsAudience.publish {p : Publisher Hub} (hp : p.TellsAudience)
    (e : DomainEvent) (h : Hub) : p.publish e h = Hub.announceEvent e h := by
  obtain ⟨before, after, hall, hothers⟩ := hp
  have idle : ∀ fs : List (Handler Hub), (∀ f ∈ fs, f ∈ before ++ after) → ∀ h : Hub,
      fs.foldl (fun h f => f e h) h = h := by
    intro fs
    induction fs with
    | nil => exact fun _ _ => rfl
    | cons f fs ih =>
      intro hin h
      rw [List.foldl_cons, hothers f (hin f List.mem_cons_self)]
      exact ih (fun f' hf' => hin f' (List.mem_cons_of_mem f hf')) h
  unfold Publisher.publish
  rw [hall, List.foldl_append, List.foldl_cons, idle before fun f => List.mem_append_left after]
  exact idle after (fun f => List.mem_append_right before) _

theorem tellsAudience_realtimePublisher : realtimePublisher.TellsAudience :=
  ⟨[], [], rfl, fun f hf => by cases hf⟩

/-- `Announces h e g`: a hub `h` that runs is told of an event and becomes `g`. -/
structure Announces (h : Hub) (e : DomainEvent) (g : Hub) : Prop where
  /-- It is asked for one delivery for each target, and that is all. -/
  asks : g = { h with
    nextTicket := h.nextTicket + e.audience.length
    pending := h.pending ++ e.requests h.exchange.clock h.nextTicket }
  /-- Left to itself it comes to them. -/
  comes : ∃ rest u, Traffic g rest u ∧ (∀ o ∈ rest, o.event = .handle []) ∧
    (u.next? []).map Prod.fst = some h.nextTicket
  /-- Whatever has happened until the first is next, and whatever a look misses that finds it so, by
  such looks it then handles all of them one after the other, and everyone gets the copies that are
  for them, if they have room. -/
  reaches : ∀ later u missed, Traffic g later u →
    (u.next? missed).map Prod.fst = some h.nextTicket →
    ∃ turn v, Traffic u turn v ∧ (∀ o ∈ turn, o.event = .handle missed) ∧
      handled turn = e.requests h.exchange.clock h.nextTicket ∧
      (u.exchange.OwnQueues →
        (∀ l ∈ u.exchange.registry, (e.copiesFor l).length ≤ u.exchange.roomOf l.queue) →
        u.exchange.Informs e h.exchange.clock v.exchange)
  /-- If others come or go in between, each delivery still follows those before it and reaches
  whoever is meant by then, if they have room. -/
  each : ∀ later u missed p, Traffic g later u →
    p ∈ e.requests h.exchange.clock h.nextTicket → u.next? missed = some p →
    (∀ q ∈ e.requests h.exchange.clock h.nextTicket, q.1 < p.1 → q ∈ handled later) ∧
      ∃ target ∈ e.audience, ∃ v, u.step? missed = some v ∧
        ((∀ l ∈ u.exchange.registry, target.selects l = true → u.exchange.roomOf l.queue ≠ 0) →
          u.exchange.Spread [target] (e.frameAt h.exchange.clock) v.exchange)

section Publishing

variable {clock : Time.Timestamp} {past : List Occasion} {h : Hub}

theorem announces (ht : Traffic (.start clock) past h) (hr : h.running = true)
    (e : DomainEvent) : Announces h e (Hub.announceEvent e h) := by
  obtain ⟨asked, hask, hissued, hhandled⟩ :=
    h.traffic_dispatches hr e.announcement e.audience
  have hasks : Hub.announceEvent e h = _ := Hub.foldl_dispatch_of_running hr
  have hrun : (Hub.announceEvent e h).running = true := by
    rw [hasks]
    exact hr
  have hg : Traffic (.start clock) (past ++ asked) (Hub.announceEvent e h) := ht.trans hask
  refine ⟨hasks, ?comes, ?reaches, ?each⟩
  case comes =>
    obtain ⟨target, targets, haudience⟩ := List.exists_cons_of_ne_nil e.audience_ne_nil
    have hfirst : (h.nextTicket, .dispatch target (e.frameAt h.exchange.clock)) ∈
        (Hub.announceEvent e h).pending := by
      rw [hasks, haudience]
      exact List.mem_append_right _ List.mem_cons_self
    obtain ⟨rest, u, hrest, hall, hnext⟩ :=
      Hub.comes_to hrun hg.nodup_pending hfirst (by simp [Request.lane])
    exact ⟨rest, u, hrest, hall, by rw [hnext]; rfl⟩
  case reaches =>
    intro later u missed hlater hnext
    have hfaces := (hg.trans hlater).faces hissued e.audience_ne_nil hnext
    rw [hissued] at hfaces
    obtain ⟨turn, v, hturn, hall, hdone, hexchange⟩ := hfaces.run
    refine ⟨turn, v, hturn, hall, hdone, fun ho hroom => ?_⟩
    rw [hexchange]
    refine Spread.informs ho (spread_foldl ho fun l hl => ?_)
    have := hroom l hl
    rwa [e.copiesFor_eq, List.length_map] at this
  case each =>
    intro later u missed p hlater hp hnext
    have hu := hg.trans hlater
    have hin : p ∈ issued asked := hissued ▸ hp
    refine ⟨fun q hq hlt => hu.handled_before hissued hhandled ht hin (hissued ▸ hq) hnext hlt, ?_⟩
    obtain ⟨⟨target, htarget, hrequest⟩, -⟩ := Request.mem_dispatches hp
    obtain ⟨t, r⟩ := p
    obtain rfl : r = _ := hrequest
    have hstep : u.step? missed =
        some ((u.take t).handle t (.dispatch target (e.frameAt h.exchange.clock))) := by
      unfold Hub.step?
      rw [hnext]
    exact ⟨target, htarget, _, hstep, fun hroom => spread_publish hroom⟩

end Publishing

/-! ## Who can be reached -/

/-- Delivering to a target of an event that is announced at a time brings the announcement onto a
queue. -/
def Exchange.Brings (x : Exchange) (target : Target) (e : DomainEvent) (time : Time.Timestamp)
    (q : QueueId) : Prop :=
  ∃ told, (x.publish target (e.frameAt time)).framesOf q = x.framesOf q ++ told ∧
    ∃ f ∈ told, f.message = .event e.announcement

/-- An event is not announced as somebody's departure. -/
theorem DomainEvent.announcement_ne_userOffline (e : DomainEvent) (user : String) :
    e.announcement ≠ .userOffline user := by
  cases e <;> exact Event.noConfusion

/-- **Nobody gets an announcement but those who are meant**, whoever is put out by it. -/
theorem Exchange.Brings.exists_entry {x : Exchange} {target : Target} {e : DomainEvent}
    {time : Time.Timestamp} {q : QueueId} (h : x.Brings target e time q) :
    ∃ l ∈ x.registry, l.queue = q ∧ target.selects l = true := by
  obtain ⟨told, heq, f, hf, hmessage⟩ := h
  obtain ⟨log, hlog⟩ := spreading_send (x.count fun s => { s with published := s.published + 1 })
    target (e.frameAt time) false
  have hframes : (x.publish target (e.frameAt time)).framesOf q =
      x.framesOf q ++ (log.filter (·.reaches q)).map (·.frame) := hlog.linked.framesOf q
  rw [List.append_cancel_left (heq.symm.trans hframes)] at hf
  obtain ⟨s, hs, rfl⟩ := List.mem_map.mp hf
  obtain ⟨hs, hreach⟩ := List.mem_filter.mp hs
  rcases hlog.kinds hs with rfl | ⟨x', user, time', rfl⟩
  · obtain ⟨hsel, -⟩ := Bool.and_eq_true_iff.mp hreach
    obtain ⟨l, hl, hsel⟩ := List.any_eq_true.mp hsel
    obtain ⟨hq, hsel⟩ := Bool.and_eq_true_iff.mp hsel
    exact ⟨l, hl, of_decide_eq_true hq, hsel⟩
  · -- all that is sent on account of the frame tells of departures
    exact absurd (Message.event.inj hmessage).symm (e.announcement_ne_userOffline user)

/-! ## What connections can listen to -/

/-- A request that neither subscribes a connection nor registers its queue for another. -/
def Request.Spares (k : ConnectionId) (q : QueueId) : Request → Prop
  | .register reg => reg.queue = q → reg.connection = k
  | .subscribe _ k' _ => k' ≠ k
  | _ => True

/-- The queue of a connection is nobody else's, and the topics that it asks for or listens to are
ones that can be named. -/
structure Hub.Confines (h : Hub) (k : ConnectionId) (q : QueueId) : Prop where
  registers : ∀ t reg, (t, .register reg) ∈ h.pending → reg.queue = q → reg.connection = k
  entries : ∀ l ∈ h.exchange.registry, l.queue = q → l.connection = k
  subscribes : ∀ t user topics, (t, .subscribe user k topics) ∈ h.pending →
    ∀ topic ∈ topics, topic.WellScoped
  listens : ∀ l ∈ h.exchange.registry, l.connection = k → ∀ topic ∈ l.topics, topic.WellScoped

namespace Hub.Confines

variable {m : Moment} {v : World} {k : ConnectionId} {q : QueueId}

/-- What is asked next keeps to it, if those who are not connections spare the connection. -/
theorem spares (he : Effect m v) {r : Request} (hr : m.request? = some r)
    (hout : m.move = .undergo (.issue r) → r.Spares k q)
    (hown : ∀ k' s, m.world.stand? k' = some s → s.queue = q → k' = k)
    (hsound : ∀ k' s i topics, m.world.stand? k' = some s → s.reader.task = .deciding i [] topics →
      ∀ topic ∈ topics, topic.WellScoped) :
    (∀ reg, r = .register reg → reg.queue = q → reg.connection = k) ∧
      ∀ user topics, r = .subscribe user k topics → ∀ topic ∈ topics, topic.WellScoped := by
  rcases he.source hr with hmove | ⟨k', s, reader, -, hs, -, hturn, -⟩ | ⟨k', user, rfl⟩
  · have hspare := hout hmove
    constructor
    · rintro reg rfl hq
      exact hspare hq
    · rintro user topics rfl
      exact absurd rfl hspare
  · constructor
    · rintro reg rfl hq
      rcases hturn.account with ⟨hne, -⟩ | ⟨i, hreg, -⟩
      · exact absurd rfl (hne reg)
      · obtain rfl := Request.register.inj (Option.some.inj hreg)
        exact hown k' s hs hq
    · rintro user topics rfl
      cases hturn with
      | subscribe htask => exact hsound _ s _ topics hs htask
  · exact ⟨fun _ heq => Request.noConfusion heq, fun _ _ heq => Request.noConfusion heq⟩

theorem step (h : m.hub.Confines k q) (he : Effect m v)
    (hout : ∀ r, m.move = .undergo (.issue r) → r.Spares k q)
    (hown : ∀ k' s, m.world.stand? k' = some s → s.queue = q → k' = k)
    (hsound : ∀ k' s i topics, m.world.stand? k' = some s → s.reader.task = .deciding i [] topics →
      ∀ topic ∈ topics, topic.WellScoped) : v.site.hub.Confines k q := by
  cases he with
  | @handle _ t r hm hn hh heq =>
    have hin := Hub.mem_pending_of_next? hn
    have hsub : ∀ p ∈ v.site.hub.pending, p ∈ m.hub.pending := by
      intro p hp
      rw [hh.pending] at hp
      exact (List.mem_filter.mp hp).1
    refine ⟨fun t' reg hp => h.registers t' reg (hsub _ hp), fun l hl hq => ?_,
      fun t' user topics hp => h.subscribes t' user topics (hsub _ hp), fun l hl hk topic ht => ?_⟩
    · rw [hh.exchange] at hl
      rcases mem_handled hl with ⟨reg, rfl, rfl⟩ | ⟨l₀, hl₀, hreg, -⟩
      · exact h.registers t reg hin hq
      · have hq₀ : l₀.queue = q := (congrArg Registration.queue hreg).trans hq
        exact (congrArg Registration.connection hreg).symm.trans (h.entries l₀ hl₀ hq₀)
    · rw [hh.exchange] at hl
      rcases mem_handled hl with ⟨reg, -, rfl⟩ | ⟨l₀, hl₀, hreg, htopics⟩
      · cases ht
      · have hk₀ : l₀.connection = k := (congrArg Registration.connection hreg).trans hk
        rw [htopics] at ht
        -- a topic that is new to a connection is one that it is being subscribed to
        by_contra hbad
        refine Request.not_mem_retopic (fun hmem => hbad (h.listens l₀ hl₀ hk₀ topic hmem)) ?_ ht
        rintro topics rfl hmem
        exact hbad (h.subscribes t l₀.userId topics (hk₀ ▸ hin) topic hmem)
  | stop hm hn hk heq =>
    refine ⟨fun t reg hp => ?_, fun l hl => ?_, fun t user topics hp => ?_, fun l hl => ?_⟩
    · rw [hk.pending] at hp
      cases hp
    · rw [hk.registry] at hl
      cases hl
    · rw [hk.pending] at hp
      cases hp
    · rw [hk.registry] at hl
      cases hl
  | other hn hk hc =>
    have he : Effect m v := .other hn hk hc
    refine ⟨fun t reg hp hq => ?_, fun l hl => ?_, fun t user topics hp => ?_, fun l hl => ?_⟩
    · rw [hk.pending] at hp
      rcases Hub.mem_pending_enter hp with hp | ⟨-, hr⟩
      · exact h.registers t reg hp hq
      · exact (spares he hr (hout _) hown hsound).1 reg rfl hq
    · rw [hk.registry, Hub.exchange_enter] at hl
      exact h.entries l hl
    · rw [hk.pending] at hp
      rcases Hub.mem_pending_enter hp with hp | ⟨-, hr⟩
      · exact h.subscribes t user topics hp
      · exact (spares he hr (hout _) hown hsound).2 user topics rfl
    · rw [hk.registry, Hub.exchange_enter] at hl
      exact h.listens l hl

end Hub.Confines

section Courses

variable {callers : Request → Prop} {past : List Moment} {w : World} {service : Service}
  {now : Instant} {clock : Time.Timestamp} {k : ConnectionId} {q : QueueId}

/-- What a reader has decided to allow can be named. -/
theorem Course.wellScoped_allowed (h : Course callers (.start service now clock) past w)
    {s : Stand} {i : Identity} {topics : List Topic} (hs : w.stand? k = some s)
    (ht : s.reader.task = .deciding i [] topics) : ∀ topic ∈ topics, topic.WellScoped := by
  obtain ⟨c, hc, rfl⟩ := Option.map_eq_some_iff.mp hs
  have hsound : c.reader.task.Suits c.reader.session := h.sound hc
  have ht : c.reader.task = .deciding i [] topics := ht
  rw [ht] at hsound
  exact fun topic hmem => Topic.wellScoped_of_ofName? (hsound.2 topic hmem)

theorem Course.confines (hcallers : ∀ r, callers r → r.Spares k q)
    (h : Course callers (.start service now clock) past w)
    (hown : ∀ k' s, w.stand? k' = some s → s.queue = q → k' = k) :
    w.site.hub.Confines k q := by
  induction h with
  | start =>
    refine ⟨fun _ _ hp => ?_, fun _ hl => ?_, fun _ _ _ hp => ?_, fun _ hl => ?_⟩
    · cases hp
    · cases hl
    · cases hp
    · cases hl
  | @move past u v mv hcourse hcall hmove ih =>
    have he := effect_of_move hcourse.calm hmove
    -- a connection keeps its queue, so the queue was nobody else's before
    have hown : ∀ k' s, u.stand? k' = some s → s.queue = q → k' = k := by
      intro k' s hs hq
      obtain ⟨s', hs', hbec⟩ := he.after hs
      exact hown k' s' hs' (hbec.queue.trans hq)
    exact Hub.Confines.step (m := ⟨u, mv⟩) (ih hown) he (fun r hr => hcallers r (hcall r hr)) hown
      fun k' s i topics hs ht => hcourse.wellScoped_allowed hs ht

/-- A topic that cannot be named has no listeners among those who subscribe themselves. -/
theorem Course.not_brings (h : Course callers (.start service now clock) past w)
    {c : Connection} (hc : w.connections[k]? = some c)
    (hcallers : ∀ r, callers r → r.Spares k c.queue) {t : Topic} (ht : ¬ t.WellScoped)
    (e : DomainEvent) (time : Time.Timestamp) :
    ¬ w.site.hub.exchange.Brings (.topic t) e time c.queue := by
  intro hb
  have hown : ∀ k' s, w.stand? k' = some s → s.queue = c.queue → k' = k := fun k' s hs hq =>
    h.ownQueues.apart k' k s c.stand hs (stand?_of_connection hc) hq
  have hconf := h.confines hcallers hown
  obtain ⟨l, hl, hq, hsel⟩ := hb.exists_entry
  exact ht (hconf.listens l hl (hconf.entries l hl hq) t (List.contains_iff_mem.mp hsel))

end Courses

/-! ## What can be relied on -/

/-- The connections of an instance do not share queues. -/
theorem Course.ownQueues_exchange {callers : Request → Prop} {past : List Moment} {w : World}
    {service : Service} {now : Instant} {clock : Time.Timestamp} (hr : RegistersNobody callers)
    (h : Course callers (.start service now clock) past w) :
    w.site.hub.exchange.OwnQueues := by
  obtain ⟨ha, -⟩ := h.kept hr
  refine List.Nodup.map_on (fun l hl l' hl' hq => ?_) (List.Nodup.of_map Entry.userId ha.users)
  obtain ⟨s, hs, -, -, hqueue⟩ := ha.registered _ (ha.entries l hl)
  obtain ⟨s', hs', -, -, hqueue'⟩ := ha.registered _ (ha.entries l' hl')
  have hk : l.connection = l'.connection :=
    h.ownQueues.apart _ _ s s' hs hs' (hqueue.trans (hq.trans hqueue'.symm))
  have hreg : l.registration = l'.registration :=
    ha.eq_of_connection (ha.entries l hl) (ha.entries l' hl') hk
  exact ha.users.eq_of_userId hl hl' (congrArg (·.identity.userId) hreg)

/--
**Events reach exactly their audience.** Whatever has been asked of a hub and whatever happens to
it afterwards, an event that is published to it while it runs is delivered to its targets in their
order, so that everyone gets the copies that are for them and all else stays as it is; a hub that
has stopped delivers nothing. A post to a circle comes onto nobody's queue who does not listen to
exactly that circle, whatever the exchange is like. And if the scope of a topic is not one that a
name may carry, no connection that subscribes itself gets what is announced to it.
-/
theorem audience_reached :
    (∀ clock past h, Traffic (.start clock) past h → ∀ p : Publisher Hub, p.TellsAudience → ∀ e,
      (h.running = true → Announces h e (p.publish e h)) ∧
        (h.running = false →
          p.publish e h = { h with nextTicket := h.nextTicket + e.audience.length })) ∧
    (∀ (x : Exchange) id circle post target time q,
      target ∈ (DomainEvent.postCreated id (some circle) post).audience →
      x.Brings target (.postCreated id (some circle) post) time q →
        ∃ l ∈ x.registry, l.queue = q ∧ .circle circle ∈ l.topics) ∧
    (∀ callers service now clock past w k c,
      Course callers (.start service now clock) past w → w.connections[k]? = some c →
      (∀ r, callers r → r.Spares k c.queue) →
      ∀ t id, t.scope? = some id → ¬ Topic.Scope id →
        ∀ e time, ¬ w.site.hub.exchange.Brings (.topic t) e time c.queue) ∧
    ∀ callers service now clock past w, RegistersNobody callers →
      Course callers (.start service now clock) past w → w.site.hub.exchange.OwnQueues := by
  refine ⟨?_, ?_, ?_, ?_⟩
  · intro clock past h ht p hp e
    rw [hp.publish]
    exact ⟨fun hr => announces ht hr e, fun hr => Hub.foldl_dispatch_of_stopped hr⟩
  · intro x id circle post target time q htarget hb
    obtain rfl := List.mem_singleton.mp htarget
    obtain ⟨l, hl, hq, hsel⟩ := hb.exists_entry
    exact ⟨l, hl, hq, List.contains_iff_mem.mp hsel⟩
  · intro callers service now clock past w k c h hc hcallers t id hid hscope e time
    exact h.not_brings hc hcallers (fun ht => hscope (ht id hid)) e time
  · intro callers service now clock past w hr h
    exact h.ownQueues_exchange hr

/-! ## An evening -/

/-- The hub after one occurrence after another, if they can be. -/
def Hub.meetAll? (h : Hub) : List Occurrence → Option Hub
  | [] => some h
  | e :: occurrences => (h.meet? e).bind fun g => g.meetAll? occurrences

theorem Traffic.of_meetAll? {h g : Hub} {occurrences : List Occurrence}
    (hg : h.meetAll? occurrences = some g) : ∃ past, Traffic h past g := by
  induction occurrences generalizing h with
  | nil => exact ⟨[], Option.some.inj hg ▸ .start⟩
  | cons e occurrences ih =>
    obtain ⟨u, hu, hg⟩ := Option.bind_eq_some_iff.mp hg
    obtain ⟨past, ht⟩ := ih hg
    exact ⟨⟨h, e⟩ :: past, ht.cons hu⟩

namespace Forum

def midnight : Time.Timestamp := ⟨⟨2024, 1, 1⟩, 0, 0, 0, 0⟩

/-- Ann and Bob come. She listens to a post and to all responses, he listens to the post. -/
def occurrences : List Occurrence :=
  [.tend fun m => ((m.create 4).2.create 4).2,
    .issue (.register ⟨0, ⟨"ann", "Ann", false⟩, 0⟩),
    .issue (.register ⟨1, ⟨"bob", "Bob", false⟩, 1⟩),
    .issue (.subscribe "ann" 0 [.post "7", .responses]), .issue (.subscribe "bob" 1 [.post "7"]),
    .handle [], .handle [], .handle [], .handle []]

theorem possible : ((Hub.start midnight).meetAll? occurrences).isSome = true := by decide +kernel

def evening : Hub := ((Hub.start midnight).meetAll? occurrences).get possible

/-- Somebody responds to the post. -/
def response : DomainEvent := .responseCreated "7" "8" .null

def told : Hub := realtimePublisher.publish response evening

theorem present : evening.exchange.registry =
    [⟨0, ⟨"ann", "Ann", false⟩, 0, [.post "7", .responses]⟩,
      ⟨1, ⟨"bob", "Bob", false⟩, 1, [.post "7"]⟩] := by decide +kernel

theorem hasRoom : ∀ l ∈ evening.exchange.registry,
    (response.copiesFor l).length ≤ evening.exchange.roomOf l.queue := by decide +kernel

end Forum

open Forum in
/-- Ann gets the response twice and Bob once. A post to the readers' circle comes onto nobody's
queue, and one to a circle that cannot be named not even onto a reader's. -/
theorem audience_reached_evening :
    (∃ turn v, Traffic told turn v ∧ evening.exchange.Informs response midnight v.exchange) ∧
    evening.exchange.registry.map response.copiesFor =
      [[.newResponse "7" "8" .null, .newResponse "7" "8" .null], [.newResponse "7" "8" .null]] ∧
    (∀ q, ¬ evening.exchange.Brings (.topic (.circle "readers"))
      (.postCreated "9" (some "readers") .null) midnight q) ∧
    ∃ c, Reunion.evening.connections[0]? = some c ∧
      ¬ Reunion.evening.site.hub.exchange.Brings (.topic (.circle "a:b"))
        (.postCreated "9" (some "a:b") .null) midnight c.queue := by
  obtain ⟨hreach, hcircle, hscope, -⟩ := audience_reached
  refine ⟨?_, ?_, ?_, ?_⟩
  · obtain ⟨past, ht⟩ := Traffic.of_meetAll? (Option.some_get possible).symm
    have hann := (hreach midnight past evening ht realtimePublisher
      tellsAudience_realtimePublisher response).1 (by decide +kernel)
    have hnext : (told.next? []).map Prod.fst = some evening.nextTicket := by decide +kernel
    obtain ⟨turn, v, hturn, -, -, hinforms⟩ := hann.reaches [] told [] .start hnext
    have hexchange : told.exchange = evening.exchange := by
      unfold told
      rw [hann.asks]
    have hclock : evening.exchange.clock = midnight := by decide +kernel
    rw [hexchange, hclock] at hinforms
    refine ⟨turn, v, hturn, hinforms ?_ hasRoom⟩
    unfold OwnQueues
    rw [present]
    decide
  · rw [present]
    rfl
  · intro q hb
    obtain ⟨l, hl, -, hcircle⟩ := hcircle _ _ _ _ _ _ _ List.mem_cons_self hb
    revert l
    rw [present]
    decide
  · obtain ⟨c, hc, -⟩ := Option.map_eq_some_iff.mp Reunion.queue_zero
    exact ⟨c, hc, hscope _ _ _ _ _ _ _ _ Reunion.course hc (fun _ h => h.elim) (.circle "a:b")
      "a:b" rfl (by rw [← Topic.isScope_iff]; decide +kernel) _ midnight⟩

end Switchboard
