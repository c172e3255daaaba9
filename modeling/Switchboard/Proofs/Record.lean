import Switchboard.Proofs.Ordering
import Switchboard.Proofs.Presence

/-!
# The record of a hub

What is proved of the histories of an exchange holds of every hub that runs. Whatever is asked of a
hub and whatever its looks miss, the requests that it has handled make a history of its exchange, in
the order in which it has handled them (`Traffic.run`). So its connections get exactly what they
should (`Traffic.delivers_exactly`), and are told the truth of one another
(`Traffic.presence_agrees`).

The clock of a hub goes on while its history has one clock. That makes no difference: announcements
may be stamped with any time, and nothing else depends on the clock.
-/

namespace Switchboard

open Wire Exchange

/-! ## Another clock -/

/-- The exchange with its clock put to another time. -/
def Exchange.withClock (clock : Time.Timestamp) (x : Exchange) : Exchange := { x with clock }

/-- A sending as it goes at another time. -/
def Sending.withClock (clock : Time.Timestamp) (s : Sending) : Sending :=
  { s with before := s.before.withClock clock }

section Clocks

variable {x y : Exchange} {s : Sending} {users : List String} {log : List Sending} {r : Request}

/-- Announcements may be stamped with any time, so the clock of the exchange does not matter. -/
theorem Announcing.withClock (clock : Time.Timestamp) (h : Announcing x users log y) :
    Announcing (x.withClock clock) users (log.map (·.withClock clock)) (y.withClock clock) := by
  induction h with
  | done x => exact .done _
  | next time hout _ ih => exact .next time hout ih

theorem Spreading.withClock (clock : Time.Timestamp) (h : Spreading s log y) :
    Spreading (s.withClock clock) (log.map (·.withClock clock)) (y.withClock clock) := by
  cases h with
  | mk hout h => exact .mk hout (h.withClock clock)

theorem Handling.withClock (clock : Time.Timestamp) (h : Handling x r log y) :
    Handling (x.withClock clock) r (log.map (·.withClock clock)) (y.withClock clock) := by
  cases h with
  | join time hfind h => exact .join time hfind (h.withClock clock)
  | @replace r previous hfind =>
    -- nobody is told of a login that replaces another
    have hfind' : (x.withClock clock).find? r.identity.userId = some previous := hfind
    have hsame : (x.withClock clock).register r = (x.register r).withClock clock := by
      rw [register_replace hfind, register_replace hfind']
      rfl
    rw [← hsame]
    exact .replace hfind'
  | leave hfind h => exact .leave hfind (h.withClock clock)
  | stay hfind => exact .stay hfind
  | deliver h => exact .deliver (h.withClock clock)
  | subscribe user c topics => exact .subscribe _ user c topics
  | unsubscribe user c topics => exact .unsubscribe _ user c topics

end Clocks

/-! ## Keeping the record -/

/-- The request that was handled. -/
def Incident.request? : Incident → Option Request
  | handled _ r _ _ => some r
  | taken .. => none

/-- Where frames are received nothing is handled. -/
theorem Receiving.filterMap_request? {m m' : Mail} {new : List Incident}
    (h : Receiving m new m') : new.filterMap Incident.request? = [] := by
  cases h <;> rfl

namespace Traffic

/-- From outside, queues are only made, emptied and closed, and whoever registers brings the sending
end of its queue. -/
structure WellTended (past : List Occasion) : Prop where
  tends : ∀ o ∈ past, ∀ f, o.event = .tend f →
    ∃ new, Receiving o.hub.exchange.mail new (f o.hub.exchange.mail)
  registers : ∀ o ∈ past, ∀ t r, o.handles? = some (t, r) → o.hub.exchange.Admits r

theorem WellTended.init {past : List Occasion} {o : Occasion} (h : WellTended (past ++ [o])) :
    WellTended past :=
  ⟨fun o ho => h.tends o (List.mem_append_left _ ho),
    fun o ho => h.registers o (List.mem_append_left _ ho)⟩

variable {clock : Time.Timestamp} {past : List Occasion} {h g : Hub}

/-- **The history of a hub that runs is one of its exchange.** -/
theorem run (ht : Traffic (.start clock) past h) (hw : WellTended past) (hr : h.running = true) :
    ∃ record, Run record (h.exchange.withClock clock) ∧
      record.filterMap Incident.request? =
        ((handled past).map Prod.snd).filter Request.isExchange := by
  induction ht with
  | start => exact ⟨[], .start clock, rfl⟩
  | @next past h g e ht hm ih =>
    obtain ⟨hrunning, heffect⟩ := effect_of_meet? hm hr
    obtain ⟨record, hrun, hrecord⟩ := ih hw.init hrunning
    rw [heffect]
    -- as long as no request is handled, nothing is sent
    have hidle : Occasion.handles? ⟨h, e⟩ = none →
        ((handled (past ++ [⟨h, e⟩])).map Prod.snd).filter Request.isExchange =
          record.filterMap Incident.request? := by
      intro hnone
      rw [handled_snoc, hnone, hrecord]
      simp
    cases e with
    | issue r => exact ⟨record, hrun, (hidle rfl).symm⟩
    | setClock time => exact ⟨record, hrun, (hidle rfl).symm⟩
    | tend f =>
      obtain ⟨new, hnew⟩ := hw.tends ⟨h, .tend f⟩ (by simp) f rfl
      refine ⟨record ++ new, hrun.receive hnew, ?_⟩
      rw [List.filterMap_append, hnew.filterMap_request?, List.append_nil]
      exact (hidle rfl).symm
    | handle missed =>
      obtain ⟨t, r, hn, -⟩ := Hub.step?_eq_some hm
      have hhandles : Occasion.handles? ⟨h, .handle missed⟩ = some (t, r) := hn
      have hx : Occasion.effect ⟨h, .handle missed⟩ h.exchange = h.exchange.handled r := by
        simp only [Occasion.effect, hn]
      have hhandled : ((handled (past ++ [⟨h, .handle missed⟩])).map Prod.snd).filter
          Request.isExchange =
            record.filterMap Incident.request? ++ [r].filter Request.isExchange := by
        rw [handled_snoc, hhandles, hrecord]
        simp
      rw [hhandled, hx]
      by_cases hchange : r.isExchange = true
      · obtain ⟨log, hh⟩ := handling_handled h.exchange hchange
        have hadmits : (h.exchange.withClock clock).Admits r :=
          hw.registers ⟨h, .handle missed⟩ (by simp) t r hhandles
        refine ⟨_, hrun.handle hadmits (hh.withClock clock), ?_⟩
        rw [List.filterMap_append, List.filter_cons_of_pos hchange]
        rfl
      · rw [handled_of_not_isExchange h.exchange hchange]
        refine ⟨record, hrun, ?_⟩
        rw [List.filter_cons_of_neg hchange, List.filter_nil, List.append_nil]

/-! ## What it says of the connections -/

/-- **Every connection of a hub gets exactly what is meant for it** while it is in the registry, and
what reaches several does so in one order. -/
theorem delivers_exactly (ht : Traffic (.start clock) past h) (hw : WellTended past)
    (hr : h.running = true) : ∃ record,
      record.filterMap Incident.request? =
        ((handled past).map Prod.snd).filter Request.isExchange ∧
      (∀ earlier x₀ r log x₁ later, record = earlier ++ .handled x₀ (.register r) log x₁ :: later →
        ExactDelivery r (sendings earlier) (log ++ sendings later)
          (enqueued record h.exchange r.queue)) ∧
      InOrder (sendings record) (enqueued record h.exchange) := by
  obtain ⟨record, hrun, hrecord⟩ := ht.run hw hr
  exact ⟨record, hrecord, fun _ _ _ _ _ _ hp => hrun.exact hp, inOrder_of_filter hrun.enqueued_eq⟩

/-- **What a connection of a hub has been told of other users agrees with the registry**, as long as
it is there. -/
theorem presence_agrees (ht : Traffic (.start clock) past h) (hw : WellTended past)
    (hr : h.running = true) : ∃ record,
      record.filterMap Incident.request? =
        ((handled past).map Prod.snd).filter Request.isExchange ∧
      ∀ earlier x₀ r log x₁ later, record = earlier ++ .handled x₀ (.register r) log x₁ :: later →
        h.exchange.Holds r → ∀ v, v ≠ r.identity.userId →
        Faithful (x₀.isOnline v) (presenceOn r.queue v (log ++ sendings later))
          (h.exchange.isOnline v) := by
  obtain ⟨record, hrun, hrecord⟩ := ht.run hw hr
  exact ⟨record, hrecord, fun _ _ _ _ _ _ hp hold _ hv => hrun.faithful hp hold hv⟩

end Traffic

end Switchboard
