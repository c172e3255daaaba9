import Switchboard.Proofs.Life
import Switchboard.Proofs.Shutdown

/-!
# What becomes of a request

A hub is told nothing but requests, one for a move at the most, and whatever else happens to it
happens to its queues and its clock (`hub_of_move`). So it can be said of every request that was
ever issued in a course what has become of it: it still waits in a hub that runs, or it was handled
at some moment and has been answered by what the exchange was like then, or the hub has stopped
without handling it and has said so (`Course.fate`).
-/

namespace Switchboard

open Wire Exchange

/-! ## Moves and the hub -/

/-- A hub of which something may be asked. -/
def Hub.hear (h : Hub) : Option Request → Hub
  | none => h
  | some r => (h.issue r).2

section Moves

variable {w v : World} {k : ConnectionId}

theorem hub_stepEnd? {half : Connection.Half} {c c' : Connection} {site site' : Site}
    (h : c.stepEnd? k half site = some (c', site')) :
    ∃ f : Exchange → Exchange, (∀ x, (f x).registry = x.registry) ∧
      site'.hub = (site.hub.update f).hear (c.farewell? k) := by
  have hletGo : ∀ hub : Hub, c.isServing = true → ∃ f : Exchange → Exchange,
      (∀ x, (f x).registry = x.registry) ∧ c.letGo k hub = (hub.update f).hear (c.farewell? k) := by
    intro hub hserving
    refine ⟨fun x => if c.reader.holdsQueue then x.release c.queue else x, fun x => ?_, ?_⟩
    · dsimp only
      split <;> rfl
    · unfold Connection.letGo Connection.farewell?
      rw [if_pos hserving]
      cases c.reader.holdsQueue <;> cases c.reader.registered <;> rfl
  have hgone : c.isServing = false → c.farewell? k = none := by
    intro hserving
    unfold Connection.farewell?
    rw [hserving]
    rfl
  unfold Connection.stepEnd? at h
  split at h
  · rename_i hphase
    have hserving : c.isServing = true := by
      unfold Connection.isServing
      rw [hphase]
    cases half with
    | writer | reader =>
      obtain ⟨why, -, heq⟩ := Option.map_eq_some_iff.mp h
      obtain ⟨rfl, rfl⟩ := Prod.mk.inj heq
      exact hletGo site.hub hserving
  · rename_i hphase
    have hserving : c.isServing = false := by
      unfold Connection.isServing
      rw [hphase]
    rw [hgone hserving]
    split at h
    · obtain ⟨rfl, rfl⟩ := Prod.mk.inj (Option.some.inj h)
      exact ⟨id, fun _ => rfl, rfl⟩
    · split at h
      · obtain ⟨rfl, rfl⟩ := Prod.mk.inj (Option.some.inj h)
        exact ⟨fun x => { x with mail := (c.abort site.hub.exchange.mail).2 }, fun _ => rfl, rfl⟩
      · cases h
  · cases h
  · cases h

/-- **A move that is not the hub's** asks it something or nothing, and leaves the registry alone. -/
theorem hub_of_move {m : Move} (hw : w.Calm) (hm : ∀ missed, m ≠ .act (.hub missed))
    (h : w.move? m = some v) :
    ∃ f : Exchange → Exchange, (∀ x, (f x).registry = x.registry) ∧
      v.site.hub = (w.site.hub.update f).hear (Moment.request? ⟨w, m⟩) := by
  cases m with
  | act a =>
    cases a with
    | hub missed => exact absurd rfl (hm missed)
    | writer j missed =>
      obtain ⟨c, hc, h⟩ := Option.bind_eq_some_iff.mp h
      obtain ⟨⟨c', mail⟩, -, rfl⟩ := Option.map_eq_some_iff.mp h
      exact ⟨fun x => { x with mail }, fun _ => rfl, rfl⟩
    | reader j =>
      obtain ⟨c, hc, h⟩ := Option.bind_eq_some_iff.mp h
      obtain ⟨⟨c', site⟩, hstep, rfl⟩ := Option.map_eq_some_iff.mp h
      obtain ⟨-, asked, hs⟩ := strode_of_step (hw j _ (stand?_of_connection hc)) hstep
      -- a reader does nothing at the hub but ask, and what it asks is what it strode for
      refine ⟨id, fun _ => rfl, ?_⟩
      have hasked : Moment.request? ⟨w, .act (.reader j)⟩ = asked.map (·.request j c.queue) := by
        show (w.connections[j]?).bind _ = _
        rw [hc]
        exact hs.asks
      rw [hasked]
      exact hs.hub.trans (by cases asked <;> rfl)
    | client j half =>
      obtain ⟨c, hc, h⟩ := Option.bind_eq_some_iff.mp h
      obtain ⟨⟨c', site⟩, hstep, rfl⟩ := Option.map_eq_some_iff.mp h
      have hasked : Moment.request? ⟨w, .act (.client j half)⟩ = c.farewell? j := by
        show (w.connections[j]?).bind _ = _
        rw [hc]
        rfl
      rw [hasked]
      exact hub_stepEnd? hstep
  | undergo s =>
    obtain rfl := Option.some.inj h
    cases s with
    | connect settings socket =>
      exact ⟨fun x => { x with mail := (x.mail.create settings.queueCapacity).2 }, fun _ => rfl,
        rfl⟩
    | issue r => exact ⟨id, fun _ => rfl, rfl⟩
    | arrive | take | setWindow | addMember | removeMember | setReachable | setNow =>
      exact ⟨id, fun _ => rfl, rfl⟩
  | setService service =>
    obtain rfl := Option.some.inj h
    exact ⟨id, fun _ => rfl, rfl⟩
  | setClock clock =>
    obtain rfl := Option.some.inj h
    exact ⟨fun x => { x with clock }, fun _ => rfl, rfl⟩
  | endWriter j writer =>
    have h : w.endWriter? j writer = some v := h
    unfold World.endWriter? at h
    split at h
    · cases h
    · obtain ⟨c, -, rfl⟩ := Option.map_eq_some_iff.mp h
      let settled := { c with writer }.settleWriter w.site.hub.exchange.mail
      exact ⟨fun x => { x with mail := settled.2 }, fun _ => rfl, rfl⟩

/-- What the hub's own move makes of it. -/
theorem hub_of_hub {missed : List Lane} (h : w.move? (.act (.hub missed)) = some v) :
    ∃ t r, w.site.hub.next? missed = some (t, r) ∧
      v.site.hub = (w.site.hub.take t).handle t r := by
  obtain ⟨g, hg, rfl⟩ := Option.map_eq_some_iff.mp h
  exact Hub.step?_eq_some hg

end Moves

/-! ## Answers under one ticket -/

section Lookups

variable {o : Option Answer} {l : List (Ticket × Answer)} {t t' : Ticket}

theorem lookup_answer_self : ((o.map fun a => (t, a)).toList ++ l).lookup t =
    o.or (l.lookup t) := by
  cases o with
  | none => rfl
  | some a => exact List.lookup_cons_self

theorem lookup_answer_of_ne (h : t ≠ t') : ((o.map fun a => (t', a)).toList ++ l).lookup t =
    l.lookup t := by
  cases o with
  | none => rfl
  | some a =>
    show List.lookup t ((t', a) :: l) = _
    rw [List.lookup_cons, beq_false_of_ne h]

/-- Of those who are refused everyone gets their own answer, if they wait for one. -/
theorem lookup_refusals?_of_mem {waiting : List (Ticket × Request)} {r : Request}
    (hr : (t, r) ∈ waiting) (hone : ∀ r', (t, r') ∈ waiting → r' = r) :
    (refusals? waiting).reverse.lookup t = r.unavailable? := by
  cases hu : r.unavailable? with
  | some a =>
    rw [lookup_refusals? hr (by rw [hu]; rfl), eq_of_unavailable? hu]
  | none =>
    refine List.lookup_eq_none_iff.mpr fun p hp => bne_iff_ne.mpr fun heq => ?_
    obtain ⟨r', hr', ha⟩ := mem_refusals?.mp (List.mem_reverse.mp hp)
    rw [hone r' (heq ▸ hr'), hu] at ha
    cases ha

end Lookups

/-! ## What becomes of a request -/

/-- What has become of the request `r` that was issued with the ticket `t`, now that the hub is
`h`. -/
inductive Fate (past : List Moment) (h : Hub) (t : Ticket) (r : Request) : Prop
  | waits : h.running = true → (t, r) ∈ h.pending → h.answer? t = none → Fate past h t r
  | handled {m : Moment} :
      m ∈ past → m.handles? = some (t, r) → h.answer? t = m.hub.exchange.answerTo? r →
      Fate past h t r
  /-- The hub has stopped before. -/
  | refused : h.running = false → (∀ q, (t, q) ∉ handledIn past) →
      h.answer? t = r.unavailable? → Fate past h t r

/-- Every request has its fate. -/
structure Fated (past : List Moment) (h : Hub) : Prop where
  fate : ∀ t r, (ledger past)[t]? = some r → Fate past h t r
  numbered : ∀ p ∈ h.answers, p.1 < h.nextTicket

section Fates

variable {past : List Moment} {m : Moment} {g h : Hub} {t : Ticket} {r : Request}

/-- A request fares as before if the hub has handled nothing. -/
theorem Fate.keep (hf : Fate past h t r) (hm : m.handles? = none) (hrun : g.running = h.running)
    (hpend : ∀ p ∈ h.pending, p ∈ g.pending) (hans : g.answer? t = h.answer? t) :
    Fate (past ++ [m]) g t r := by
  cases hf with
  | waits hr hp ha => exact .waits (hrun.trans hr) (hpend _ hp) (hans.trans ha)
  | handled hmem hh ha => exact .handled (List.mem_append_left _ hmem) hh (hans.trans ha)
  | refused hr hn ha =>
    refine .refused (hrun.trans hr) (fun q hq => hn q ?_) (hans.trans ha)
    rw [handledIn_snoc, hm] at hq
    simpa using hq

theorem Hub.answer?_eq_none_of_le (hnum : ∀ p ∈ h.answers, p.1 < h.nextTicket)
    (ht : h.nextTicket ≤ t) : h.answer? t = none :=
  List.lookup_eq_none_iff.mpr fun p hp =>
    bne_iff_ne.mpr (Nat.ne_of_gt (Nat.lt_of_lt_of_le (hnum p hp) ht))

/-- A request is issued. -/
theorem Fated.issue (hf : Fated past h) (hb : Booked past h) (hm : m.handles? = none)
    (hr : m.request? = some r) : Fated (past ++ [m]) (h.issue r).2 := by
  have hledger : ledger (past ++ [m]) = ledger past ++ [r] := by
    rw [ledger_snoc, hr]
    rfl
  have hold : ∀ {t r'}, (ledger past)[t]? = some r' → t ≠ h.nextTicket := fun ht =>
    Nat.ne_of_lt (hb.lt_nextTicket ht)
  have hnone := Hub.answer?_eq_none_of_le hf.numbered (Nat.le_refl _)
  -- it is an older one, or the one that is issued now
  have hcases : ∀ {t r'}, (ledger (past ++ [m]))[t]? = some r' →
      (ledger past)[t]? = some r' ∨ (t = h.nextTicket ∧ r' = r) := by
    intro t r' ht
    rw [hledger] at ht
    rcases Nat.lt_or_ge t (ledger past).length with hlt | hge
    · rw [List.getElem?_append_left hlt] at ht
      exact Or.inl ht
    · rw [List.getElem?_append_right hge, List.getElem?_singleton] at ht
      split at ht
      · rename_i hzero
        refine Or.inr ⟨?_, (Option.some.inj ht).symm⟩
        rw [hb.count]
        exact Nat.le_antisymm (Nat.le_of_sub_eq_zero hzero) hge
      · cases ht
  cases hrun : h.running with
  | true =>
    rw [Hub.issue_of_running hrun]
    refine ⟨fun t r' ht => ?_, fun p hp => Nat.lt_succ_of_lt (hf.numbered p hp)⟩
    rcases hcases ht with ht | ⟨rfl, rfl⟩
    · exact (hf.fate t r' ht).keep hm rfl (fun p hp => List.mem_append_left _ hp) rfl
    · exact .waits hrun (List.mem_append_right _ (List.mem_singleton.mpr rfl)) hnone
  | false =>
    -- it is refused at once, under a ticket that nobody else has
    rw [Hub.issue_of_stopped hrun]
    refine ⟨fun t r' ht => ?_, fun p hp => ?_⟩
    · rcases hcases ht with ht | ⟨rfl, rfl⟩
      · refine (hf.fate t r' ht).keep hm (Hub.running_abandon _ _ _) (fun p hp => ?_) ?_
        · rw [Hub.pending_abandon]
          exact hp
        · unfold Hub.answer?
          rw [Hub.answers_abandon]
          exact lookup_answer_of_ne (hold ht)
      · refine .refused ((Hub.running_abandon _ _ _).trans hrun) (fun q hq => ?_) ?_
        · rw [handledIn_snoc, hm] at hq
          have hq : (h.nextTicket, q) ∈ handledIn past := by simpa using hq
          exact hold (hb.handled _ hq) rfl
        · unfold Hub.answer?
          rw [Hub.answers_abandon, lookup_answer_self]
          exact (congrArg _ hnone).trans Option.or_none
    · rw [Hub.answers_abandon] at hp
      rw [(Hub.keeps_abandon _ _ _).nextTicket]
      rcases List.mem_append.mp hp with hp | hp
      · obtain ⟨a, -, rfl⟩ := Option.map_eq_some_iff.mp (Option.mem_toList.mp hp)
        exact Nat.lt_succ_self _
      · exact Nat.lt_succ_of_lt (hf.numbered p hp)

/-- What is not the hub's doing. -/
theorem Fated.other (hf : Fated past h) (hb : Booked past h) (hm : m.handles? = none)
    (f : Exchange → Exchange) (hregistry : ∀ x, (f x).registry = x.registry) :
    Fated (past ++ [m]) ((h.update f).hear m.request?) := by
  have hf' : Fated past (h.update f) := by
    refine ⟨fun t r ht => ?_, hf.numbered⟩
    cases hf.fate t r ht with
    | waits hr hp ha => exact .waits hr hp ha
    | handled hmem hh ha => exact .handled hmem hh ha
    | refused hr hn ha => exact .refused hr hn ha
  have hb' : Booked past (h.update f) := by
    refine ⟨hb.count, hb.pending, hb.sorted, hb.handled, hb.apart, hb.once, hb.answered, ?_⟩
    intro hr
    exact ⟨(hregistry _).trans (hb.stopped hr).1, (hb.stopped hr).2⟩
  cases hr : m.request? with
  | some r => exact hf'.issue hb' hm hr
  | none =>
    refine ⟨fun t r ht => ?_, hf.numbered⟩
    rw [ledger_snoc, hr, Option.toList_none, List.append_nil] at ht
    exact (hf'.fate t r ht).keep hm rfl (fun p hp => hp) rfl

/-- Nothing that waits has been answered. -/
theorem Fated.answer?_of_pending (hf : Fated past h) (hb : Booked past h)
    (hr : (t, r) ∈ h.pending) : h.running = true ∧ h.answer? t = none := by
  cases hf.fate t r (hb.pending _ hr) with
  | waits hrun _ ha => exact ⟨hrun, ha⟩
  | handled hmem hh _ =>
    exact absurd rfl (hb.apart _ (List.mem_filterMap.mpr ⟨_, hmem, hh⟩) _ hr)
  | refused hrun _ _ =>
    rw [(hb.stopped hrun).2] at hr
    cases hr

/-! ### The hub's own doing -/

namespace Hub

/-- A request that is handled is answered by what the exchange is like. -/
theorem answer?_handle_self (hnone : h.answer? t = none) (hout : ∀ p ∈ h.pending, p.1 ≠ t) :
    (h.handle t r).answer? t = h.exchange.answerTo? r := by
  by_cases hr : r = .shutdown
  · subst hr
    show h.stop.answers.lookup t = none
    rw [answers_stop, List.lookup_append, lookup_refusals?_eq_none hout]
    exact hnone
  · unfold answer?
    rw [h.answers_handle t hr, lookup_answer_self]
    exact (congrArg _ hnone).trans Option.or_none

/-- The answers to what does not wait any more stand. -/
theorem answer?_handle_of_ne {t' : Ticket} (hne : t' ≠ t) (hout : ∀ p ∈ h.pending, p.1 ≠ t') :
    (h.handle t r).answer? t' = h.answer? t' := by
  by_cases hr : r = .shutdown
  · subst hr
    show h.stop.answers.lookup t' = _
    rw [answers_stop, List.lookup_append, lookup_refusals?_eq_none hout]
    rfl
  · unfold answer?
    rw [h.answers_handle t hr]
    exact lookup_answer_of_ne hne

/-- Of those who wait when the hub stops everyone is refused. -/
theorem answer?_stop (hp : (t, r) ∈ h.pending) (hone : ∀ r', (t, r') ∈ h.pending → r' = r)
    (hnone : h.answer? t = none) : h.stop.answer? t = r.unavailable? := by
  unfold answer?
  rw [answers_stop, List.lookup_append, lookup_refusals?_of_mem hp hone]
  exact (congrArg _ hnone).trans Option.or_none

theorem nextTicket_handle (h : Hub) (t : Ticket) (r : Request) :
    (h.handle t r).nextTicket = h.nextTicket := by
  by_cases hr : r = .shutdown
  · subst hr
    exact h.keeps_stop.nextTicket
  · cases r <;> first | exact absurd rfl hr | rfl

/-- Answers are given to what is handled and to what waits. -/
theorem ticket_of_mem_handle {p : Ticket × Answer} (hp : p ∈ (h.handle t r).answers) :
    p ∈ h.answers ∨ p.1 = t ∨ ∃ r', (p.1, r') ∈ h.pending := by
  by_cases hr : r = .shutdown
  · subst hr
    have hp : p ∈ h.stop.answers := hp
    rw [answers_stop] at hp
    rcases List.mem_append.mp hp with hp | hp
    · obtain ⟨r', hr', -⟩ := mem_refusals?.mp (List.mem_reverse.mp hp)
      exact Or.inr (Or.inr ⟨r', hr'⟩)
    · exact Or.inl hp
  · rw [h.answers_handle t hr] at hp
    rcases List.mem_append.mp hp with hp | hp
    · obtain ⟨a, -, rfl⟩ := Option.map_eq_some_iff.mp (Option.mem_toList.mp hp)
      exact Or.inr (Or.inl rfl)
    · exact Or.inl hp

end Hub

/-- The hub handles a request, or stops. -/
theorem Fated.handle (hf : Fated past m.hub) (hb : Booked past m.hub) {missed : List Lane}
    {t₀ : Ticket} {r₀ : Request} (hm : m.move = .act (.hub missed))
    (hn : m.hub.next? missed = some (t₀, r₀)) :
    Fated (past ++ [m]) ((m.hub.take t₀).handle t₀ r₀) := by
  obtain ⟨hledger, hhandled⟩ := Booked.hub_step hm hn
  have hhandles : m.handles? = some (t₀, r₀) := by
    unfold Moment.handles?
    rw [hm]
    exact hn
  have hpend₀ := Hub.mem_pending_of_next? hn
  obtain ⟨hrun, hnone⟩ := hf.answer?_of_pending hb hpend₀
  have hone : ∀ {t r r'}, (t, r') ∈ m.hub.pending → (ledger past)[t]? = some r → r' = r :=
    fun hp ht => Option.some.inj ((hb.pending _ hp).symm.trans ht)
  have hrest : ∀ p ∈ (m.hub.take t₀).pending, p ∈ m.hub.pending ∧ p.1 ≠ t₀ := fun p hp =>
    ⟨(List.mem_filter.mp hp).1, of_decide_eq_true (List.mem_filter.mp hp).2⟩
  refine ⟨fun t r ht => ?_, fun p hp => ?_⟩
  · rw [hledger] at ht
    by_cases hne : t = t₀
    · subst hne
      obtain rfl := hone hpend₀ ht
      exact .handled (List.mem_append_right _ (List.mem_singleton.mpr rfl)) hhandles
        (Hub.answer?_handle_self hnone fun p hp => (hrest p hp).2)
    · cases hf.fate t r ht with
      | handled hmem hh ha =>
        -- what has been handled does not wait, so even a hub that stops leaves its answer alone
        have hdone := List.mem_filterMap.mpr ⟨_, hmem, hh⟩
        refine .handled (List.mem_append_left _ hmem) hh (.trans ?_ ha)
        exact Hub.answer?_handle_of_ne hne fun p hp => (hb.apart _ hdone p (hrest p hp).1).symm
      | refused hstopped _ _ => cases hrun.symm.trans hstopped
      | waits _ hp ha =>
        have hp' : (t, r) ∈ (m.hub.take t₀).pending :=
          List.mem_filter.mpr ⟨hp, decide_eq_true hne⟩
        by_cases hs : r₀ = .shutdown
        · subst hs
          refine .refused (m.hub.take t₀).running_stop (fun q hq => ?_)
            (Hub.answer?_stop hp' (fun r' hr' => hone (hrest _ hr').1 ht) ha)
          rw [hhandled] at hq
          rcases List.mem_append.mp hq with hq | hq
          · exact hb.apart _ hq _ hp rfl
          · exact hne (Prod.mk.inj (List.mem_singleton.mp hq)).1
        · have hh := m.hub.handled_handle t₀ hs
          refine .waits (hh.running.trans hrun) (hh.pending ▸ hp') (.trans ?_ ha)
          unfold Hub.answer?
          rw [(m.hub.take t₀).answers_handle t₀ hs]
          exact lookup_answer_of_ne hne
  · rw [Hub.nextTicket_handle]
    rcases Hub.ticket_of_mem_handle hp with hp | hp | ⟨r', hr'⟩
    · exact hf.numbered p hp
    · rw [hp]
      exact hb.lt_nextTicket (hb.pending _ hpend₀)
    · exact hb.lt_nextTicket (hb.pending _ (hrest _ hr').1)

end Fates

/-! ## Over a course -/

section Courses

variable {callers : Request → Prop} {past : List Moment} {w : World} {service : Service}
  {now : Instant} {clock : Time.Timestamp}

/-- The books are kept whatever callers ask. -/
theorem Course.booked (h : Course callers (.start service now clock) past w) :
    Booked past w.site.hub := by
  induction h with
  | start => exact (Accounted.start service now clock).2
  | @move past u v m hcourse _ hmove ih =>
    exact Booked.step (m := ⟨u, m⟩) ih (effect_of_move hcourse.calm hmove)

theorem Course.uniqueUsers (h : Course callers (.start service now clock) past w) :
    w.site.hub.exchange.UniqueUsers := by
  induction h with
  | start => exact List.nodup_nil
  | move hcourse _ hmove ih => exact (effect_of_move hcourse.calm hmove).uniqueUsers ih

theorem Course.fated (h : Course callers (.start service now clock) past w) :
    Fated past w.site.hub := by
  induction h with
  | start =>
    refine ⟨fun t r ht => ?_, List.forall_mem_nil _⟩
    cases ht
  | @move past u v m hcourse _ hmove ih =>
    by_cases hm : ∃ missed, m = .act (.hub missed)
    · obtain ⟨missed, rfl⟩ := hm
      obtain ⟨t, r, hn, heq⟩ := hub_of_hub hmove
      rw [heq]
      exact Fated.handle (m := ⟨u, .act (.hub missed)⟩) ih hcourse.booked rfl hn
    · have hm : ∀ missed, m ≠ .act (.hub missed) := fun missed heq => hm ⟨missed, heq⟩
      obtain ⟨f, hregistry, heq⟩ := hub_of_move hcourse.calm hm hmove
      rw [heq]
      refine ih.other hcourse.booked ?_ f hregistry
      unfold Moment.handles?
      split
      · rename_i heq
        exact absurd heq (hm _)
      · rfl

/-- **Every request has its fate**: it waits in a hub that runs, it has been handled and answered by
what the exchange was like then, or the hub has stopped and has said so. -/
theorem Course.fate (h : Course callers (.start service now clock) past w) {t : Ticket}
    {r : Request} (ht : (ledger past)[t]? = some r) : Fate past w.site.hub t r :=
  h.fated.fate t r ht

end Courses

end Switchboard
