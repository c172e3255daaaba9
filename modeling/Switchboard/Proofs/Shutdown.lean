import Switchboard.Proofs.Handover

/-!
# Shutting down

A request to shut down is of the last lane, so the hub comes to it when it finds nothing in the
other lanes. It handles nothing after it. What waits then in a lane that had been looked into
already when it came in, what is issued while the loop ends and what is issued later is refused:
whoever waits for an answer is told that the hub is not there, and the queues that registrations
bring are let go of, as are those of everyone in the registry.

`shutdown_complete` says so of every hub that comes to such a request, whatever has happened before
and whatever happens afterwards.
-/

namespace Switchboard

open Wire Traffic

/-- Those who ask the hub to register or to change what they listen to. -/
def Request.isCall : Request → Bool
  | register _ | subscribe .. | unsubscribe .. => true
  | unregister .. | dispatch .. | isOnline _ | onlineCount | shutdown => false

namespace Hub

variable {h : Hub} {q : QueueId}

theorem step?_of_pending (hp : h.pending = []) (missed : List Lane) : h.step? missed = none := by
  have hn : h.next? missed = none := by
    by_contra hsome
    obtain ⟨p, hn⟩ := Option.ne_none_iff_exists'.mp hsome
    have hm := mem_pending_of_next? hn
    rw [hp] at hm
    cases hm
  unfold step?
  rw [hn]

/-- A request that is handled gets its answer, if it gets one, and the answers that were given
stand. -/
theorem mem_answers_handle (h : Hub) {t : Ticket} {r : Request} {p : Ticket × Answer}
    (hr : r ≠ .shutdown) : p ∈ (h.handle t r).answers ↔
      (p.1 = t ∧ h.exchange.answerTo? r = some p.2) ∨ p ∈ h.answers := by
  rw [h.answers_handle t hr, List.mem_append, Option.mem_toList, Option.map_eq_some_iff]
  refine or_congr_left ⟨?_, ?_⟩
  · rintro ⟨a, ha, rfl⟩
    exact ⟨rfl, ha⟩
  · rintro ⟨rfl, ha⟩
    exact ⟨p.2, ha, rfl⟩

/-- A hub that stops lets go of every queue that it has or that it would have got. -/
theorem letsGo_stop (hsome : (h.exchange.mail.get? q).isSome = true)
    (hq : q ∈ brought h.pending ∨ h.exchange.Settles q) : h.stop.exchange.LetsGo q := by
  obtain ⟨a, ha⟩ := Option.isSome_iff_exists.mp hsome
  unfold Exchange.LetsGo
  rw [get?_stop, ha]
  refine ⟨_, rfl, ?_⟩
  split
  · rfl
  · rename_i hnot
    obtain ⟨hentry, hwaits⟩ := not_or.mp hnot
    rcases hq with hq | ⟨e, he, rfl⟩ | ⟨b, hb, hs⟩
    · exact absurd hq hwaits
    · exact absurd (List.mem_map_of_mem he) hentry
    · rw [← Option.some.inj (ha.symm.trans hb)] at hs
      exact hs

end Hub

namespace Exchange

/-- A request that is handled gets its answer if the one who issued it waits for one. -/
theorem answerTo?_isSome (x : Exchange) (r : Request) :
    (x.answerTo? r).isSome = r.unavailable?.isSome := by
  cases r <;> rfl

theorem answerTo?_ne (x : Exchange) (r : Request) : x.answerTo? r ≠ some .unavailable := by
  cases r <;> exact nofun

theorem LetsGo.isSome {x : Exchange} {q : QueueId} (h : x.LetsGo q) :
    (x.mail.get? q).isSome = true := by
  obtain ⟨a, ha, -⟩ := h
  rw [ha]
  rfl

theorem letsGo_foldl_release {x : Exchange} {queues : List QueueId} {q : QueueId}
    (hsome : (x.mail.get? q).isSome = true) (hq : q ∈ queues ∨ x.LetsGo q) :
    (queues.foldl Exchange.release x).LetsGo q := by
  obtain ⟨a, ha⟩ := Option.isSome_iff_exists.mp hsome
  unfold LetsGo
  rw [get?_foldl_release, ha]
  refine ⟨_, rfl, ?_⟩
  split
  · rfl
  · rename_i hnot
    obtain ⟨b, hb, hs⟩ := hq.resolve_left hnot
    rw [← Option.some.inj (ha.symm.trans hb)] at hs
    exact hs

end Exchange

theorem exists_lookup {answers : List (Ticket × Answer)} {t : Ticket} {a : Answer}
    (ha : (t, a) ∈ answers) : ∃ a', answers.lookup t = some a' ∧ (t, a') ∈ answers := by
  cases hl : answers.lookup t with
  | none => exact absurd rfl (bne_iff_ne.mp (List.lookup_eq_none_iff.mp hl _ ha))
  | some a' =>
    obtain ⟨l₁, l₂, heq, -⟩ := List.lookup_eq_some_iff.mp hl
    exact ⟨a', rfl, heq ▸ List.mem_append_right _ List.mem_cons_self⟩

theorem mem_refusals? {waiting : List (Ticket × Request)} {t : Ticket} {a : Answer} :
    (t, a) ∈ refusals? waiting ↔ ∃ r, (t, r) ∈ waiting ∧ r.unavailable? = some a := by
  unfold refusals?
  rw [List.mem_filterMap]
  constructor
  · rintro ⟨⟨t', r⟩, hmem, heq⟩
    obtain ⟨a', ha', heq⟩ := Option.map_eq_some_iff.mp heq
    obtain ⟨rfl, rfl⟩ := Prod.mk.inj heq
    exact ⟨r, hmem, ha'⟩
  · rintro ⟨r, hmem, ha⟩
    exact ⟨(t, r), hmem, by rw [ha]; rfl⟩

theorem eq_of_unavailable? {r : Request} {a : Answer} (h : r.unavailable? = some a) :
    a = .unavailable := by
  cases r <;> first | exact (Option.some.inj h).symm | cases h

namespace Traffic

variable {clock : Time.Timestamp} {h g : Hub} {past : List Occasion} {q : QueueId}

/-! ## While nothing is handled -/

/-- From `h` to `g` nothing is handled: what is issued waits behind the rest. -/
structure Waits (h : Hub) (past : List Occasion) (g : Hub) : Prop where
  running : g.running = true
  pending : g.pending = h.pending ++ issued past
  answers : g.answers = h.answers
  stats : g.exchange.stats = h.exchange.stats

theorem waits (ht : Traffic h past g) (hr : h.running = true)
    (hn : ∀ o ∈ past, ∀ missed, o.event ≠ .handle missed) : Waits h past g := by
  induction ht with
  | start => exact ⟨hr, (List.append_nil _).symm, rfl, rfl⟩
  | @next past u v e _ hm ih =>
    have ih := ih fun o ho => hn o (List.mem_append_left _ ho)
    have hne := hn ⟨u, e⟩ (List.mem_append_right _ (List.mem_singleton.mpr rfl))
    cases e with
    | issue r =>
      obtain rfl := Option.some.inj hm
      rw [Hub.issue_of_running ih.running]
      refine ⟨ih.running, ?_, ih.answers, ih.stats⟩
      rw [issued_snoc, ← List.append_assoc, ← ih.pending]
      rfl
    | handle missed => exact absurd rfl (hne missed)
    | tend f =>
      obtain rfl := Option.some.inj hm
      refine ⟨ih.running, ?_, ih.answers, ih.stats⟩
      rw [issued_snoc, issues?_of_ne (by simp)]
      exact ih.pending.trans (by simp)
    | setClock clock =>
      obtain rfl := Option.some.inj hm
      refine ⟨ih.running, ?_, ih.answers, ih.stats⟩
      rw [issued_snoc, issues?_of_ne (by simp)]
      exact ih.pending.trans (by simp)

theorem handled_eq_nil (hn : ∀ o ∈ past, ∀ missed, o.event ≠ .handle missed) :
    handled past = [] := by
  refine List.filterMap_eq_nil_iff.mpr fun o ho => ?_
  exact handles?_of_ne (h := o.hub) (hn o ho)

/-! ## When the hub has stopped -/

/-- A hub `h` that has stopped becomes `g`: what is issued is refused. -/
structure Refuses (h : Hub) (past : List Occasion) (g : Hub) : Prop where
  running : g.running = false
  pending : g.pending = []
  registry : g.exchange.registry = h.exchange.registry
  stats : g.exchange.stats = h.exchange.stats
  answers : g.answers = (refusals? (issued past)).reverse ++ h.answers
  unhandled : ∀ o ∈ past, ∀ missed, o.event ≠ .handle missed
  nextTicket : h.nextTicket ≤ g.nextTicket
  tickets : ∀ p ∈ issued past, h.nextTicket ≤ p.1

/-- What happens at the queues, or to the clock. -/
theorem Refuses.outside {u : Hub} {e : Occurrence} (hu : Refuses h past u)
    (hi : ∀ r, e ≠ .issue r) (hd : ∀ missed, e ≠ .handle missed) {f : Exchange → Exchange}
    (hregistry : (f u.exchange).registry = u.exchange.registry)
    (hstats : (f u.exchange).stats = u.exchange.stats) :
    Refuses h (past ++ [⟨u, e⟩]) (u.update f) := by
  have hissued : issued (past ++ [⟨u, e⟩]) = issued past := by
    rw [issued_snoc, issues?_of_ne hi]
    exact List.append_nil _
  refine ⟨hu.running, hu.pending, hregistry.trans hu.registry, hstats.trans hu.stats, ?_, ?_,
    hu.nextTicket, ?_⟩
  · rw [hissued]
    exact hu.answers
  · exact List.forall_mem_append.mpr ⟨hu.unhandled, List.forall_mem_singleton.mpr hd⟩
  · rw [hissued]
    exact hu.tickets

/-- One more request is refused. -/
theorem Refuses.issue {u : Hub} (hu : Refuses h past u) (r : Request) :
    Refuses h (past ++ [⟨u, .issue r⟩]) (u.issue r).2 := by
  have hissued : issued (past ++ [⟨u, .issue r⟩]) = issued past ++ [(u.nextTicket, r)] :=
    issued_snoc past _
  have hrefusal : refusals? [(u.nextTicket, r)] =
      (r.unavailable?.map fun a => (u.nextTicket, a)).toList := by
    cases r <;> rfl
  obtain ⟨hregistry, hstats⟩ := Exchange.foldl_release u.exchange r.queue?.toList
  rw [Hub.issue_of_stopped hu.running]
  refine ⟨?_, ?_, ?_, ?_, ?_, ?_, ?_, ?_⟩
  · rw [Hub.running_abandon]
    exact hu.running
  · rw [Hub.pending_abandon]
    exact hu.pending
  · rw [Hub.exchange_abandon]
    exact hregistry.trans hu.registry
  · rw [Hub.exchange_abandon]
    exact hstats.trans hu.stats
  · rw [Hub.answers_abandon, hissued, refusals?_append, hrefusal, List.reverse_append,
      List.append_assoc, ← hu.answers]
    cases r.unavailable? <;> rfl
  · exact List.forall_mem_append.mpr ⟨hu.unhandled, List.forall_mem_singleton.mpr nofun⟩
  · rw [(Hub.keeps_abandon _ _ r).nextTicket]
    exact Nat.le_succ_of_le hu.nextTicket
  · rw [hissued]
    exact List.forall_mem_append.mpr ⟨hu.tickets, List.forall_mem_singleton.mpr hu.nextTicket⟩

theorem refuses (ht : Traffic h past g) (hr : h.running = false) (hp : h.pending = []) :
    Refuses h past g := by
  induction ht with
  | start =>
    exact ⟨hr, hp, rfl, rfl, rfl, List.forall_mem_nil _, Nat.le_refl _, List.forall_mem_nil _⟩
  | @next past u v e _ hm ih =>
    cases e with
    | issue r =>
      obtain rfl := Option.some.inj hm
      exact ih.issue r
    | handle missed =>
      -- nothing waits that could be handled
      have hs : u.step? missed = some v := hm
      rw [Hub.step?_of_pending ih.pending] at hs
      cases hs
    | tend f =>
      obtain rfl := Option.some.inj hm
      exact ih.outside (e := .tend f) (fun _ h => nomatch h) (fun _ h => nomatch h) rfl rfl
    | setClock clock =>
      obtain rfl := Option.some.inj hm
      exact ih.outside (e := .setClock clock) (fun _ h => nomatch h) (fun _ h => nomatch h) rfl rfl

/-- A hub that has stopped gets no sending end back, and lets go of those that it would get. -/
theorem Proper.letsGo (hp : Proper past) (ht : Traffic h past g) (hr : h.running = false)
    (hempty : h.pending = []) (hq : h.exchange.LetsGo q ∨ q ∈ brought (issued past)) :
    g.exchange.LetsGo q := by
  induction ht with
  | start => exact hq.resolve_right nofun
  | @next past u v e ht hm ih =>
    have hu := ht.refuses hr hempty
    rw [issued_snoc, brought_append, List.mem_append, ← or_assoc] at hq
    cases e with
    | issue r =>
      have hx : v.exchange = r.queue?.toList.foldl Exchange.release u.exchange := by
        obtain rfl := Option.some.inj hm
        rw [Hub.issue_of_stopped hu.running, Hub.exchange_abandon]
      rw [hx]
      rcases hq with hq | hq
      · have hgone := ih hp.init hq
        exact Exchange.letsGo_foldl_release hgone.isSome (Or.inr hgone)
      · obtain ⟨p, hmem, hqueue⟩ := mem_brought.mp hq
        obtain rfl := List.mem_singleton.mp hmem
        refine Exchange.letsGo_foldl_release (hp.last.2 r q rfl hqueue) (Or.inl ?_)
        rw [show r.queue? = some q from hqueue]
        exact List.mem_singleton.mpr rfl
    | handle missed =>
      have hs : u.step? missed = some v := hm
      rw [Hub.step?_of_pending hu.pending] at hs
      cases hs
    | tend f =>
      have hd := hp.last.1 f rfl
      obtain rfl := Option.some.inj hm
      exact (ih hp.init (hq.resolve_right nofun)).drains hd
    | setClock clock =>
      obtain rfl := Option.some.inj hm
      exact ih hp.init (hq.resolve_right nofun)

/-! ## The answers of a hub that runs -/

/-- Whoever waits for the answer to a request that was handled has got one, and nobody is told that
the hub is not there. -/
theorem answered_running (ht : Traffic (.start clock) past h) (hr : h.running = true) :
    (∀ p ∈ handled past, p.2.unavailable?.isSome = true → ∃ a, (p.1, a) ∈ h.answers) ∧
      ∀ p ∈ h.answers, p.2 ≠ .unavailable := by
  induction ht with
  | start => exact ⟨List.forall_mem_nil _, List.forall_mem_nil _⟩
  | @next past u v e ht hm ih =>
    obtain ⟨hrun, -⟩ := effect_of_meet? hm hr
    obtain ⟨hall, hnone⟩ := ih hrun
    rw [handled_snoc]
    cases e with
    | issue r =>
      obtain rfl := Option.some.inj hm
      rw [Hub.issue_of_running hrun]
      exact ⟨fun p hp => hall p (by simpa [Occasion.handles?] using hp), hnone⟩
    | handle missed =>
      obtain ⟨t, r, hn, rfl⟩ := Hub.step?_eq_some hm
      have hanswers {p : Ticket × Answer} :=
        (u.take t).mem_answers_handle (t := t) (p := p) (Hub.ne_shutdown_of_running hr)
      have hhandles : Occasion.handles? ⟨u, .handle missed⟩ = some (t, r) := hn
      rw [hhandles]
      refine ⟨fun p hp hwaits => ?_, fun p hp => ?_⟩
      · rcases List.mem_append.mp hp with hp | hp
        · obtain ⟨a, ha⟩ := hall p hp hwaits
          exact ⟨a, hanswers.mpr (Or.inr ha)⟩
        · obtain rfl := List.mem_singleton.mp hp
          rw [← Exchange.answerTo?_isSome u.exchange] at hwaits
          obtain ⟨a, ha⟩ := Option.isSome_iff_exists.mp hwaits
          exact ⟨a, hanswers.mpr (Or.inl ⟨rfl, ha⟩)⟩
      · rcases hanswers.mp hp with ⟨-, ha⟩ | hp
        · exact fun hbad => Exchange.answerTo?_ne _ r (ha.trans (congrArg some hbad))
        · exact hnone p hp
    | tend f =>
      obtain rfl := Option.some.inj hm
      exact ⟨fun p hp => hall p (by simpa [Occasion.handles?] using hp), hnone⟩
    | setClock clock =>
      obtain rfl := Option.some.inj hm
      exact ⟨fun p hp => hall p (by simpa [Occasion.handles?] using hp), hnone⟩

end Traffic

/-- Who waits for the answer to a request that is refused is told that the hub is not there. -/
theorem lookup_refusals? {ps : List (Ticket × Request)} {t : Ticket} {r : Request}
    (hp : (t, r) ∈ ps) (hr : r.unavailable?.isSome = true) :
    (refusals? ps).reverse.lookup t = some .unavailable := by
  obtain ⟨a, ha⟩ := Option.isSome_iff_exists.mp hr
  obtain ⟨a', hl, hmem⟩ :=
    exists_lookup (List.mem_reverse.mpr (mem_refusals?.mpr ⟨r, hp, ha⟩))
  obtain ⟨r', -, ha'⟩ := mem_refusals?.mp (List.mem_reverse.mp hmem)
  rw [hl, eq_of_unavailable? ha']

theorem lookup_refusals?_eq_none {ps : List (Ticket × Request)} {t : Ticket}
    (ht : ∀ p ∈ ps, p.1 ≠ t) : (refusals? ps).reverse.lookup t = none := by
  refine List.lookup_eq_none_iff.mpr fun p hp => bne_iff_ne.mpr fun heq => ?_
  obtain ⟨r, hr, -⟩ := mem_refusals?.mp (List.mem_reverse.mp hp)
  exact ht _ hr heq.symm

/-! ## The end of a hub -/

/--
The end of a hub. After `before` the request that it finds next is one to shut down, by a look that
may have missed what came into the lanes meanwhile. While the loop ends, `between` is still issued
or happens to the queues; `after` happens to the hub that has stopped.
-/
structure Ending (clock : Time.Timestamp) where
  before : List Occasion
  between : List Occasion
  after : List Occasion
  /-- The lanes in which the look of the hub has missed what waits. -/
  missed : List Lane
  ticket : Ticket
  /-- The hub that takes up the request, -/
  closing : Hub
  /-- as its loop ends, -/
  closed : Hub
  /-- and later on. -/
  last : Hub
  runs : Traffic (.start clock) before closing
  next : closing.next? missed = some (ticket, .shutdown)
  ends : Traffic closing between closed
  unhandled : ∀ o ∈ between, ∀ missed, o.event ≠ .handle missed
  goesOn : Traffic ((closed.take ticket).handle ticket .shutdown) after last
  proper : Proper (before ++ between ++ after)

namespace Ending

variable {clock : Time.Timestamp}

/-- Everything that happens. -/
def all (s : Ending clock) : List Occasion := s.before ++ s.between ++ s.after

/-- What waits for the hub as its loop ends, and what is issued later. -/
def refused (s : Ending clock) : List (Ticket × Request) :=
  (s.closed.take s.ticket).pending ++ issued s.after

/-- A hub that is shut down leaves nothing open. -/
structure IsComplete (s : Ending clock) : Prop where
  /-- No request is handled any more, -/
  unhandled : handled s.after = []
  /-- nobody is in the registry, -/
  registry : s.last.exchange.registry = []
  /-- and no counter changes. -/
  stats : s.last.exchange.stats = s.closing.exchange.stats
  /-- Whatever was issued in the other lanes before has been handled, unless the look that found
  the request has missed its lane, -/
  handled : ∀ p ∈ issued s.before, p.2.lane ≠ .control → p.2.lane ∉ s.missed →
    p ∈ Traffic.handled s.before
  /-- and the exchange is what all that was handled has made of it. -/
  effect : s.closing.exchange = replay clock s.before
  /-- All that is ever issued is handled or refused, and never both. -/
  refused : ∀ p ∈ issued s.all, p ∈ s.refused ↔ p ∉ Traffic.handled s.before ∧ p.1 ≠ s.ticket
  /-- Who waited for the answer to what was handled has got one, which stands; -/
  answered : ∀ p ∈ Traffic.handled s.before, p.2.unavailable?.isSome = true →
    ∃ a, s.closing.answer? p.1 = some a ∧ s.last.answer? p.1 = some a ∧ a ≠ .unavailable
  /-- who asked for something that is refused gets an error, -/
  calls : ∀ p ∈ s.refused, p.2.isCall = true →
    (s.last.answer? p.1).map Answer.checked = some (.error hubUnavailable)
  /-- and for those who ask who is online nobody is. -/
  isOnline : ∀ t user, (t, .isOnline user) ∈ s.refused →
    (s.last.answer? t).map Answer.isOnline = some false
  onlineCount : ∀ t, (t, .onlineCount) ∈ s.refused →
    (s.last.answer? t).map Answer.onlineCount = some 0
  /-- A queue that was ever handed over has no sending end. Its receiver gets what had been put in
  before and has not been taken out, and is told then that the queue has ended. -/
  queues : ∀ q ∈ brought (issued s.all), ∃ a, s.last.exchange.mail.get? q = some a ∧
    a.hasSender = false ∧ taken q s.all ++ (a.takeUpTo none).1 = put q s.before ∧
    (a.takeUpTo none).2.pop? = none ∧ (a.takeUpTo none).2.isEnded = true

variable (s : Ending clock)

theorem running : s.closing.running = true := s.runs.filed.running_of_next? s.next

theorem waits : Waits s.closing s.between s.closed := s.ends.waits s.running s.unhandled

/-- The hub as it is until its loop ends. -/
theorem untilClosed : Traffic (.start clock) (s.before ++ s.between) s.closed :=
  s.runs.trans s.ends

theorem refuses : Refuses (s.closed.take s.ticket).stop s.after s.last :=
  s.goesOn.refuses (s.closed.take s.ticket).running_stop (s.closed.take s.ticket).pending_stop

theorem handled_untilClosed :
    Traffic.handled (s.before ++ s.between) = Traffic.handled s.before := by
  rw [handled_append, handled_eq_nil s.unhandled, List.append_nil]

theorem mem_closed : (s.ticket, .shutdown) ∈ s.closed.pending := by
  rw [s.waits.pending]
  exact List.mem_append_left _ (Hub.mem_pending_of_next? s.next)

/-- What is issued later has a later ticket. -/
theorem lt_of_later {p p' : Ticket × Request} (hp : p ∈ issued (s.before ++ s.between))
    (hp' : p' ∈ issued s.after) : p.1 < p'.1 := by
  have hkeeps := (s.closed.take s.ticket).keeps_stop.nextTicket
  exact Nat.lt_of_lt_of_le (s.untilClosed.filed.lt_nextTicket hp)
    (hkeeps ▸ s.refuses.tickets p' hp')

theorem ne_of_refused {p p' : Ticket × Request} (hp : p ∈ Traffic.handled s.before)
    (hp' : p' ∈ s.refused) : p.1 ≠ p'.1 := by
  rw [← s.handled_untilClosed] at hp
  rcases List.mem_append.mp hp' with hp' | hp'
  · exact s.untilClosed.ne_of_pending s.waits.running hp (List.mem_filter.mp hp').1
  · exact Nat.ne_of_lt (s.lt_of_later (s.untilClosed.filed.issued_of_handled hp) hp')

theorem refused_iff {p : Ticket × Request} (hp : p ∈ issued s.all) :
    p ∈ s.refused ↔ p ∉ Traffic.handled s.before ∧ p.1 ≠ s.ticket := by
  have hfiled := s.untilClosed.filed
  constructor
  · intro hr
    refine ⟨fun hh => s.ne_of_refused hh hr rfl, ?_⟩
    rcases List.mem_append.mp hr with hr | hr
    · exact of_decide_eq_true (List.mem_filter.mp hr).2
    · exact Nat.ne_of_gt (s.lt_of_later (hfiled.pending.subset s.mem_closed) hr)
  · rintro ⟨hh, hne⟩
    unfold all at hp
    rw [issued_append] at hp
    rcases List.mem_append.mp hp with hp | hp
    · refine List.mem_append_left _ (List.mem_filter.mpr ⟨?_, decide_eq_true hne⟩)
      refine (hfiled.handled_or_pending s.waits.running hp).resolve_left ?_
      rw [s.handled_untilClosed]
      exact hh
    · exact List.mem_append_right _ hp

theorem answers : s.last.answers = (refusals? s.refused).reverse ++ s.closing.answers := by
  have hstop : (s.closed.take s.ticket).stop.answers =
      (refusals? (s.closed.take s.ticket).pending).reverse ++ s.closing.answers := by
    rw [Hub.answers_stop, ← s.waits.answers]
    rfl
  rw [s.refuses.answers, hstop, refused, refusals?_append, List.reverse_append, List.append_assoc]

theorem answer?_refused {p : Ticket × Request} (hp : p ∈ s.refused)
    (hr : p.2.unavailable?.isSome = true) : s.last.answer? p.1 = some .unavailable := by
  unfold Hub.answer?
  rw [s.answers, List.lookup_append, lookup_refusals? hp hr]
  rfl

theorem answer?_handled {p : Ticket × Request} (hp : p ∈ Traffic.handled s.before) :
    s.last.answer? p.1 = s.closing.answer? p.1 := by
  unfold Hub.answer?
  rw [s.answers, List.lookup_append,
    lookup_refusals?_eq_none fun p' hp' => (s.ne_of_refused hp hp').symm, Option.none_or]

/-- Every queue that was ever handed over has been let go of in the end. -/
theorem letsGo {q : QueueId} (hq : q ∈ brought (issued s.all)) : s.last.exchange.LetsGo q := by
  have hproper : Proper (s.before ++ s.between) :=
    fun o ho => s.proper o (List.mem_append_left _ ho)
  have hlater : Proper s.after := fun o ho => s.proper o (List.mem_append_right _ ho)
  refine hlater.letsGo s.goesOn (s.closed.take s.ticket).running_stop
    (s.closed.take s.ticket).pending_stop ?_
  unfold all at hq
  rw [issued_append, brought_append] at hq
  rcases List.mem_append.mp hq with hq | hq
  · have hminds := hproper.held s.untilClosed s.waits.running hq
    refine Or.inl (Hub.letsGo_stop hminds.there (hminds.place.imp ?_ id))
    intro hwaits
    obtain ⟨p, hp, hqueue⟩ := mem_brought.mp hwaits
    refine mem_brought.mpr ⟨p, List.mem_filter.mpr ⟨hp, decide_eq_true fun heq => ?_⟩, hqueue⟩
    -- a request to shut down brings no queue
    have hfiled := s.untilClosed.filed
    have hp' : (s.ticket, p.2) ∈ issued (s.before ++ s.between) :=
      heq ▸ hfiled.pending.subset hp
    rw [s.untilClosed.request_unique hp' (hfiled.pending.subset s.mem_closed)] at hqueue
    cases hqueue
  · exact Or.inr hq

/-- What was put on a queue was put there before. -/
theorem passed (q : QueueId) :
    taken q s.all ++ s.last.exchange.framesOf q = put q s.before := by
  have hproper : Proper (s.before ++ s.between) :=
    fun o ho => s.proper o (List.mem_append_left _ ho)
  have hlater : Proper s.after := fun o ho => s.proper o (List.mem_append_right _ ho)
  have hbefore := hproper.passed s.untilClosed q
  have hafter := hlater.passed s.goesOn q
  have hstop : ((s.closed.take s.ticket).handle s.ticket .shutdown).exchange.framesOf q =
      s.closed.exchange.framesOf q := Hub.framesOf_stop _ q
  rw [put_append, put_eq_nil q s.unhandled, List.append_nil] at hbefore
  rw [put_eq_nil q s.refuses.unhandled, List.append_nil, hstop] at hafter
  unfold all
  rw [taken_append, List.append_assoc, ← hafter, ← hbefore]
  rfl

end Ending

/--
**Shutting down is complete.** Whatever the hub has been asked and whatever waits when it comes to
the request to shut down: it handles nothing more and counts nothing more; what was issued before in
the lanes that come first has been handled, also if it was issued after that request, but for the
lanes that it had looked into too early; everything else is refused, and everyone who waits for an
answer gets one; and no queue is left open.
-/
theorem shutdown_complete {clock : Time.Timestamp} (s : Ending clock) : s.IsComplete where
  unhandled := handled_eq_nil s.refuses.unhandled
  registry := s.refuses.registry.trans (Hub.registry_stop _)
  stats := by
    rw [s.refuses.stats, Hub.stats_stop]
    exact s.waits.stats
  handled p hp hne hin := s.runs.handled_before_control s.next rfl hp hne hin
  effect := s.runs.exchange_eq s.running
  refused p hp := s.refused_iff hp
  answered := by
    intro p hp hwaits
    obtain ⟨hall, hnone⟩ := s.runs.answered_running s.running
    obtain ⟨a, ha⟩ := hall p hp hwaits
    obtain ⟨a, hl, hmem⟩ := exists_lookup ha
    exact ⟨a, hl, (s.answer?_handled hp).trans hl, hnone _ hmem⟩
  calls := by
    intro p hp hcall
    have hwaits : p.2.unavailable?.isSome = true := by
      cases hr : p.2 <;> rw [hr] at hcall <;> first | rfl | cases hcall
    rw [s.answer?_refused hp hwaits]
    rfl
  isOnline := by
    intro t user hp
    rw [s.answer?_refused hp rfl]
    rfl
  onlineCount := by
    intro t hp
    rw [s.answer?_refused hp rfl]
    rfl
  queues := by
    intro q hq
    obtain ⟨a, ha, hs⟩ := s.letsGo hq
    have hframes : s.last.exchange.framesOf q = a.frames := by
      unfold Exchange.framesOf
      rw [ha]
      rfl
    have hall : (a.takeUpTo none).1 = a.frames := List.take_length
    have hrest : (a.takeUpTo none).2.frames = [] := List.drop_length
    refine ⟨a, ha, hs, ?_, ?_, ?_⟩
    · rw [hall, ← hframes]
      exact s.passed q
    · unfold Queue.pop?
      rw [hrest]
    · unfold Queue.isEnded Queue.takeUpTo
      rw [hs]
      rfl

/-! ## Nightfall -/

namespace Nightfall

def clock : Time.Timestamp := ⟨⟨2024, 1, 1⟩, 0, 0, 0, 0⟩

def note : Envelope := .wrap clock (.event (.postDeleted "1"))

def ann : Registration := ⟨0, ⟨"ann", "Ann", false⟩, 0⟩

def bob : Registration := ⟨1, ⟨"bob", "Bob", false⟩, 1⟩

def carl : Registration := ⟨2, ⟨"carl", "Carl", false⟩, 2⟩

def create (m : Mail) : Mail := (m.create 4).2

def takeOne (m : Mail) : Mail := m.modify 0 fun a => (a.takeUpTo (some 1)).2

def tend (h : Hub) (f : Mail → Mail) : Hub := h.update fun x => { x with mail := f x.mail }

/-- There are queues for three. -/
def first : Hub := tend (.start clock) create

def second : Hub := tend first create

def opening : Hub := tend second create

/-- Ann registers, -/
def coming : Hub := (opening.issue (.register ann)).2

def settled : Hub := (coming.take 0).handle 0 (.register ann)

/-- a note is sent to her, -/
def sending : Hub := (settled.issue (.dispatch (.user "ann") note)).2

/-- the hub is asked to shut down, -/
def asked : Hub := (sending.issue .shutdown).2

/-- and Bob registers. -/
def joining : Hub := (asked.issue (.register bob)).2

/-- Both are handled -/
def joined : Hub := (joining.take 3).handle 3 (.register bob)

def told : Hub := (joined.take 1).handle 1 (.dispatch (.user "ann") note)

/-- before the hub comes to shut down. -/
def closing : Hub := (told.issue (.isOnline "ann")).2

/-- Carl is late, -/
def closed : Hub := (closing.issue (.register carl)).2

def stopped : Hub := (closed.take 2).handle 2 .shutdown

/-- and Bob is later still. -/
def later : Hub := (stopped.issue (.subscribe "bob" 1 [.posts])).2

def ending : Ending clock where
  before :=
    [⟨.start clock, .tend create⟩, ⟨first, .tend create⟩, ⟨second, .tend create⟩,
      ⟨opening, .issue (.register ann)⟩, ⟨coming, .handle []⟩,
      ⟨settled, .issue (.dispatch (.user "ann") note)⟩, ⟨sending, .issue .shutdown⟩,
      ⟨asked, .issue (.register bob)⟩, ⟨joining, .handle []⟩, ⟨joined, .handle []⟩,
      ⟨told, .issue (.isOnline "ann")⟩]
  between := [⟨closing, .issue (.register carl)⟩]
  after := [⟨stopped, .issue (.subscribe "bob" 1 [.posts])⟩, ⟨later, .tend takeOne⟩]
  missed := []
  ticket := 2
  closing := closing
  closed := closed
  last := tend later takeOne
  runs := .cons rfl (.cons rfl (.cons rfl (.cons rfl (.cons rfl (.cons rfl (.cons rfl (.cons rfl
    (.cons rfl (.cons rfl (.cons rfl .start))))))))))
  next := rfl
  ends := .cons rfl .start
  unhandled := by simp
  goesOn := .cons rfl (.cons rfl .start)
  proper := by
    have hmade : ∀ m : Mail, m.Drains (create m) := fun m => m.drains_create 4
    have htaken : ∀ m : Mail, m.Drains (takeOne m) := fun m =>
      m.drains_modify 0 (fun a _ => List.drop_suffix 1 a.frames) fun _ _ h => h
    intro o ho
    simp only [List.cons_append, List.nil_append, List.mem_cons, List.not_mem_nil, or_false] at ho
    rcases ho with rfl | rfl | rfl | rfl | rfl | rfl | rfl | rfl | rfl | rfl | rfl | rfl | rfl | rfl
    · exact Occasion.isProper_tend (hmade _)
    · exact Occasion.isProper_tend (hmade _)
    · exact Occasion.isProper_tend (hmade _)
    · refine Occasion.isProper_issue fun q hq => ?_
      rw [← Option.some.inj hq]
      rfl
    · exact Occasion.isProper_handle _ _
    · exact Occasion.isProper_issue nofun
    · exact Occasion.isProper_issue nofun
    · refine Occasion.isProper_issue fun q hq => ?_
      rw [← Option.some.inj hq]
      decide +kernel
    · exact Occasion.isProper_handle _ _
    · exact Occasion.isProper_handle _ _
    · exact Occasion.isProper_issue nofun
    · refine Occasion.isProper_issue fun q hq => ?_
      rw [← Option.some.inj hq]
      decide +kernel
    · exact Occasion.isProper_issue nofun
    · exact Occasion.isProper_tend (htaken _)

theorem handled_eq : handled ending.before =
    [(0, .register ann), (3, .register bob), (1, .dispatch (.user "ann") note)] := rfl

theorem refused_eq : ending.refused =
    [(4, .isOnline "ann"), (5, .register carl), (6, .subscribe "bob" 1 [.posts])] := rfl

theorem brought_eq : brought (issued ending.all) = [0, 1, 2] := rfl

end Nightfall

/-- Bob registers when the hub has been asked to shut down already and is let in; Carl, who comes as
the loop ends, is not. Ann has taken one of the two frames that were put on her queue and gets the
other one. -/
theorem shutdown_complete_nightfall :
    Nightfall.ending.IsComplete ∧
      (3, .register Nightfall.bob) ∈ handled Nightfall.ending.before ∧
      (Nightfall.ending.last.answer? 5).map Answer.checked = some (.error hubUnavailable) ∧
      Nightfall.ending.last.exchange.LetsGo 0 ∧
      (put 0 Nightfall.ending.before).map (·.message.eventType) = ["user_online", "post_deleted"] ∧
      (Nightfall.ending.last.exchange.framesOf 0).map (·.message.eventType) = ["post_deleted"] := by
  have hc := shutdown_complete Nightfall.ending
  refine ⟨hc, ?_, hc.calls (5, .register Nightfall.carl) ?_ rfl, ?_, ?_, ?_⟩
  · rw [Nightfall.handled_eq]
    simp
  · rw [Nightfall.refused_eq]
    simp
  · obtain ⟨a, ha, hs, -⟩ := hc.queues 0 (by rw [Nightfall.brought_eq]; simp)
    exact ⟨a, ha, hs⟩
  · decide +kernel
  · decide +kernel

/-! ## Dusk -/

namespace Dusk

open Nightfall (clock ann create first)

def asked : Hub := (first.issue .shutdown).2

/-- Ann registers when the hub, looking for a request, has passed the lane of registrations. -/
def joining : Hub := (asked.issue (.register ann)).2

def stopped : Hub := (joining.take 0).handle 0 .shutdown

def ending : Ending clock where
  before :=
    [⟨.start clock, .tend create⟩, ⟨first, .issue .shutdown⟩, ⟨asked, .issue (.register ann)⟩]
  between := []
  after := []
  missed := [.registration]
  ticket := 0
  closing := joining
  closed := joining
  last := stopped
  runs := .cons rfl (.cons rfl (.cons rfl .start))
  next := rfl
  ends := .start
  unhandled := List.forall_mem_nil _
  goesOn := .start
  proper := by
    intro o ho
    simp only [List.append_nil, List.mem_cons, List.not_mem_nil, or_false] at ho
    rcases ho with rfl | rfl | rfl
    · exact Occasion.isProper_tend (Mail.drains_create _ 4)
    · exact Occasion.isProper_issue nofun
    · refine Occasion.isProper_issue fun q hq => ?_
      rw [← Option.some.inj hq]
      rfl

end Dusk

/-- Ann's registration waits when the request to shut down is taken, and yet has no effect: the look
of the hub had passed its lane already. -/
theorem registration_refused :
    Dusk.ending.closing.pending = [(0, .shutdown), (1, .register Nightfall.ann)] ∧
      handled Dusk.ending.before = [] ∧
      (Dusk.ending.last.answer? 1).map Answer.checked = some (.error hubUnavailable) ∧
      ¬ ∀ p ∈ Dusk.ending.closing.pending, p.2.lane ≠ .control →
        p ∈ handled Dusk.ending.before := by
  refine ⟨rfl, rfl, by decide +kernel, fun hall => ?_⟩
  have hin : (1, .register Nightfall.ann) ∈ handled Dusk.ending.before :=
    hall (1, .register Nightfall.ann) (List.mem_cons_of_mem _ List.mem_cons_self)
      (by simp [Request.lane])
  exact List.not_mem_nil hin

end Switchboard
