import Switchboard.Proofs.Accounts

/-!
# Departure

What is left of a connection once it has stopped serving. Its registration may still be on its way
then, handled or not, and so is its unregistration. They wait in different lanes, and the hub looks
into the lane of registrations first; so when it comes to the unregistration no registration of the
connection waits any more, unless it came in when its lane had been looked into
(`Moment.SeesArrival`), and none can be issued. Until then the unregistration is before everything
that is issued later, registrations excepted. That is the invariant (`Parted`): either the
connection is gone for good, or its unregistration waits with an early enough ticket.
-/

namespace Switchboard

open Exchange

/-- A request waits for the hub, whose look misses it. -/
def Moment.Overlooks (m : Moment) (p : Ticket × Request) : Prop :=
  ∃ missed, m.move = .act (.hub missed) ∧ p ∈ m.hub.pending ∧ p.2.lane ∈ missed

/-- If the hub unregisters a connection, its look has not missed that it is to be registered. -/
def Moment.SeesArrival (m : Moment) (k : ConnectionId) : Prop :=
  ∀ t user, m.handles? = some (t, .unregister user k) →
    ∀ p, p.2.registrant? = some k → ¬ m.Overlooks p

/-- A look that misses nothing overlooks nothing. -/
theorem Moment.not_overlooks {m : Moment}
    (h : ∀ missed, m.move = .act (.hub missed) → missed = []) (p : Ticket × Request) :
    ¬ m.Overlooks p := by
  rintro ⟨missed, hm, -, hmissed⟩
  rw [h missed hm] at hmissed
  cases hmissed

theorem Moment.move_of_handles? {m : Moment} {p : Ticket × Request} (h : m.handles? = some p) :
    ∃ missed, m.move = .act (.hub missed) ∧ m.hub.next? missed = some p := by
  unfold Moment.handles? at h
  split at h
  · exact ⟨_, by assumption, h⟩
  · cases h

/-- A connection is not in the registry, and nothing that waits would bring it there. -/
structure World.Gone (w : World) (k : ConnectionId) : Prop where
  registry : ∀ e ∈ w.site.hub.exchange.registry, e.connection ≠ k
  pending : ∀ p ∈ w.site.hub.pending, p.2.registrant? ≠ some k

/-- A connection has stopped serving, and it is gone or its unregistration has a ticket before the
one given. -/
structure Parted (limit : Ticket) (w : World) (k : ConnectionId) (s : Stand) : Prop where
  stand : w.stand? k = some s
  isServing : s.isServing = false
  told : w.Gone k ∨ ∃ t user, t < limit ∧ (t, .unregister user k) ∈ w.site.hub.pending ∧
    s.reader.registered = some user

section Steps

variable {past : List Moment} {m : Moment} {v : World} {k : ConnectionId} {s : Stand}

/-- A connection that does not serve stays as it is. -/
theorem Effect.after_of_not_serving (he : Effect m v) (hs : m.world.stand? k = some s)
    (hserv : s.isServing = false) : v.stand? k = some s := by
  obtain ⟨s', hs', hbec⟩ := he.after hs
  cases hbec with
  | same => exact hs'
  | turn _ h _ =>
    rw [hserv] at h
    cases h
  | part _ h _ =>
    rw [hserv] at h
    cases h

/-- A connection that does not serve does not register. -/
theorem Effect.not_registers (he : Effect m v)
    (hc : ∀ r, m.move = .undergo (.issue r) → r.registrant? = none)
    (hs : m.world.stand? k = some s) (hserv : s.isServing = false) {r : Request}
    (hr : m.request? = some r) : r.registrant? ≠ some k := by
  intro hk
  obtain ⟨reg, rfl, rfl⟩ := Request.registrant?_eq_some.mp hk
  obtain ⟨s₀, s', hreg⟩ := he.registers hc hr
  obtain rfl := Option.some.inj (hs.symm.trans hreg.before)
  have := hreg.isServing
  rw [hserv] at this
  cases this

namespace World.Gone

theorem of_empty (hr : v.site.hub.exchange.registry = []) (hp : v.site.hub.pending = []) :
    v.Gone k := by
  constructor
  · intro e he
    rw [hr] at he
    cases he
  · intro p hmem
    rw [hp] at hmem
    cases hmem

/-- Nobody comes back. -/
theorem step (hg : m.world.Gone k) (he : Effect m v)
    (hc : ∀ r, m.move = .undergo (.issue r) → r.registrant? = none)
    (hs : m.world.stand? k = some s) (hserv : s.isServing = false) : v.Gone k := by
  have hnew := fun r => he.not_registers hc hs hserv (r := r)
  cases he with
  | @handle _ t r hm hn hh heq =>
    refine ⟨fun e hmem => ?_, fun p hp => ?_⟩
    · rw [hh.exchange] at hmem
      rcases mem_handled hmem with ⟨reg, rfl, rfl⟩ | ⟨e₀, he₀, hreg, -⟩
      · intro hk
        refine hg.pending _ (Hub.mem_pending_of_next? hn) ?_
        exact congrArg some hk
      · have hcon : e₀.connection = e.connection := congrArg Registration.connection hreg
        rw [← hcon]
        exact hg.registry e₀ he₀
    · rw [hh.pending] at hp
      exact hg.pending p (List.mem_filter.mp hp).1
  | stop hm hn hk heq => exact of_empty hk.registry hk.pending
  | other hn hk hch =>
    refine ⟨fun e hmem => ?_, fun p hp => ?_⟩
    · rw [hk.registry, Hub.exchange_enter] at hmem
      exact hg.registry e hmem
    · rw [hk.pending] at hp
      rcases Hub.mem_pending_enter hp with hp | ⟨-, hr⟩
      · exact hg.pending p hp
      · exact hnew p.2 hr

end World.Gone

/-- A connection that knows of no registration has none. -/
theorem Accounted.gone (ha : Accounted past v) (hb : Booked past v.site.hub)
    (hs : v.stand? k = some s) (hr : s.reader.registered = none) : v.Gone k := by
  have key : ∀ reg, .register reg ∈ ledger past → reg.connection ≠ k := by
    intro reg hreg hk
    subst hk
    obtain ⟨s', hs', -, hu, -⟩ := ha.registered reg hreg
    obtain rfl := Option.some.inj (hs.symm.trans hs')
    rw [hr] at hu
    cases hu
  refine ⟨fun e he => key _ (ha.entries e he), fun p hp hk => ?_⟩
  obtain ⟨reg, hreg, hcon⟩ := Request.registrant?_eq_some.mp hk
  refine key reg ?_ hcon
  rw [← hreg]
  exact List.mem_of_getElem? (hb.pending p hp)

/-- When its unregistration is handled, a connection is gone, unless its registration has been
missed. -/
theorem Accounted.gone_of_unregister (ha : Accounted past m.world) {missed : List Lane}
    {t : Ticket} {user : String} (hm : m.move = .act (.hub missed))
    (hn : m.hub.next? missed = some (t, .unregister user k)) (hsees : m.SeesArrival k)
    (hh : m.hub.Handled t (.unregister user k) v.site.hub)
    (hs : m.world.stand? k = some s) (hu : s.reader.registered = some user) : v.Gone k := by
  constructor
  · intro e he hk
    rw [hh.exchange] at he
    obtain ⟨log, hlog⟩ := handling_handled m.hub.exchange (r := .unregister user k) rfl
    obtain ⟨hmem, hne⟩ := hlog.unregistered ha.users he
    refine hne ⟨?_, hk⟩
    subst hk
    obtain ⟨s', hs', -, hu', -⟩ := ha.registered _ (ha.entries e hmem)
    obtain rfl := Option.some.inj (hs.symm.trans hs')
    exact Option.some.inj (hu'.symm.trans hu)
  · -- registrations that are seen are handled first
    intro p hp hk
    rw [hh.pending] at hp
    have hp := (List.mem_filter.mp hp).1
    have hhandles : m.handles? = some (t, .unregister user k) := by
      unfold Moment.handles?
      rw [hm]
      exact hn
    have hseen : p.2.lane ∉ missed := fun hin => hsees t user hhandles p hk ⟨missed, hm, hp, hin⟩
    have hrank := Hub.next?_foremost hn hp hseen
    obtain ⟨reg, hreg, -⟩ := Request.registrant?_eq_some.mp hk
    rw [hreg] at hrank
    simp [Request.lane, Lane.rank] at hrank

namespace Parted

variable {limit : Ticket}

theorem step (h : Parted limit m.world k s) (ha : Accounted past m.world)
    (hb : Booked past m.hub) (he : Effect m v)
    (hc : ∀ r, m.move = .undergo (.issue r) → r.registrant? = none) (hsees : m.SeesArrival k) :
    Parted limit v k s := by
  refine ⟨he.after_of_not_serving h.stand h.isServing, h.isServing, ?_⟩
  rcases h.told with hg | ⟨t, user, hlt, hmem, hu⟩
  · exact Or.inl (hg.step he hc h.stand h.isServing)
  · cases he with
    | @handle missed t' r hm hn hh heq =>
      by_cases ht : t' = t
      · -- requests with one ticket are one request
        have hr := hb.pending _ (Hub.mem_pending_of_next? hn)
        have hr' := hb.pending _ hmem
        dsimp only at hr hr'
        rw [ht, hr'] at hr
        obtain rfl := Option.some.inj hr
        exact Or.inl (ha.gone_of_unregister hm hn hsees hh h.stand hu)
      · refine Or.inr ⟨t, user, hlt, ?_, hu⟩
        rw [hh.pending]
        exact List.mem_filter.mpr ⟨hmem, decide_eq_true (Ne.symm ht)⟩
    | stop hm hn hk heq => exact Or.inl (World.Gone.of_empty hk.registry hk.pending)
    | other hn hk hch =>
      refine Or.inr ⟨t, user, hlt, ?_, hu⟩
      rw [hk.pending]
      exact Hub.mem_enter_of_mem hmem _

theorem mono (h : Parted limit v k s) {limit' : Ticket} (hle : limit ≤ limit') :
    Parted limit' v k s := by
  refine ⟨h.stand, h.isServing, ?_⟩
  rcases h.told with hg | ⟨t, user, hlt, hmem, hu⟩
  · exact Or.inl hg
  · exact Or.inr ⟨t, user, Nat.lt_of_lt_of_le hlt hle, hmem, hu⟩

/-- Nothing issued later is handled before the connection is gone, but registrations, unless a look
misses that it is to go. -/
theorem gone (h : Parted limit m.world k s) (hb : Booked past m.hub) {t : Ticket} {r : Request}
    (hh : m.handles? = some (t, r)) (hsees : ∀ t' user, ¬ m.Overlooks (t', .unregister user k))
    (hlimit : limit ≤ t) (hr : r.lane ≠ .registration) : m.world.Gone k := by
  rcases h.told with hg | ⟨t', user, hlt, hmem, -⟩
  · exact hg
  · -- the unregistration still waits and is seen, so nothing further back can be next
    exfalso
    obtain ⟨missed, hm, hn⟩ := Moment.move_of_handles? hh
    have hrank : r.lane.rank ≤ 1 :=
      Hub.next?_foremost hn hmem fun hin => hsees t' user ⟨missed, hm, hmem, hin⟩
    have hlane : r.lane = .unregistration := by
      cases hl : r.lane with
      | registration => exact absurd hl hr
      | unregistration => rfl
      | delivery =>
        rw [hl] at hrank
        exact absurd hrank (by decide)
      | control =>
        rw [hl] at hrank
        exact absurd hrank (by decide)
    have hle : t ≤ t' := Hub.next?_first hn hb.sorted hmem hlane.symm
    exact Nat.lt_irrefl t' (Nat.lt_of_lt_of_le hlt (Nat.le_trans hlimit hle))

end Parted

/-- A connection that stops serving unregisters if it has registered. -/
theorem Parted.of_part (ha : Accounted past v) (hb : Booked past v.site.hub) (he : Effect m v)
    {half : Connection.Half} (hm : m.move = .act (.client k half))
    (hr : m.request? = s.reader.registered.map fun user => .unregister user k)
    (hs : v.stand? k = some s) (hserv : s.isServing = false) :
    Parted v.site.hub.nextTicket v k s := by
  refine ⟨hs, hserv, ?_⟩
  cases hu : s.reader.registered with
  | none => exact Or.inl (ha.gone hb hs hu)
  | some user =>
    have hk := (he.of_ne_hub (by simp [hm])).1
    rw [hr, hu] at hk
    cases hrun : v.site.hub.running with
    | false =>
      -- a hub that has stopped takes no requests, but it has nobody either
      obtain ⟨hreg, hpend⟩ := hb.stopped hrun
      exact Or.inl (World.Gone.of_empty hreg hpend)
    | true =>
      have hrun' : m.hub.running = true := by
        rw [← hrun, hk.running, Hub.running_enter]
      refine Or.inr ⟨m.hub.nextTicket, user, ?_, ?_, rfl⟩
      · rw [hk.nextTicket]
        exact Nat.lt_succ_self _
      · rw [hk.pending]
        exact Hub.mem_enter_self hrun' _

/-- Whoever stops serving has unregistered. -/
theorem Parted.begins (ha : Accounted past m.world) (hb : Booked past m.hub) (he : Effect m v)
    (hc : ∀ r, m.move = .undergo (.issue r) → r.registrant? = none) (hsees : m.SeesArrival k)
    (hs : v.stand? k = some s) (hserv : s.isServing = false)
    (ih : ∀ s, m.world.stand? k = some s → s.isServing = false →
      Parted m.hub.nextTicket m.world k s) :
    Parted v.site.hub.nextTicket v k s := by
  have ha' := ha.step hb he hc
  have hb' := hb.step he
  have hle : m.hub.nextTicket ≤ v.site.hub.nextTicket := by
    rw [hb.count, hb'.count, ledger_snoc, List.length_append]
    exact Nat.le_add_right _ _
  rcases he.before hs with ⟨s₀, hs₀, hbec⟩ | ho
  · cases hbec with
    | same => exact ((ih s hs₀ hserv).step ha hb he hc hsees).mono hle
    | turn _ h _ =>
      have hserv : s₀.isServing = false := hserv
      rw [hserv] at h
      cases h
    | part hm _ hr => exact Parted.of_part ha' hb' he hm hr hs rfl
  · refine ⟨hs, hserv, Or.inl (ha'.gone hb' hs ?_)⟩
    rw [ho.reader]
    rfl

end Steps

/-! ## Over a course -/

/-- Requests that callers may make do not register anybody. -/
def RegistersNobody (callers : Request → Prop) : Prop :=
  ∀ r, callers r → r.registrant? = none

section Courses

variable {callers : Request → Prop} {past later : List Moment} {w v : World} {k : ConnectionId}
  {s : Stand}

/-- Whoever has stopped serving stays as it is and never registers. -/
theorem Course.idle (hc : RegistersNobody callers) (h : Course callers w later v)
    (ha : Accounted past w) (hb : Booked past w.site.hub) (hs : w.stand? k = some s)
    (hserv : s.isServing = false) :
    v.stand? k = some s ∧ ∀ m ∈ later, m.world.stand? k = some s ∧
      ∀ r, m.request? = some r → r.registrant? ≠ some k := by
  induction h with
  | start => exact ⟨hs, fun m hm => by simp at hm⟩
  | @move later u v mv hcourse hcall hmove ih =>
    obtain ⟨hu, hlater⟩ := ih
    have he := effect_of_move (Accounted.course hc hcourse ha hb).1.calm hmove
    have hc' : ∀ r, mv = .undergo (.issue r) → r.registrant? = none :=
      fun r hr => hc r (hcall r hr)
    refine ⟨he.after_of_not_serving hu hserv, fun m hm => ?_⟩
    rcases List.mem_append.mp hm with hm | hm
    · exact hlater m hm
    · obtain rfl := List.mem_singleton.mp hm
      exact ⟨hu, fun r hr => he.not_registers hc' hu hserv hr⟩

/-- Whoever is gone stays away. -/
theorem Course.gone (hc : RegistersNobody callers) (h : Course callers w later v)
    (ha : Accounted past w) (hb : Booked past w.site.hub) (hs : w.stand? k = some s)
    (hserv : s.isServing = false) (hg : w.Gone k) :
    v.Gone k ∧ ∀ m ∈ later, m.world.Gone k := by
  induction h with
  | start => exact ⟨hg, fun m hm => by simp at hm⟩
  | @move later u v mv hcourse hcall hmove ih =>
    obtain ⟨hu, hlater⟩ := ih
    have he := effect_of_move (Accounted.course hc hcourse ha hb).1.calm hmove
    have hstand := (hcourse.idle hc ha hb hs hserv).1
    refine ⟨hu.step he (fun r hr => hc r (hcall r hr)) hstand hserv, fun m hm => ?_⟩
    rcases List.mem_append.mp hm with hm | hm
    · exact hlater m hm
    · obtain rfl := List.mem_singleton.mp hm
      exact hu

theorem Parted.course (hc : RegistersNobody callers) (h : Course callers w later v)
    (ha : Accounted past w) (hb : Booked past w.site.hub)
    (hsees : ∀ m ∈ later, m.SeesArrival k) {limit : Ticket} (hp : Parted limit w k s) :
    Parted limit v k s := by
  induction h with
  | start => exact hp
  | @move later u v mv hcourse hcall hmove ih =>
    obtain ⟨ha', hb'⟩ := Accounted.course hc hcourse ha hb
    have he := effect_of_move ha'.calm hmove
    have ih := ih fun m hm => hsees m (List.mem_append_left _ hm)
    exact Parted.step (m := ⟨u, mv⟩) ih ha' hb' he (fun r hr => hc r (hcall r hr))
      (hsees _ (List.mem_append_right _ List.mem_cons_self))

variable {service : Service} {now : Instant} {clock : Time.Timestamp}

theorem Course.kept (hc : RegistersNobody callers)
    (h : Course callers (.start service now clock) past w) :
    Accounted past w ∧ Booked past w.site.hub := by
  obtain ⟨ha, hb⟩ := Accounted.start service now clock
  have := Accounted.course hc h ha hb
  rwa [List.nil_append] at this

/-- **Whoever does not serve has parted.** -/
theorem Course.parted (hc : RegistersNobody callers)
    (h : Course callers (.start service now clock) past w)
    (hsees : ∀ m ∈ past, m.SeesArrival k) (hs : w.stand? k = some s)
    (hserv : s.isServing = false) : Parted w.site.hub.nextTicket w k s := by
  induction h generalizing s with
  | start => cases hs
  | @move past u v mv hcourse hcall hmove ih =>
    obtain ⟨ha, hb⟩ := hcourse.kept hc
    have he := effect_of_move ha.calm hmove
    have hpast : ∀ m ∈ past, m.SeesArrival k := fun m hm => hsees m (List.mem_append_left _ hm)
    exact Parted.begins (m := ⟨u, mv⟩) ha hb he (fun r hr => hc r (hcall r hr))
      (hsees _ (List.mem_append_right _ List.mem_cons_self)) hs hserv
      fun s hs hserv => ih hpast hs hserv

end Courses

/-! ## Those who stay -/

/-- What an unregistration does to the others. -/
structure Spares (x : Exchange) (user : String) (k : ConnectionId) (y : Exchange) : Prop where
  /-- No entry changes, and none comes. -/
  unaltered : y.registry.Sublist x.registry
  /-- Another connection is put out only by an announcement that it cannot take. -/
  refused : ∃ log, Handling x (.unregister user k) log y ∧
    (∀ s ∈ log, ∃ x' gone time, s = .offline x' gone time) ∧
    ∀ e ∈ x.registry, e.connection ≠ k →
      e ∈ y.registry ∨ ∃ s ∈ log, s.before.refuses s.target e = true
  /-- If the user has another connection now, nothing happens. -/
  newer : ∀ e ∈ x.registry, e.userId = user → e.connection ≠ k → y = x

theorem Handling.spares {x y : Exchange} {user : String} {k : ConnectionId} {log : List Sending}
    (h : Handling x (.unregister user k) log y) (hx : x.UniqueUsers) : Spares x user k y := by
  cases h' : h with
  | stay hf =>
    refine ⟨List.Sublist.refl _, ⟨[], h, fun s hs => by simp at hs, fun e he _ => Or.inl he⟩, ?_⟩
    exact fun _ _ _ _ => rfl
  | @leave _ _ _ e₁ _ hf ha =>
    obtain ⟨hfind, hk⟩ := findConnection?_eq_some.mp hf
    have hu := userId_of_find? hfind
    refine ⟨ha.linked.sublist.trans List.filter_sublist, ⟨log, h, fun s hs => ha.kinds hs, ?_⟩, ?_⟩
    · intro e he hne
      refine ha.linked.mem (mem_depart.mpr ⟨he, fun heq => hne ?_⟩)
      rw [hx.eq_of_userId he (mem_of_find? hfind) heq, hk]
    · intro e he heq hne
      rw [hx.eq_of_userId he (mem_of_find? hfind) (heq.trans hu.symm)] at hne
      exact absurd hk hne

/-! ## Departing -/

/-- A connection is not heard of again once it has stopped serving, and the others are not touched
by that. -/
structure Departs (callers : Request → Prop) (past : List Moment) (w : World) (k : ConnectionId) :
    Prop where
  /-- It registers once at most. -/
  once : ((ledger past).filterMap Request.registrant?).count k ≤ 1
  /-- It does not register once it has gone towards its end. -/
  last : ∀ earlier m later half, past = earlier ++ m :: later → m.move = .act (.client k half) →
    ∀ m' ∈ later, ∀ r, m'.request? = some r → r.registrant? ≠ some k
  /-- Whatever is issued once it has stopped serving finds it gone for good, but for registrations,
  which are handled first. That is so if the look that finds its unregistration has not missed its
  registration, and the one that finds what was issued has not missed its unregistration. -/
  gone : ∀ c, w.connections[k]? = some c → c.isServing = false →
    ∀ before m after v, Course callers w (before ++ m :: after) v →
      (∀ m' ∈ past ++ before, m'.SeesArrival k) →
      (∀ t' user, ¬ m.Overlooks (t', .unregister user k)) →
      ∀ t r, m.handles? = some (t, r) → w.site.hub.nextTicket ≤ t → r.lane ≠ .registration →
        ∀ u ∈ (m :: after).map Moment.world ++ [v],
          ∀ e ∈ u.site.hub.exchange.registry, e.connection ≠ k
  /-- Its own steps towards the end leave the registry alone. -/
  apart : ∀ half v, w.act? (.client k half) = some v →
    v.site.hub.exchange.registry = w.site.hub.exchange.registry
  /-- The handling of its unregistration spares the others. -/
  spares : ∀ missed t user v, w.site.hub.next? missed = some (t, .unregister user k) →
    w.act? (.hub missed) = some v → Spares w.site.hub.exchange user k v.site.hub.exchange

section Departing

variable {callers : Request → Prop} {past : List Moment} {w v : World} {k : ConnectionId}
  {half : Connection.Half}

theorem not_serving_of_client (h : w.act? (.client k half) = some v) :
    ∃ s, v.stand? k = some s ∧ s.isServing = false := by
  obtain ⟨c, hc, h⟩ := Option.bind_eq_some_iff.mp h
  obtain ⟨⟨c', site⟩, hstep, rfl⟩ := Option.map_eq_some_iff.mp h
  refine ⟨c'.stand, ?_, ?_⟩
  · rw [w.stand?_set hc]
    exact Function.update_self k _ _
  · rcases stepEnd?_cases hstep with ⟨-, hstand, -⟩ | ⟨hserv, hstand, -⟩
    · rw [hstand]
    · rw [hstand]
      exact hserv

theorem registry_of_client (h : w.act? (.client k half) = some v) :
    v.site.hub.exchange.registry = w.site.hub.exchange.registry := by
  have hk := ((effect_client h).of_ne_hub (by simp)).1
  exact hk.registry.trans (congrArg _ (Hub.exchange_enter _ _))

theorem exchange_of_unregister {missed : List Lane} (h : w.act? (.hub missed) = some v)
    {t : Ticket} {user : String} (hn : w.site.hub.next? missed = some (t, .unregister user k)) :
    v.site.hub.exchange = w.site.hub.exchange.unregister user k := by
  obtain ⟨g, hg, rfl⟩ := Option.map_eq_some_iff.mp h
  obtain ⟨t', r, hn', rfl⟩ := Hub.step?_eq_some hg
  obtain ⟨rfl, rfl⟩ := Prod.mk.inj (Option.some.inj (hn.symm.trans hn'))
  rfl

/--
**A connection that stops serving leaves nothing behind.** Whenever its halves end, with its
registration sent or not, handled or not, and its user put out or replaced in between.
-/
theorem parted_connection_gone_and_others_spared (hc : RegistersNobody callers)
    {service : Service} {now : Instant} {clock : Time.Timestamp}
    (h : Course callers (.start service now clock) past w) (k : ConnectionId) :
    Departs callers past w k := by
  obtain ⟨ha, hb⟩ := h.kept hc
  refine ⟨?_, ?_, ?_, fun _ v hv => registry_of_client hv, ?_⟩
  · exact List.nodup_iff_count_le_one.mp ha.once k
  · -- from the world after `m` on, it does not serve
    intro earlier m later half hp hm m' hm' r hr
    rw [hp] at h
    obtain ⟨u, hu, hrest⟩ := h.split
    obtain ⟨rfl, hcall, u', hmove, hlater⟩ := hrest.uncons
    obtain ⟨hau, hbu⟩ := hu.kept hc
    have he := effect_of_move hau.calm hmove
    have hc' : ∀ r, m.move = .undergo (.issue r) → r.registrant? = none :=
      fun r hr => hc r (hcall r hr)
    rw [hm] at hmove
    obtain ⟨s, hs, hserv⟩ := not_serving_of_client hmove
    exact ((hlater.idle hc (hau.step hbu he hc') (hbu.step he) hs hserv).2 m' hm').2 r hr
  · -- it has parted in `w` and so in the world that `m` meets, where it is gone
    intro c hconn hserv before m after v hcourse hsees hseen t r hh hlimit hlane u hu e he
    have hparted := h.parted hc (fun m' hm' => hsees m' (List.mem_append_left _ hm'))
      (stand?_of_connection hconn) hserv
    obtain ⟨u', hbefore, hafter⟩ := hcourse.split
    obtain ⟨rfl, -⟩ := hafter.uncons
    obtain ⟨ha', hb'⟩ := Accounted.course hc hbefore ha hb
    have hparted' := hparted.course hc hbefore ha hb
      fun m' hm' => hsees m' (List.mem_append_right _ hm')
    have hgone := hparted'.gone hb' hh hseen hlimit hlane
    obtain ⟨hv, hmoments⟩ := hafter.gone hc ha' hb' hparted'.stand hparted'.isServing hgone
    rcases List.mem_append.mp hu with hu | hu
    · obtain ⟨m', hm', rfl⟩ := List.mem_map.mp hu
      exact (hmoments m' hm').registry e he
    · rw [List.mem_singleton.mp hu] at he
      exact hv.registry e he
  · intro missed t user v hn hv
    rw [exchange_of_unregister hv hn]
    obtain ⟨log, hlog⟩ := handling_handled w.site.hub.exchange (r := .unregister user k) rfl
    exact hlog.spares ha.users

end Departing

/-! ## An encounter -/

/-- Whom a request unregisters. -/
def Request.unregistrant? : Request → Option (String × ConnectionId)
  | unregister user k => some (user, k)
  | _ => none

namespace Encounter

/-- Every token is the name of whoever brings it. -/
def service : Service := ⟨fun token => .ok ⟨token, token, false⟩, 0⟩

def start : World := .start service 0 ⟨⟨2024, 1, 1⟩, 0, 0, 0, 0⟩

/-- A socket on which somebody signs in. -/
def signIn (name : String) : Socket :=
  (Socket.new .plain).arrive [.text ("\x7b\"type\":\"auth\",\"token\":\"" ++ name ++ "\"\x7d")]

/-- Ann, whose queue has room for one frame, and then Bob sign in, and Bob's writer breaks. -/
def moves : List Move :=
  [.undergo (.connect { Settings.standard with queueCapacity := 1 } (signIn "ann")),
    .undergo (.connect .standard (signIn "bob")),
    .act (.reader 0), .act (.reader 0), .act (.hub []), .act (.reader 1), .act (.reader 1),
    .act (.hub []), .endWriter 1 ⟨.finished .writeFailed, 0⟩, .act (.client 1 .writer)]

theorem possible : (start.follow? moves).isSome = true := by decide +kernel

/-- Bob's unregistration waits. -/
def evening : World := (start.follow? moves).get possible

theorem course : Course (fun _ => False) start (start.trail moves) evening :=
  course_of_follow? (by simp [moves]) (Option.some_get possible).symm

/-- Somebody asks how many are online, and Bob's unregistration is handled before that. -/
def counting : List Move := [.undergo (.issue .onlineCount), .act (.hub [])]

/-- Bob serves no more and is still in the registry with Ann. -/
theorem departing : evening.connections[1]?.map Connection.isServing = some false ∧
    (evening.site.hub.next? []).bind (·.2.unregistrant?) = some ("bob", 1) ∧
    evening.site.hub.exchange.registry.map Entry.connection = [0, 1] := by
  decide +kernel

/-- His unregistration can be handled, with the question and without it; then nobody is there. -/
theorem goes_on : (evening.follow? counting).isSome = true ∧
    (evening.act? (.hub [])).map (fun v => v.site.hub.exchange.registry.map Entry.connection) =
      some [] := by
  decide +kernel

/-- His unregistration has been handled, and the hub is about to count. -/
def asked : World := (evening.follow? counting).get goes_on.1

theorem departed : (asked.act? (.hub [])).isSome = true ∧
    (asked.site.hub.next? []).map (fun p =>
      decide (evening.site.hub.nextTicket ≤ p.1) && decide (p.2.lane = .control)) = some true := by
  decide +kernel

theorem next?_evening : ∃ t, evening.site.hub.next? [] = some (t, .unregister "bob" 1) := by
  obtain ⟨⟨t, r⟩, hn, hr⟩ := Option.bind_eq_some_iff.mp departing.2.1
  refine ⟨t, ?_⟩
  cases r with
  | unregister user k =>
    obtain ⟨rfl, rfl⟩ := Prod.mk.inj (Option.some.inj hr)
    exact hn
  | _ => cases hr

/-- The hub is about to count. -/
theorem next?_asked : ∃ p, asked.site.hub.next? [] = some p ∧
    evening.site.hub.nextTicket ≤ p.1 ∧ p.2.lane = .control := by
  obtain ⟨p, hn, hp⟩ := Option.map_eq_some_iff.mp departed.2
  obtain ⟨hle, hl⟩ := Bool.and_eq_true_iff.mp hp
  exact ⟨p, hn, of_decide_eq_true hle, of_decide_eq_true hl⟩

/-- No look of the hub misses anything. -/
theorem looks : ∀ m ∈ start.trail moves ++ evening.trail counting,
    ∀ missed, m.move = .act (.hub missed) → missed = [] := by
  intro m hm missed hmove
  have hin : m.move ∈ moves ++ counting := List.mem_append.mpr
    ((List.mem_append.mp hm).imp World.move_mem_of_mem_trail World.move_mem_of_mem_trail)
  rw [hmove] at hin
  simpa [moves, counting] using hin

end Encounter

/-- Ann took the news of Bob's coming and could not take that of his going: his unregistration puts
her out, though her connection is another. -/
theorem Encounter.puts_out : ∃ t v, evening.site.hub.next? [] = some (t, .unregister "bob" 1) ∧
    evening.act? (.hub []) = some v ∧
    ∃ e ∈ evening.site.hub.exchange.registry, e.connection ≠ 1 ∧
      e ∉ v.site.hub.exchange.registry := by
  obtain ⟨t, hn⟩ := next?_evening
  have hann : 0 ∈ evening.site.hub.exchange.registry.map Entry.connection := by
    rw [departing.2.2]
    exact List.mem_cons_self
  obtain ⟨e, he, hk⟩ := List.mem_map.mp hann
  obtain ⟨v, hv, hempty⟩ := Option.map_eq_some_iff.mp goes_on.2
  refine ⟨t, v, hn, hv, e, he, ?_, fun hin => ?_⟩
  · rw [hk]
    exact Nat.zero_ne_one
  · have hmem := List.mem_map_of_mem (f := Entry.connection) hin
    rw [hempty] at hmem
    cases hmem

/-! ## A registration that comes too late -/

namespace Latecomer

open Encounter (start signIn)

/-- Ann signs in, and her writer breaks before she has heard that she is registered. The look of the
hub that finds her unregistration has missed her registration, which the next look finds. -/
def moves : List Move :=
  [.undergo (.connect .standard (signIn "ann")), .act (.reader 0), .act (.reader 0),
    .endWriter 0 ⟨.finished .writeFailed, 0⟩, .act (.client 0 .writer),
    .act (.hub [.registration]), .act (.hub [])]

/-- Then Ann's connection serves no more and nothing waits for the hub, and yet she is there. -/
theorem stays : (start.follow? moves).map (fun w =>
    (w.connections[0]?.map Connection.isServing, w.site.hub.pending.isEmpty,
      w.site.hub.exchange.registry.map Entry.connection)) = some (some false, true, [0]) := by
  decide +kernel

end Latecomer

/-- A departure may put out others, and it may leave the connection registered. -/
theorem unregistration_evicts_or_comes_early :
    (¬ ∀ (past : List Moment) (w v : World) (t : Ticket) (user : String) (k : ConnectionId),
      Course (fun _ => False) Encounter.start past w →
      w.site.hub.next? [] = some (t, .unregister user k) → w.act? (.hub []) = some v →
      ∀ e ∈ w.site.hub.exchange.registry, e.connection ≠ k →
        e ∈ v.site.hub.exchange.registry) ∧
    ¬ ∀ (past : List Moment) (w : World) (k : ConnectionId) (c : Connection),
      Course (fun _ => False) Encounter.start past w →
      w.connections[k]? = some c → c.isServing = false → w.site.hub.pending = [] →
      ∀ e ∈ w.site.hub.exchange.registry, e.connection ≠ k := by
  constructor
  · intro h
    obtain ⟨t, v, hn, hv, e, he, hk, hout⟩ := Encounter.puts_out
    exact hout (h _ _ v t "bob" 1 Encounter.course hn hv e he hk)
  · intro h
    obtain ⟨w, hw, hstays⟩ := Option.map_eq_some_iff.mp Latecomer.stays
    obtain ⟨hparted, hrest⟩ := Prod.mk.inj hstays
    obtain ⟨hempty, hregistry⟩ := Prod.mk.inj hrest
    obtain ⟨c, hc, hserv⟩ := Option.map_eq_some_iff.mp hparted
    have hann : 0 ∈ w.site.hub.exchange.registry.map Entry.connection := by
      rw [hregistry]
      exact List.mem_cons_self
    obtain ⟨e, he, hk⟩ := List.mem_map.mp hann
    have hcourse : Course (fun _ => False) Encounter.start _ w :=
      course_of_follow? (by simp [Latecomer.moves]) hw
    exact h _ w 0 c hcourse hc hserv (List.isEmpty_iff.mp hempty) e he hk

/-- Bob has departed: his connection serves no more, and the hub is about to hear of it. Whoever
asks then how many are online is answered when he is gone. -/
theorem parted_connection_gone_encounter :
    RegistersNobody (· = .onlineCount) ∧
      Course (· = .onlineCount) (.start Encounter.service 0 ⟨⟨2024, 1, 1⟩, 0, 0, 0, 0⟩)
        (Encounter.start.trail Encounter.moves) Encounter.evening ∧
      Departs (· = .onlineCount) (Encounter.start.trail Encounter.moves) Encounter.evening 1 ∧
      ∀ e ∈ Encounter.asked.site.hub.exchange.registry, e.connection ≠ 1 := by
  have hnobody : RegistersNobody (· = .onlineCount) := fun r hr => hr ▸ rfl
  have hcourse : Course (· = .onlineCount) Encounter.start _ Encounter.evening :=
    course_of_follow? (by simp [Encounter.moves]) (Option.some_get Encounter.possible).symm
  have hdeparts := parted_connection_gone_and_others_spared hnobody hcourse 1
  refine ⟨hnobody, hcourse, hdeparts, ?_⟩
  obtain ⟨c, hc, hserv⟩ := Option.map_eq_some_iff.mp Encounter.departing.1
  have hasked : Course (· = .onlineCount) Encounter.evening
      (Encounter.evening.trail Encounter.counting) Encounter.asked :=
    course_of_follow? (by simp [Encounter.counting]) (Option.some_get Encounter.goes_on.1).symm
  obtain ⟨⟨t, r⟩, hn, hle, hl⟩ := Encounter.next?_asked
  have hlater := hasked.move (m := .act (.hub [])) (by simp)
    (Option.some_get Encounter.departed.1).symm
  refine hdeparts.gone c hc hserv _ ⟨Encounter.asked, .act (.hub [])⟩ [] _ hlater ?_ ?_ t r hn hle
    (by rw [hl]; simp) Encounter.asked List.mem_cons_self
  · exact fun m hm _ _ _ p _ => Moment.not_overlooks (Encounter.looks m hm) p
  · refine fun t' user => Moment.not_overlooks (fun missed hm => ?_) _
    cases hm
    rfl

end Switchboard
