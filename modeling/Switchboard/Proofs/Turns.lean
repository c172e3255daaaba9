import Switchboard.Proofs.Copies

/-!
# An event's turn

To tell of an event, the hub is asked for several deliveries at once. They wait in one lane behind
what was published before, and since a hub looks into the lanes of those who come and go first, it
is only when it sees nobody there that the first of them is next (`Hub.Faces`). As long as it sees
no more than that, it then handles all of them, one after the other.
-/

namespace Switchboard

open Wire Exchange Traffic

/-! ## What the hub is asked -/

/-- The requests that deliver a frame to one target after another, under tickets from the first. -/
def Request.dispatches (frame : Envelope) : Ticket → List Target → List (Ticket × Request)
  | _, [] => []
  | first, t :: targets => (first, .dispatch t frame) :: dispatches frame (first + 1) targets

/-- What the hub is asked on account of an event that is announced at a time. -/
def DomainEvent.requests (e : DomainEvent) (time : Time.Timestamp) (first : Ticket) :
    List (Ticket × Request) := Request.dispatches (e.frameAt time) first e.audience

namespace Request

variable {frame : Envelope} {first : Ticket} {targets : List Target} {p : Ticket × Request}

theorem mem_dispatches (h : p ∈ dispatches frame first targets) :
    (∃ t ∈ targets, p.2 = .dispatch t frame) ∧ first ≤ p.1 ∧ p.1 < first + targets.length := by
  induction targets generalizing first with
  | nil => cases h
  | cons t targets ih =>
    rcases List.mem_cons.mp h with rfl | h
    · exact ⟨⟨t, List.mem_cons_self, rfl⟩, Nat.le_refl _, by simp⟩
    · obtain ⟨⟨t', ht', hp⟩, hle, hlt⟩ := ih h
      exact ⟨⟨t', List.mem_cons_of_mem t ht', hp⟩, Nat.le_of_succ_le hle,
        Nat.lt_of_lt_of_eq hlt (Nat.succ_add_eq_add_succ first targets.length)⟩

theorem lane_of_mem_dispatches (h : p ∈ dispatches frame first targets) :
    p.2.lane = .delivery := by
  obtain ⟨⟨t, -, hp⟩, -⟩ := mem_dispatches h
  rw [hp]
  rfl

theorem inLane_dispatches : inLane .delivery (dispatches frame first targets) =
    dispatches frame first targets := by
  unfold inLane
  rw [List.filter_eq_self]
  intro p hp
  exact decide_eq_true (lane_of_mem_dispatches hp)

end Request

namespace Hub

variable {h g u v : Hub} {a : Event} {targets : List Target}

/-- A hub that runs keeps all that it is asked to deliver, behind what waits already. -/
theorem foldl_dispatch_of_running (hr : h.running = true) :
    targets.foldl (fun h t => h.dispatch t a) h =
      { h with
        nextTicket := h.nextTicket + targets.length
        pending := h.pending ++
          Request.dispatches (h.exchange.frame (.event a)) h.nextTicket targets } := by
  induction targets generalizing h with
  | nil => simp [Request.dispatches]
  | cons t targets ih =>
    have hrun : (h.dispatch t a).running = true := by rw [dispatch_eq]; exact hr
    rw [List.foldl_cons, ih hrun, dispatch_eq, if_pos hr]
    simp [Request.dispatches, Nat.add_assoc, Nat.add_comm 1]

/-- A hub that has stopped lets go of all that it is asked to deliver. -/
theorem foldl_dispatch_of_stopped (hr : h.running = false) :
    targets.foldl (fun h t => h.dispatch t a) h =
      { h with nextTicket := h.nextTicket + targets.length } := by
  induction targets generalizing h with
  | nil => rfl
  | cons t targets ih =>
    have hrun : (h.dispatch t a).running = false := by rw [dispatch_eq]; exact hr
    rw [List.foldl_cons, ih hrun, dispatch_eq, hr]
    simp [Nat.add_assoc, Nat.add_comm 1]

/-- To ask for deliveries is to issue requests, and nothing is handled meanwhile. -/
theorem traffic_dispatches (h : Hub) (hr : h.running = true) (a : Event) (targets : List Target) :
    ∃ asked, Traffic h asked (targets.foldl (fun h t => h.dispatch t a) h) ∧
      issued asked = Request.dispatches (h.exchange.frame (.event a)) h.nextTicket targets ∧
      handled asked = [] := by
  induction targets generalizing h with
  | nil => exact ⟨[], .start, rfl, rfl⟩
  | cons t targets ih =>
    have hrun : (h.dispatch t a).running = true := by rw [dispatch_eq]; exact hr
    obtain ⟨asked, ht, hissued, hhandled⟩ := ih (h.dispatch t a) hrun
    rw [show (h.dispatch t a).nextTicket = h.nextTicket + 1 by rw [dispatch_eq],
      show (h.dispatch t a).exchange = h.exchange by rw [dispatch_eq]] at hissued
    refine ⟨⟨h, .issue (.dispatch t (h.exchange.frame (.event a)))⟩ :: asked,
      ht.cons rfl, ?_, ?_⟩
    · have hcons : issued (⟨h, .issue (.dispatch t (h.exchange.frame (.event a)))⟩ :: asked) =
          (h.nextTicket, .dispatch t (h.exchange.frame (.event a))) :: issued asked := rfl
      rw [hcons, hissued]
      rfl
    · exact hhandled

/-! ## Whose turn it is -/

/-- It is the turn of some deliveries for looks that miss some lanes: they are the first that wait
in their lane, which is not missed, and nobody is seen to wait to come or to go. -/
structure Faces (u : Hub) (missed : List Lane) (reqs : List (Ticket × Request)) : Prop where
  seen : Lane.delivery ∉ missed
  foremost : ∀ p ∈ u.pending, p.2.lane ∉ missed → Lane.delivery.rank ≤ p.2.lane.rank
  first : reqs <+: u.lane .delivery
  apart : (u.pending.map Prod.fst).Nodup

namespace Faces

variable {missed : List Lane} {t : Ticket} {target : Target} {frame : Envelope}
  {reqs : List (Ticket × Request)}

theorem next? (hf : u.Faces missed ((t, .dispatch target frame) :: reqs)) :
    u.next? missed = some (t, .dispatch target frame) := by
  obtain ⟨others, hlane⟩ := hf.first
  obtain ⟨before, after, hp, hbefore, -, -⟩ := List.filter_eq_cons_iff.mp hlane.symm
  refine next?_of_spec hp (fun p hm heq => ?_) hf.seen hf.foremost
  exact hbefore p hm (decide_eq_true heq)

/-- When the first of them has been handled, it is the turn of the rest. -/
theorem step (hf : u.Faces missed ((t, .dispatch target frame) :: reqs)) :
    ∃ v, u.step? missed = some v ∧ v.exchange = u.exchange.publish target frame ∧
      v.Faces missed reqs := by
  have hstep : u.step? missed = some ((u.take t).handle t (.dispatch target frame)) := by
    unfold step?
    rw [hf.next?]
  refine ⟨_, hstep, rfl, hf.seen, ?_, ?_, ?_⟩
  · exact fun p hp => hf.foremost p (List.mem_filter.mp hp).1
  · obtain ⟨others, hlane⟩ := hf.first
    -- the others of the lane have other tickets
    have hnd : (((t, Request.dispatch target frame) :: (reqs ++ others)).map Prod.fst).Nodup := by
      rw [← List.cons_append, hlane]
      exact hf.apart.sublist (List.filter_sublist.map _)
    have hrest : ∀ p ∈ reqs ++ others, decide (p.1 ≠ t) = true := by
      intro p hp
      rw [decide_eq_true_eq]
      intro heq
      have hmem : p.1 ∈ (reqs ++ others).map Prod.fst := List.mem_map_of_mem hp
      exact (List.nodup_cons.mp hnd).1 (heq ▸ hmem)
    refine ⟨others, ?_⟩
    show _ = (u.pending.filter (·.1 ≠ t)).filter (·.2.lane = .delivery)
    rw [List.filter_comm]
    show _ = (u.lane .delivery).filter (·.1 ≠ t)
    rw [← hlane, List.cons_append, List.filter_cons_of_neg (by simp),
      List.filter_eq_self.mpr hrest]
  · exact hf.apart.sublist (List.filter_sublist.map _)

/-- **The hub handles them one after the other.** -/
theorem run {first : Ticket} {targets : List Target}
    (hf : u.Faces missed (Request.dispatches frame first targets)) :
    ∃ turn v, Traffic u turn v ∧ (∀ o ∈ turn, o.event = .handle missed) ∧
      handled turn = Request.dispatches frame first targets ∧
      v.exchange = targets.foldl (fun x t => x.publish t frame) u.exchange := by
  induction targets generalizing u first with
  | nil => exact ⟨[], u, .start, by simp, rfl, rfl⟩
  | cons t targets ih =>
    obtain ⟨w, hstep, hexchange, hw⟩ := hf.step
    obtain ⟨turn, v, ht, hall, hhandled, hv⟩ := ih hw
    refine ⟨⟨u, .handle missed⟩ :: turn, v, ht.cons hstep, ?_, ?_, ?_⟩
    · intro o ho
      rcases List.mem_cons.mp ho with rfl | ho
      · rfl
      · exact hall o ho
    · have hcons : handled (⟨u, .handle missed⟩ :: turn) =
          (first, .dispatch t frame) :: handled turn := List.filterMap_cons_some hf.next?
      rw [hcons, hhandled]
      rfl
    · rw [hv, hexchange]
      rfl

end Faces

/-- A hub that runs and is left to itself comes to whatever waits before the last lane. -/
theorem comes_to (hr : u.running = true) (hnd : (u.pending.map Prod.fst).Nodup)
    {p : Ticket × Request} (hp : p ∈ u.pending) (hl : p.2.lane ≠ .control) :
    ∃ rest v, Traffic u rest v ∧ (∀ o ∈ rest, o.event = .handle []) ∧ v.next? [] = some p := by
  -- every step leaves fewer requests waiting
  induction hn : u.pending.length using Nat.strongRecOn generalizing u with
  | ind n ih =>
    subst hn
    obtain ⟨⟨t, r⟩, hnext⟩ := Option.isSome_iff_exists.mp (next?_isSome hp List.not_mem_nil)
    by_cases heq : (t, r) = p
    · exact ⟨[], u, .start, by simp, heq ▸ hnext⟩
    · -- what is handled before is of no later lane, so it does not stop the hub
      have hshut : r ≠ .shutdown := by
        rintro rfl
        have hle : Lane.control.rank ≤ p.2.lane.rank :=
          next?_foremost hnext hp List.not_mem_nil
        exact hl (Lane.rank_injective (Nat.le_antisymm p.2.lane.rank_le_control hle))
      have hstep : u.step? [] = some ((u.take t).handle t r) := by
        unfold step?
        rw [hnext]
      have hh := u.handled_handle t hshut
      have hne : p.1 ≠ t := fun ht =>
        heq (List.inj_on_of_nodup_map hnd (mem_pending_of_next? hnext) hp ht.symm)
      have hstill : p ∈ ((u.take t).handle t r).pending := by
        rw [hh.pending]
        exact List.mem_filter.mpr ⟨hp, decide_eq_true hne⟩
      have hnd' : (((u.take t).handle t r).pending.map Prod.fst).Nodup := by
        rw [hh.pending]
        exact hnd.sublist (List.filter_sublist.map _)
      obtain ⟨rest, v, ht, hall, hv⟩ :=
        ih _ (length_pending_step? hstep) (hh.running.trans hr) hnd' hstill rfl
      refine ⟨⟨u, .handle []⟩ :: rest, v, ht.cons hstep, ?_, hv⟩
      intro o ho
      rcases List.mem_cons.mp ho with rfl | ho
      · rfl
      · exact hall o ho

end Hub

/-! ## In a history -/

namespace Traffic

variable {clock : Time.Timestamp} {past asked later : List Occasion} {h g u : Hub}
  {missed : List Lane} {frame : Envelope} {first : Ticket} {targets : List Target}

theorem nodup_pending (ht : Traffic (.start clock) past h) :
    (h.pending.map Prod.fst).Nodup := by
  have hsub := ht.filed.pending.map Prod.fst
  rw [ht.filed.tickets] at hsub
  exact List.nodup_range.sublist hsub

/-- What has been asked for at once has its turn at once: when the first is next, nobody is seen to
wait to come or to go, and nothing of their lane comes between. -/
theorem faces (ht : Traffic (.start clock) (past ++ asked ++ later) u)
    (hasked : issued asked = Request.dispatches frame first targets) (hne : targets ≠ [])
    (hn : (u.next? missed).map Prod.fst = some first) : u.Faces missed (issued asked) := by
  obtain ⟨⟨t, r⟩, hnext, rfl⟩ := Option.map_eq_some_iff.mp hn
  obtain ⟨target, targets, rfl⟩ := List.exists_cons_of_ne_nil hne
  have hf := ht.filed
  have hissued : issued (past ++ asked ++ later) =
      issued past ++ (issued asked ++ issued later) := by
    rw [issued_append, issued_append, List.append_assoc]
  have hcons : issued asked =
      (t, .dispatch target frame) :: Request.dispatches frame (t + 1) targets := hasked
  -- a ticket is one request's
  have hin : (t, Request.dispatch target frame) ∈ issued (past ++ asked ++ later) := by
    rw [hissued, hcons]
    simp
  obtain rfl : r = .dispatch target frame :=
    ht.request_unique (hf.pending.subset (Hub.mem_pending_of_next? hnext)) hin
  obtain ⟨⟨before, after, hp, hbefore⟩, hseen, hforemost⟩ := Hub.next?_spec hnext
  refine ⟨hseen, hforemost, ?_, ht.nodup_pending⟩
  have hlane : u.lane .delivery = (t, .dispatch target frame) :: inLane .delivery after := by
    unfold Hub.lane
    rw [hp, List.filter_append, List.filter_cons_of_pos (by rfl)]
    have hnil : before.filter (·.2.lane = .delivery) = [] := by
      rw [List.filter_eq_nil_iff]
      intro p hm heq
      exact hbefore p hm (of_decide_eq_true heq)
    rw [hnil]
    rfl
  -- what was handled of the lane is what was issued before the first of them
  have horder := hf.inOrder (hf.running_of_next? hnext) .delivery
  have hself : inLane .delivery (issued asked) = issued asked := by
    rw [hasked]
    exact Request.inLane_dispatches
  have hnd : (inLane .delivery (issued (past ++ asked ++ later))).Nodup :=
    ((hf.sorted.imp fun hlt heq => Nat.ne_of_lt hlt (congrArg Prod.fst heq)) :
      (issued (past ++ asked ++ later)).Nodup).filter _
  rw [hissued, inLane_append, inLane_append, hself, hcons, List.cons_append] at horder hnd
  rw [hlane] at horder ⊢
  obtain ⟨-, hnd, hcross⟩ := List.nodup_append.mp hnd
  obtain ⟨-, -, hrest⟩ := (List.append_cons_inj_of_notMem
    (fun hm => hcross _ hm _ List.mem_cons_self rfl) (List.nodup_cons.mp hnd).1).mp horder
  rw [hcons]
  exact ⟨inLane .delivery (issued later), by rw [← hrest, List.cons_append]⟩

/-- Of what has been asked for at once, the first is handled first. -/
theorem handled_before (ht : Traffic (.start clock) (past ++ asked ++ later) u)
    (hasked : issued asked = Request.dispatches frame first targets)
    (hnone : handled asked = []) (hpast : Traffic (.start clock) past h)
    {p q : Ticket × Request} (hp : p ∈ issued asked) (hq : q ∈ issued asked)
    (hn : u.next? missed = some p) (hlt : q.1 < p.1) : q ∈ handled later := by
  have hf := ht.filed
  have hin : q ∈ issued (past ++ asked ++ later) := by
    rw [issued_append, issued_append]
    exact List.mem_append_left _ (List.mem_append_right _ hq)
  rcases hf.handled_or_pending (hf.running_of_next? hn) hin with hh | hwaits
  · rw [handled_append, handled_append, hnone, List.append_nil] at hh
    rcases List.mem_append.mp hh with hh | hh
    · -- what was handled before has been issued before
      obtain ⟨v, hv, -⟩ := ht.split
      have hle := hv.nextTicket_le hpast hq
      exact absurd (hpast.filed.lt_nextTicket (hpast.filed.issued_of_handled hh))
        (Nat.not_lt_of_le hle)
    · exact hh
  · -- what waits is not overtaken from its own lane
    rw [hasked] at hp hq
    have hlane : q.2.lane = p.2.lane :=
      (Request.lane_of_mem_dispatches hq).trans (Request.lane_of_mem_dispatches hp).symm
    have hle := Hub.next?_first hn (hf.sorted.sublist hf.pending) hwaits hlane
    exact absurd hlt (Nat.not_lt_of_le hle)

/-- What a hub that runs is asked to deliver goes to all who are meant when its turn comes, if they
have room, and to nobody else. -/
theorem dispatch_reaches {a : Event} {target : Target} (ht : Traffic (.start clock) past h)
    (hr : h.running = true) (hlater : Traffic (h.dispatch target a) later u)
    (hn : (u.next? missed).map Prod.fst = some h.nextTicket) :
    ∃ v, u.step? missed = some v ∧
      ((∀ l ∈ u.exchange.registry, target.selects l = true → u.exchange.roomOf l.queue ≠ 0) →
        u.exchange.Spread [target] (h.exchange.frame (.event a)) v.exchange) := by
  obtain ⟨asked, hask, hissued, -⟩ := h.traffic_dispatches hr a [target]
  have hfaces := ((ht.trans hask).trans hlater).faces hissued (List.cons_ne_nil _ _) hn
  rw [hissued] at hfaces
  obtain ⟨v, hstep, hexchange, -⟩ := hfaces.step
  exact ⟨v, hstep, fun hroom => hexchange ▸ spread_publish hroom⟩

/-- A broadcast reaches those who listen to the topic when its turn comes. -/
theorem broadcast_reaches {a : Event} {t : Topic} (ht : Traffic (.start clock) past h)
    (hr : h.running = true) (hlater : Traffic (h.broadcast t a) later u)
    (hn : (u.next? missed).map Prod.fst = some h.nextTicket) :
    ∃ v, u.step? missed = some v ∧
      ((∀ l ∈ u.exchange.registry, t ∈ l.topics → u.exchange.roomOf l.queue ≠ 0) →
        u.exchange.Spread [.topic t] (h.exchange.frame (.event a)) v.exchange) := by
  obtain ⟨v, hstep, hspread⟩ := ht.dispatch_reaches hr hlater hn
  exact ⟨v, hstep, fun hroom => hspread fun l hl hsel =>
    hroom l hl (List.contains_iff_mem.mp hsel)⟩

/-- What is sent to a user reaches the user's connection, whatever anyone listens to. -/
theorem sendToUser_reaches {a : Event} {user : String} (ht : Traffic (.start clock) past h)
    (hr : h.running = true) (hlater : Traffic (h.sendToUser user a) later u)
    (hn : (u.next? missed).map Prod.fst = some h.nextTicket) :
    ∃ v, u.step? missed = some v ∧
      ((∀ l ∈ u.exchange.registry, l.userId = user → u.exchange.roomOf l.queue ≠ 0) →
        u.exchange.Spread [.user user] (h.exchange.frame (.event a)) v.exchange) := by
  obtain ⟨v, hstep, hspread⟩ := ht.dispatch_reaches hr hlater hn
  exact ⟨v, hstep, fun hroom => hspread fun l hl hsel => hroom l hl (of_decide_eq_true hsel)⟩

end Traffic

end Switchboard
