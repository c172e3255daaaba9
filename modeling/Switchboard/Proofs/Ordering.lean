import Switchboard.Proofs.Traffic

/-!
# What order survives

Requests overtake one another: a delivery is handled before a subscription that was issued earlier,
and a connection leaves before what was published to it. What survives in any case is that a lane
keeps its order, and that what is issued upon an answer is handled after what was answered.

The last lane is to wait for all others, so that an answer reflects what was issued before it was
asked for. It does, unless the lanes are looked into while requests come in: a look that has passed
a lane misses what comes into it, and may then find, in the last lane, what was issued even later
(`Occasion.Overlooks`). Answers reflect what came before them in exactly the histories in which no
look does that, and a connection that is leaving can be reported to be there otherwise
(`Overlooking`).

For deliveries, what has been answered decides. A subscription that has been answered has been
handled before a frame is even issued, so that only what is issued from then on can still take it
away, whether it comes before the frame (`Scene.mem_between`) or overtakes it
(`Scene.mem_meanwhile`).
-/

namespace Switchboard

open Wire Traffic

/-! ## The exchange and the history -/

/-- What an occasion makes of the exchange of a hub that runs. -/
def Occasion.effect (o : Occasion) (x : Exchange) : Exchange :=
  match o.event with
  | .issue _ => x
  | .handle missed =>
    match o.hub.next? missed with
    | some (_, r) => x.handled r
    | none => x
  | .tend f => { x with mail := f x.mail }
  | .setClock clock => { x with clock }

/-- What the requests that were handled, and what happened to the queues in between, have made of
an empty exchange. -/
def Traffic.replay (clock : Time.Timestamp) (past : List Occasion) : Exchange :=
  past.foldl (fun x o => o.effect x) (.empty clock)

section Histories

variable {clock : Time.Timestamp} {past : List Occasion} {h g : Hub}

namespace Traffic

/-- A hub that is left alone, so that its looks miss nothing, handles everything that waits. -/
theorem drains (h : Hub) :
    ∃ rest g, Traffic h rest g ∧ (∀ o ∈ rest, o.event = .handle []) ∧ g.pending = [] := by
  -- every step leaves fewer requests waiting
  induction hn : h.pending.length using Nat.strongRecOn generalizing h with
  | ind n ih =>
    subst hn
    cases hs : h.step? [] with
    | none => exact ⟨[], h, .start, by simp, Hub.pending_eq_nil hs⟩
    | some u =>
      obtain ⟨rest, g, hrest, hall, hempty⟩ := ih _ (Hub.length_pending_step? hs) u rfl
      refine ⟨⟨h, .handle []⟩ :: rest, g, hrest.cons hs, ?_, hempty⟩
      intro o ho
      rcases List.mem_cons.mp ho with rfl | ho
      · rfl
      · exact hall o ho

theorem effect_of_meet? {u v : Hub} {e : Occurrence} (hm : u.meet? e = some v)
    (hr : v.running = true) :
    u.running = true ∧ v.exchange = Occasion.effect ⟨u, e⟩ u.exchange := by
  cases e with
  | issue r =>
    obtain rfl := Option.some.inj hm
    have hrun : u.running = true :=
      ((u.keeps_issue r).running.trans (u.running_enter _)).symm.trans hr
    refine ⟨hrun, ?_⟩
    unfold Hub.issue
    dsimp only
    rw [if_pos hrun]
    rfl
  | handle missed =>
    obtain ⟨t, r, hn, rfl⟩ := Hub.step?_eq_some hm
    have heffect : Occasion.effect ⟨u, .handle missed⟩ u.exchange = u.exchange.handled r := by
      unfold Occasion.effect
      dsimp only
      rw [hn]
    rw [heffect]
    by_cases hshut : r = .shutdown
    · subst hshut
      have hstop : ((u.take t).handle t .shutdown).running = false := (u.take t).keeps_stop.running
      rw [hstop] at hr
      cases hr
    · have hh := u.handled_handle t hshut
      exact ⟨hh.running.symm.trans hr, hh.exchange⟩
  | tend f =>
    obtain rfl := Option.some.inj hm
    exact ⟨hr, rfl⟩
  | setClock clock =>
    obtain rfl := Option.some.inj hm
    exact ⟨hr, rfl⟩

theorem exchange_eq (ht : Traffic (.start clock) past h) (hr : h.running = true) :
    h.exchange = replay clock past := by
  induction ht with
  | start => rfl
  | @next past u v e _ hm ih =>
    obtain ⟨hrun, heffect⟩ := effect_of_meet? hm hr
    rw [heffect, ih hrun]
    unfold replay
    rw [List.foldl_append]
    rfl

end Traffic

/-! ## What a connection listens to -/

/-- The topics of a connection, as long as it is registered, have a property. -/
def Hub.Listening (h : Hub) (user : String) (k : ConnectionId) (P : List Topic → Prop) : Prop :=
  ∀ e ∈ h.exchange.registry, e.userId = user → e.connection = k → P e.topics

variable {user : String} {k : ConnectionId} {P : List Topic → Prop}

/-- A property of what a connection listens to comes with the request that is handled and goes
with it. -/
theorem Hub.Listening.handle {missed : List Lane} {t : Ticket} {r : Request}
    (hn : h.next? missed = some (t, r)) (hm : h.meet? (.handle missed) = some g)
    (hjoin : ∀ reg, r = .register reg → reg.identity.userId = user → reg.connection = k → P [])
    (hkeep : ∀ e ∈ h.exchange.registry, e.userId = user → e.connection = k → P (r.retopic e)) :
    g.Listening user k P := by
  intro e he hu hk
  cases met_of_meet? hm with
  | @handle _ _ t' r' hn' hh =>
    obtain ⟨rfl, rfl⟩ := Prod.mk.inj (Option.some.inj (hn'.symm.trans hn))
    rw [hh.exchange] at he
    rcases Exchange.mem_handled he with ⟨reg, hreg, rfl⟩ | ⟨e₀, he₀, hreg, htopics⟩
    · exact hjoin reg hreg hu hk
    · rw [htopics]
      have hu₀ : e₀.userId = user := (congrArg (·.identity.userId) hreg).trans hu
      have hk₀ : e₀.connection = k := (congrArg Registration.connection hreg).trans hk
      exact hkeep e₀ he₀ hu₀ hk₀
  | stop _ hk =>
    rw [hk.registry] at he
    cases he
  | outside _ _ hne => exact absurd rfl (hne missed)

/-- A property of what a connection listens to lasts if nothing that is handled ends it. -/
theorem Hub.Listening.traffic (ht : Traffic h past g) (hh : h.Listening user k P)
    (hjoin : ∀ p ∈ handled past, ∀ reg, p.2 = .register reg → reg.identity.userId = user →
      reg.connection = k → P [])
    (hkeep : ∀ p ∈ handled past, ∀ e : Entry, e.userId = user → e.connection = k →
      P e.topics → P (p.2.retopic e)) : g.Listening user k P := by
  induction ht with
  | start => exact hh
  | @next past u v e _ hm ih =>
    have hpast := handled_snoc past ⟨u, e⟩
    have hu := ih (fun p hp => hjoin p (hpast ▸ List.mem_append_left _ hp))
      (fun p hp => hkeep p (hpast ▸ List.mem_append_left _ hp))
    have hmet := met_of_meet? hm
    cases hmet with
    | issue r hk =>
      intro e he
      rw [hk.registry] at he
      exact hu e he
    | @handle _ missed t r hn _ =>
      have hin : (t, r) ∈ handled (past ++ [⟨u, .handle missed⟩]) := by
        rw [hpast]
        exact List.mem_append_right _ (Option.mem_toList.mpr hn)
      refine .handle hn hm (hjoin (t, r) hin) fun e he hu' hk' => ?_
      exact hkeep (t, r) hin e hu' hk' (hu e he hu' hk')
    | stop _ hk =>
      intro e he
      rw [hk.registry] at he
      cases he
    | outside f _ _ hreg =>
      intro e he
      have he : e ∈ (f u.exchange).registry := he
      rw [hreg] at he
      exact hu e he

end Histories

/-! ## Looks that overlook something -/

/-- The hub finds a request of the last lane by a look that misses a request of another lane, which
was issued before. -/
def Occasion.Overlooks (o : Occasion) : Prop :=
  ∃ t r, o.handles? = some (t, r) ∧ r.lane = .control ∧ r ≠ .shutdown ∧
    ∃ p ∈ o.hub.pending, p.2.lane ≠ .control ∧ p.1 < t

/-- A look that misses nothing overlooks nothing. -/
theorem Occasion.not_overlooks {o : Occasion}
    (he : ∀ missed, o.event = .handle missed → missed = []) : ¬ o.Overlooks := by
  rintro ⟨t, r, ho, hl, -, p, hp, hne, -⟩
  obtain ⟨missed, hevent, hn⟩ := o.next?_of_handles? ho
  have hmissed : p.2.lane ∉ missed := by
    rw [he missed hevent]
    exact List.not_mem_nil
  have hrank := Hub.next?_foremost hn hp hmissed
  rw [hl] at hrank
  exact hne (Lane.rank_injective (Nat.le_antisymm (Lane.rank_le_control _) hrank))

namespace Traffic

variable {clock : Time.Timestamp} {past : List Occasion} {h : Hub}

/-- What is found in the last lane was not to wait for anything in the lanes that the look did not
miss. -/
theorem handled_before_control (ht : Traffic (.start clock) past h) {missed : List Lane}
    {t : Ticket} {r : Request} (hn : h.next? missed = some (t, r)) (hl : r.lane = .control)
    {p : Ticket × Request} (hp : p ∈ issued past) (hne : p.2.lane ≠ .control)
    (hin : p.2.lane ∉ missed) : p ∈ handled past := by
  rcases ht.filed.handled_or_pending (ht.filed.running_of_next? hn) hp with hp | hp
  · exact hp
  · have hrank := Hub.next?_foremost hn hp hin
    rw [hl] at hrank
    exact absurd (Lane.rank_injective (Nat.le_antisymm (Lane.rank_le_control _) hrank)) hne

/-- If nothing is overlooked, what is handled of the last lane was issued before all that waits in
the others. -/
theorem lt_of_pending (ht : Traffic (.start clock) past h)
    (hno : ∀ o ∈ past, ¬ o.Overlooks) {p : Ticket × Request} (hp : p ∈ handled past)
    (hl : p.2.lane = .control) (hs : p.2 ≠ .shutdown) {q : Ticket × Request} (hq : q ∈ h.pending)
    (hne : q.2.lane ≠ .control) : p.1 < q.1 := by
  induction ht with
  | start => cases hp
  | @next past u v e hpast hm ih =>
    have ih := ih fun o ho => hno o (List.mem_append_left _ ho)
    rw [handled_snoc] at hp
    cases met_of_meet? hm with
    | issue r hk =>
      have hp : p ∈ handled past := (List.append_nil (handled past)) ▸ hp
      rw [hk.pending] at hq
      rcases Hub.mem_pending_enter hq with hq | ⟨hq, -⟩
      · exact ih hp hq
      · rw [hq]
        exact hpast.filed.lt_nextTicket (hpast.filed.issued_of_handled hp)
    | @handle _ missed t r hn hh =>
      rw [hh.pending] at hq
      obtain ⟨hq, hother⟩ := List.mem_filter.mp hq
      have ho : Occasion.handles? ⟨u, .handle missed⟩ = some (t, r) := hn
      rw [ho] at hp
      rcases List.mem_append.mp hp with hp | hp
      · exact ih hp hq
      · obtain rfl := List.mem_singleton.mp hp
        have hlook := hno _ (List.mem_append_right _ List.mem_cons_self)
        have hle : ¬ q.1 < t := fun hlt => hlook ⟨t, r, ho, hl, hs, q, hq, hne, hlt⟩
        exact Nat.lt_of_le_of_ne (Nat.le_of_not_lt hle) (Ne.symm (of_decide_eq_true hother))
    | stop _ hk =>
      rw [hk.pending] at hq
      cases hq
    | outside f _ hd _ =>
      rw [handles?_of_ne hd] at hp
      have hp : p ∈ handled past := (List.append_nil (handled past)) ▸ hp
      exact ih hp hq

end Traffic

/-! ## An answer, a frame and its turn -/

/-- A request is issued and answered that its connection is there; then a frame is issued for a
topic; then it is the frame's turn. -/
structure Scene (past : List Occasion) (r : Request) (t : Topic) where
  before : List Occasion
  asked : Occasion
  between : List Occasion
  published : Occasion
  since : List Occasion
  turn : Occasion
  after : List Occasion
  frame : Envelope
  past_eq : past = (before ++ asked :: between ++ published :: since) ++ turn :: after
  asks : asked.event = .issue r
  granted : published.hub.answer? asked.hub.nextTicket = some (.found true)
  publishes : published.event = .issue (.dispatch (.topic t) frame)
  comes : turn.handles? = some (published.hub.nextTicket, .dispatch (.topic t) frame)

namespace Scene

variable {clock : Time.Timestamp} {past : List Occasion} {h : Hub} {r : Request} {t : Topic}

/-- What happens before it is the frame's turn. -/
abbrev soFar (s : Scene past r t) : List Occasion :=
  s.before ++ s.asked :: s.between ++ s.published :: s.since

/-- What happens after the request until it is the frame's turn. -/
abbrev meanwhile (s : Scene past r t) : List Occasion :=
  s.between ++ s.published :: s.since

/-- What is handled from the request on until it is the frame's turn. -/
def handledSince (s : Scene past r t) : List (Ticket × Request) :=
  (handled s.soFar).dropWhile (·.1 ≠ s.asked.hub.nextTicket)

theorem traffic (s : Scene past r t) (ht : Traffic (.start clock) past h) :
    Traffic (.start clock) s.soFar s.turn.hub := by
  have ht := s.past_eq ▸ ht
  exact ht.upTo

theorem mem_issued (s : Scene past r t) : (s.asked.hub.nextTicket, r) ∈ issued s.soFar := by
  have ho : s.asked.issues? = some (s.asked.hub.nextTicket, r) := by
    unfold Occasion.issues?
    rw [s.asks]
  exact List.mem_filterMap.mpr ⟨s.asked, by simp, ho⟩

/-- The request is handled before the frame is issued. -/
theorem exists_handled (s : Scene past r t) (ht : Traffic (.start clock) past h) :
    ∃ a o b, s.soFar = a ++ o :: b ∧ o.handles? = some (s.asked.hub.nextTicket, r) := by
  have hw := (s.traffic ht).upTo
  obtain ⟨r', hr'⟩ := hw.filed.answered _ (Hub.mem_answers_of_answer? s.granted) (by simp)
  have hhandled : (s.asked.hub.nextTicket, r') ∈ handled s.soFar := by
    rw [handled_append]
    exact List.mem_append_left _ hr'
  have hissued := (s.traffic ht).filed.issued_of_handled hhandled
  obtain rfl := (s.traffic ht).request_unique hissued s.mem_issued
  obtain ⟨o, ho, hhandles⟩ := List.mem_filterMap.mp hhandled
  obtain ⟨a, b, hsplit⟩ := List.append_of_mem ho
  exact ⟨a, o, b, hsplit, hhandles⟩

theorem handledSince_eq (s : Scene past r t) (ht : Traffic (.start clock) past h)
    {a b : List Occasion} {o : Occasion} (hs : s.soFar = a ++ o :: b)
    (ho : o.handles? = some (s.asked.hub.nextTicket, r)) :
    s.handledSince = (s.asked.hub.nextTicket, r) :: handled b := by
  have hsplit : handled s.soFar = handled a ++ (s.asked.hub.nextTicket, r) :: handled b := by
    rw [hs, handled_append]
    exact congrArg _ (List.filterMap_cons_some ho)
  unfold handledSince
  rw [hsplit, List.dropWhile_append_of_pos, List.dropWhile_cons_of_neg (by simp)]
  intro p hp
  rw [decide_eq_true_eq]
  exact (hs ▸ s.traffic ht).ne_of_handled ho (Or.inl hp)

/-- What is handled of the last lane after the request was issued after it. -/
theorem mem_meanwhile (s : Scene past r t) (ht : Traffic (.start clock) past h)
    (hr : r.lane = .control) {p : Ticket × Request} (hp : p ∈ s.handledSince.tail)
    (hl : p.2.lane = .control) : p ∈ issued s.meanwhile := by
  obtain ⟨a, o, b, hs, ho⟩ := s.exists_handled ht
  have hsoFar := s.traffic ht
  rw [s.handledSince_eq ht hs ho] at hp
  have hp : p ∈ handled b := hp
  have hafter : s.asked.hub.nextTicket < p.1 :=
    (hs ▸ hsoFar).lt_of_handled ho hp (hl.trans hr.symm)
  have hin : p ∈ issued s.soFar := by
    refine hsoFar.filed.issued_of_handled ?_
    rw [hs, handled_append]
    exact List.mem_append_right _ (List.mem_filterMap.mpr
      (let ⟨o', ho', hh⟩ := List.mem_filterMap.mp hp
      ⟨o', List.mem_cons_of_mem _ ho', hh⟩))
  have hasked : s.asked.issues? = some (s.asked.hub.nextTicket, r) := by
    unfold Occasion.issues?
    rw [s.asks]
  have hcons : issued (s.asked :: s.meanwhile) =
      (s.asked.hub.nextTicket, r) :: issued s.meanwhile := List.filterMap_cons_some hasked
  have hparts : s.soFar = s.before ++ s.asked :: s.meanwhile := by simp
  rw [hparts, issued_append, hcons] at hin
  rcases List.mem_append.mp hin with hin | hin
  · have hlt := hsoFar.upTo.upTo.filed.lt_nextTicket hin
    exact absurd hafter (Nat.lt_asymm hlt)
  · rcases List.mem_cons.mp hin with rfl | hin
    · exact absurd hafter (Nat.lt_irrefl _)
    · exact hin

/-- If nothing is overlooked, it was issued before the frame, which waits in a lane before its
own. -/
theorem mem_between (s : Scene past r t) (ht : Traffic (.start clock) past h)
    (hno : ∀ o ∈ past, ¬ o.Overlooks) (hr : r.lane = .control) {p : Ticket × Request}
    (hp : p ∈ s.handledSince.tail) (hl : p.2.lane = .control) (hshut : p.2 ≠ .shutdown) :
    p ∈ issued s.between := by
  have hsoFar := s.traffic ht
  have hhandled : p ∈ handled s.soFar :=
    (List.dropWhile_sublist _).subset (List.mem_of_mem_tail hp)
  have hno : ∀ o ∈ s.soFar, ¬ o.Overlooks := fun o ho =>
    hno o (s.past_eq ▸ List.mem_append_left _ ho)
  obtain ⟨missed, -, hnext⟩ := Occasion.next?_of_handles? s.comes
  have hbefore : p.1 < s.published.hub.nextTicket :=
    hsoFar.lt_of_pending hno hhandled hl hshut (Hub.mem_pending_of_next? hnext)
      (by simp [Request.lane])
  have hin := s.mem_meanwhile ht hr hp hl
  rw [issued_append] at hin
  rcases List.mem_append.mp hin with hin | hin
  · exact hin
  · exact absurd hbefore (Nat.not_lt_of_le (hsoFar.nextTicket_le hsoFar.upTo hin))

/-- What a request of the last lane brings about for a connection is so when it is the frame's
turn, if nothing of its lane that is handled after it ends it. -/
theorem listening (s : Scene past r t) (ht : Traffic (.start clock) past h)
    (hr : r.lane = .control) {user : String} {k : ConnectionId} {P : List Topic → Prop}
    (hgives : ∀ e : Entry, e.userId = user → e.connection = k → P (r.retopic e))
    (hjoin : ∀ p ∈ s.handledSince, ∀ reg, p.2 = .register reg → reg.identity.userId = user →
      reg.connection = k → P [])
    (hkeep : ∀ p ∈ s.handledSince.tail, p.2.lane = .control → p.2 ≠ .shutdown →
      ∀ e : Entry, e.userId = user → e.connection = k → P e.topics → P (p.2.retopic e)) :
    s.turn.hub.Listening user k P := by
  obtain ⟨a, o, b, hs, ho⟩ := s.exists_handled ht
  obtain ⟨u, ha, hb⟩ := (hs ▸ s.traffic ht).split
  obtain ⟨rfl, v, hm, hb⟩ := hb.uncons
  have hsince := s.handledSince_eq ht hs ho
  rw [hsince] at hjoin hkeep
  obtain ⟨missed, hevent, hnext⟩ := Occasion.next?_of_handles? ho
  rw [hevent] at hm
  have hv : v.Listening user k P := by
    refine .handle hnext hm (fun reg heq => ?_) fun e _ => hgives e
    subst heq
    cases hr
  refine hv.traffic hb (fun p hp => hjoin p (List.mem_cons_of_mem _ hp)) ?_
  intro p hp e hu hk he
  by_cases hl : p.2.lane = .control
  · by_cases hshut : p.2 = .shutdown
    · rw [hshut]
      exact he
    · exact hkeep p hp hl hshut e hu hk he
  · rw [Request.retopic_of_lane hl]
    exact he

/-- A topic that is subscribed is listened to when it is the frame's turn, unless what is handled
after it unsubscribes it. -/
theorem selects {user : String} {k : ConnectionId} {topics : List Topic}
    (s : Scene past (.subscribe user k topics) t) (ht : Traffic (.start clock) past h)
    (hin : t ∈ topics)
    (hkeep : ∀ p ∈ s.handledSince.tail, p.2.lane = .control → p.2 ≠ .shutdown →
      ∀ gone, p.2 = .unsubscribe user k gone → t ∉ gone)
    (hsame : ∀ p ∈ s.handledSince, ∀ reg, p.2 = .register reg → reg.identity.userId = user →
      reg.connection ≠ k) :
    ∀ e ∈ s.turn.hub.exchange.registry, e.userId = user → e.connection = k →
      (Target.topic t).selects e = true := by
  intro e he hu hk
  have hlisten : s.turn.hub.Listening user k (t ∈ ·) := by
    refine s.listening ht rfl ?_ ?_ ?_
    · intro e hu hk
      unfold Request.retopic
      dsimp only
      rw [if_pos ⟨hu, hk⟩]
      exact Exchange.mem_foldl_addTopic.mpr (Or.inr hin)
    · exact fun p hp reg hreg hu hk => absurd hk (hsame p hp reg hreg hu)
    · rintro p hp hl hshut e rfl rfl hm
      exact Request.mem_retopic hm (hkeep p hp hl hshut)
  exact List.contains_iff_mem.mpr (hlisten e he hu hk)

/-- A topic that is unsubscribed is not listened to when it is the frame's turn, unless what is
handled after it subscribes it. -/
theorem not_selects {user : String} {k : ConnectionId} {gone : List Topic}
    (s : Scene past (.unsubscribe user k gone) t) (ht : Traffic (.start clock) past h)
    (hin : t ∈ gone)
    (hkeep : ∀ p ∈ s.handledSince.tail, p.2.lane = .control → p.2 ≠ .shutdown →
      ∀ topics, p.2 = .subscribe user k topics → t ∉ topics) :
    ∀ e ∈ s.turn.hub.exchange.registry, e.userId = user → e.connection = k →
      (Target.topic t).selects e = false := by
  intro e he hu hk
  have hlisten : s.turn.hub.Listening user k (t ∉ ·) := by
    refine s.listening ht rfl ?_ ?_ ?_
    · intro e hu hk
      unfold Request.retopic
      dsimp only
      rw [if_pos ⟨hu, hk⟩]
      simp [hin]
    · exact fun _ _ _ _ _ _ => List.not_mem_nil
    · rintro p hp hl hshut e rfl rfl hm
      exact Request.not_mem_retopic hm (hkeep p hp hl hshut)
  rw [Bool.eq_false_iff]
  exact fun hs => hlisten e he hu hk (List.contains_iff_mem.mp hs)

end Scene

/-! ## What can be relied on -/

/-- The order that the hub keeps among the requests of a history, whatever its looks miss. -/
structure Orderly (clock : Time.Timestamp) (past : List Occasion) (h : Hub) : Prop where
  /-- Requests are numbered as they are issued. -/
  tickets : (issued past).map Prod.fst = List.range h.nextTicket
  /-- Of every lane, those handled and those that wait are those issued, in the order of issue. -/
  inOrder : h.running = true → ∀ l, inLane l (issued past) = inLane l (handled past) ++ h.lane l
  /-- A hub that has stopped has handled the first of them. -/
  first : ∀ l, inLane l (handled past) <+: inLane l (issued past)
  /-- If no more is issued, the hub comes to all that waits. -/
  drains : ∃ rest g, Traffic h rest g ∧ (∀ o ∈ rest, o.event = .handle []) ∧ g.pending = []
  /-- The answer to a request of the last lane tells what all that was handled has made of the
  exchange. -/
  told : ∀ earlier o later t r, past = earlier ++ o :: later → o.handles? = some (t, r) →
    r.lane = .control → r ≠ .shutdown →
    ∃ g, o.hub.meet? o.event = some g ∧ g.answer? t = (replay clock earlier).answerTo? r
  /-- What is issued when an answer has been given is handled after what was answered. -/
  answers : ∀ earlier o later r t a, past = earlier ++ o :: later → o.event = .issue r →
    o.hub.answer? t = some a → a ≠ .unavailable →
    (∃ r', (t, r') ∈ handled earlier) ∧ ∀ r', (o.hub.nextTicket, r') ∉ handled earlier
  /-- A frame that is issued when a subscription has been answered is meant for the connection,
  unless that is unsubscribed before it is the frame's turn or has registered anew. -/
  subscribed : ∀ user k topics t (s : Scene past (.subscribe user k topics) t), t ∈ topics →
    (∀ p ∈ issued s.meanwhile, ∀ gone, p.2 = .unsubscribe user k gone → t ∉ gone) →
    (∀ p ∈ s.handledSince, ∀ reg, p.2 = .register reg → reg.identity.userId = user →
      reg.connection ≠ k) →
    ∀ e ∈ s.turn.hub.exchange.registry, e.userId = user → e.connection = k →
      (Target.topic t).selects e = true
  /-- A frame that is issued when an unsubscription has been answered is not meant for the
  connection, unless that is subscribed before it is the frame's turn. -/
  unsubscribed : ∀ user k gone t (s : Scene past (.unsubscribe user k gone) t), t ∈ gone →
    (∀ p ∈ issued s.meanwhile, ∀ topics, p.2 = .subscribe user k topics → t ∉ topics) →
    ∀ e ∈ s.turn.hub.exchange.registry, e.userId = user → e.connection = k →
      (Target.topic t).selects e = false

/-- What the last lane is there for: its requests wait for all that was issued before them, and
nothing that is issued after a frame decides about it. -/
structure Reflects (past : List Occasion) : Prop where
  /-- When a request of the last lane is handled, everything of the other lanes that was issued
  before it has been handled. -/
  handled : ∀ earlier o later t r, past = earlier ++ o :: later → o.handles? = some (t, r) →
    r.lane = .control → r ≠ .shutdown →
    ∀ p ∈ issued earlier, p.1 < t → p.2.lane ≠ .control → p ∈ handled earlier
  /-- A frame that is issued when a subscription has been answered is meant for the connection,
  unless that has been unsubscribed in between or has registered anew. -/
  subscribed : ∀ user k topics t (s : Scene past (.subscribe user k topics) t), t ∈ topics →
    (∀ p ∈ issued s.between, ∀ gone, p.2 = .unsubscribe user k gone → t ∉ gone) →
    (∀ p ∈ s.handledSince, ∀ reg, p.2 = .register reg → reg.identity.userId = user →
      reg.connection ≠ k) →
    ∀ e ∈ s.turn.hub.exchange.registry, e.userId = user → e.connection = k →
      (Target.topic t).selects e = true
  /-- A frame that is issued when an unsubscription has been answered is not meant for the
  connection, unless that has been subscribed in between. -/
  unsubscribed : ∀ user k gone t (s : Scene past (.unsubscribe user k gone) t), t ∈ gone →
    (∀ p ∈ issued s.between, ∀ topics, p.2 = .subscribe user k topics → t ∉ topics) →
    ∀ e ∈ s.turn.hub.exchange.registry, e.userId = user → e.connection = k →
      (Target.topic t).selects e = false

section Results

variable {clock : Time.Timestamp} {past : List Occasion} {h : Hub}

namespace Traffic

theorem orderly (ht : Traffic (.start clock) past h) : Orderly clock past h where
  tickets := ht.filed.tickets
  inOrder := ht.filed.inOrder
  first := ht.filed.first
  drains := Traffic.drains h
  told := by
    rintro earlier o later t r rfl ho hl hr
    obtain ⟨missed, hevent, hn⟩ := Occasion.next?_of_handles? ho
    have hu := ht.upTo
    have hstep : o.hub.step? missed = some ((o.hub.take t).handle t r) := by
      unfold Hub.step?
      rw [hn]
    rw [hevent]
    refine ⟨_, hstep, ?_⟩
    rw [← hu.exchange_eq (hu.filed.running_of_next? hn)]
    exact (o.hub.take t).answer?_control t hl hr
  answers := by
    rintro earlier o later r t a rfl - ha hne
    have hu := ht.upTo
    refine ⟨hu.filed.answered _ (Hub.mem_answers_of_answer? ha) hne, fun r' hr' => ?_⟩
    exact Nat.lt_irrefl _ (hu.filed.lt_nextTicket (hu.filed.issued_of_handled hr'))
  subscribed := by
    intro user k topics t s hin hkeep
    exact s.selects ht hin fun p hp hl _ => hkeep p (s.mem_meanwhile ht rfl hp hl)
  unsubscribed := by
    intro user k gone t s hin hkeep
    exact s.not_selects ht hin fun p hp hl _ => hkeep p (s.mem_meanwhile ht rfl hp hl)

theorem reflects (ht : Traffic (.start clock) past h) (hno : ∀ o ∈ past, ¬ o.Overlooks) :
    Reflects past where
  handled := by
    rintro earlier o later t r rfl ho hl hshut p hp hlt hne
    obtain ⟨missed, -, hn⟩ := Occasion.next?_of_handles? ho
    have hu := ht.upTo
    rcases hu.filed.handled_or_pending (hu.filed.running_of_next? hn) hp with hp | hp
    · exact hp
    · have hlook := hno o (List.mem_append_right _ List.mem_cons_self)
      exact absurd ⟨t, r, ho, hl, hshut, p, hp, hne, hlt⟩ hlook
  subscribed := by
    intro user k topics t s hin hkeep
    exact s.selects ht hin fun p hp hl hshut => hkeep p (s.mem_between ht hno rfl hp hl hshut)
  unsubscribed := by
    intro user k gone t s hin hkeep
    exact s.not_selects ht hin fun p hp hl hshut => hkeep p (s.mem_between ht hno rfl hp hl hshut)

/-- What is overlooked has not been handled when the request that overtakes it is. -/
theorem not_overlooks_of_reflects (ht : Traffic (.start clock) past h) (hr : Reflects past)
    {o : Occasion} (ho : o ∈ past) : ¬ o.Overlooks := by
  rintro ⟨t, r, hhandles, hl, hshut, p, hp, hne, hlt⟩
  obtain ⟨earlier, later, rfl⟩ := List.append_of_mem ho
  obtain ⟨missed, -, hn⟩ := Occasion.next?_of_handles? hhandles
  have hu := ht.upTo
  have hissued := hu.filed.pending.subset hp
  have hhandled := hr.handled earlier o later t r rfl hhandles hl hshut p hissued hlt hne
  exact hu.ne_of_pending (hu.filed.running_of_next? hn) hhandled hp rfl

end Traffic

/--
**What order survives.** Whoever issues requests, whenever the hub handles them and whatever its
looks miss: every lane keeps its order, and what is issued upon an answer comes after what was
answered. So a frame that is published upon the answer to a subscription is meant for the
connection, and one that is published upon the answer to an unsubscription is not, if nothing that
is issued before its turn changes that.

An answer reflects all that was issued before its request in the other lanes, and only what was
issued before a frame decides about it, if and only if no look overlooks anything.
-/
theorem orderly_and_reflects_iff_not_overlooks (ht : Traffic (.start clock) past h) :
    Orderly clock past h ∧ (Reflects past ↔ ∀ o ∈ past, ¬ o.Overlooks) :=
  ⟨ht.orderly, fun hr _ => ht.not_overlooks_of_reflects hr, ht.reflects⟩

end Results

/-! ## Overtaking -/

namespace Overtaking

def clock : Time.Timestamp := ⟨⟨2024, 1, 1⟩, 0, 0, 0, 0⟩

def note : Envelope := .wrap clock (.event (.postDeleted "1"))

def ann : Registration := ⟨0, ⟨"ann", "Ann", false⟩, 0⟩

/-- The hub as Ann registers, -/
def coming : Hub := ((Hub.start clock).update fun x => { x with mail := (x.mail.create 4).2 })

/-- and subscribes, -/
def subscribing : Hub := ((coming.issue (.register ann)).2.take 0).handle 0 (.register ann)

/-- and has been answered. -/
def answered : Hub :=
  ((subscribing.issue (.subscribe "ann" 0 [.posts])).2.take 1).handle 1
    (.subscribe "ann" 0 [.posts])

/-- Somebody asks for Bob, and then a note is published, -/
def publishing : Hub := (answered.issue (.isOnline "bob")).2

/-- and Ann unsubscribes. -/
def leaving : Hub := (publishing.issue (.dispatch (.topic .posts) note)).2

/-- The note comes first. -/
def turning : Hub := (leaving.issue (.unsubscribe "ann" 0 [.posts])).2

def delivered : Hub := (turning.take 3).handle 3 (.dispatch (.topic .posts) note)

def past : List Occasion :=
  [⟨.start clock, .tend fun m => (m.create 4).2⟩, ⟨coming, .issue (.register ann)⟩,
    ⟨(coming.issue (.register ann)).2, .handle []⟩,
    ⟨subscribing, .issue (.subscribe "ann" 0 [.posts])⟩,
    ⟨(subscribing.issue (.subscribe "ann" 0 [.posts])).2, .handle []⟩,
    ⟨answered, .issue (.isOnline "bob")⟩,
    ⟨publishing, .issue (.dispatch (.topic .posts) note)⟩,
    ⟨leaving, .issue (.unsubscribe "ann" 0 [.posts])⟩, ⟨turning, .handle []⟩]

theorem traffic : Traffic (.start clock) past delivered :=
  .cons rfl (.cons rfl (.cons rfl (.cons rfl (.cons rfl (.cons rfl (.cons rfl (.cons rfl
    (.cons rfl .start))))))))

def scene : Scene past (.subscribe "ann" 0 [.posts]) .posts where
  before := past.take 3
  asked := ⟨subscribing, .issue (.subscribe "ann" 0 [.posts])⟩
  between := (past.drop 4).take 2
  published := ⟨publishing, .issue (.dispatch (.topic .posts) note)⟩
  since := (past.drop 7).take 1
  turn := ⟨turning, .handle []⟩
  after := []
  frame := note
  past_eq := rfl
  asks := rfl
  granted := by decide +kernel
  publishes := rfl
  comes := rfl

theorem issued_between_eq : issued scene.between = [(2, .isOnline "bob")] := rfl

theorem handledSince_eq : scene.handledSince = [(1, .subscribe "ann" 0 [.posts])] := rfl

theorem connected : turning.exchange.registry.map (fun e => (e.userId, e.connection)) =
    [("ann", 0)] := by decide +kernel

theorem not_overlooks : ∀ o ∈ past, ¬ o.Overlooks := by
  intro o ho
  refine Occasion.not_overlooks fun missed he => ?_
  simp only [past, List.mem_cons, List.not_mem_nil, or_false] at ho
  rcases ho with rfl | rfl | rfl | rfl | rfl | rfl | rfl | rfl | rfl <;> cases he <;> rfl

end Overtaking

/-- The note that is published when Ann has been told that she is subscribed overtakes the request
before it, is not overtaken by the one after it, and is meant for her. -/
theorem orderly_and_reflects_overtaking :
    Traffic (.start Overtaking.clock) Overtaking.past Overtaking.delivered ∧
      Orderly Overtaking.clock Overtaking.past Overtaking.delivered ∧ Reflects Overtaking.past ∧
      Overtaking.delivered.pending =
        [(2, .isOnline "bob"), (4, .unsubscribe "ann" 0 [.posts])] ∧
      ∃ e ∈ Overtaking.turning.exchange.registry, (Target.topic .posts).selects e = true := by
  obtain ⟨ho, hiff⟩ := orderly_and_reflects_iff_not_overlooks Overtaking.traffic
  have hr := hiff.mpr Overtaking.not_overlooks
  refine ⟨Overtaking.traffic, ho, hr, rfl, ?_⟩
  have hin : ("ann", 0) ∈
      Overtaking.turning.exchange.registry.map (fun e => (e.userId, e.connection)) := by
    rw [Overtaking.connected]
    exact List.mem_cons_self
  obtain ⟨e, he, heq⟩ := List.mem_map.mp hin
  obtain ⟨hu, hk⟩ := Prod.mk.inj heq
  refine ⟨e, he, hr.subscribed "ann" 0 [.posts] .posts Overtaking.scene List.mem_cons_self ?_ ?_
    e he hu hk⟩
  · rw [Overtaking.issued_between_eq]
    intro p hp gone hg
    obtain rfl := List.mem_singleton.mp hp
    cases hg
  · rw [Overtaking.handledSince_eq]
    intro p hp reg hr
    obtain rfl := List.mem_singleton.mp hp
    cases hr

/-! ## Overlooking -/

namespace Overlooking

open Overtaking (clock ann coming)

/-- Ann is there, -/
def there : Hub := ((coming.issue (.register ann)).2.take 0).handle 0 (.register ann)

/-- and leaves. Whoever lets go of her then asks for her. -/
def leaving : Hub := (there.issue (.unregister "ann" 0)).2

/-- Both come in when the hub, looking for a request, has passed the lane of the first. -/
def looking : Hub := (leaving.issue (.isOnline "ann")).2

def told : Hub := (looking.take 2).handle 2 (.isOnline "ann")

def past : List Occasion :=
  [⟨.start clock, .tend fun m => (m.create 4).2⟩, ⟨coming, .issue (.register ann)⟩,
    ⟨(coming.issue (.register ann)).2, .handle []⟩, ⟨there, .issue (.unregister "ann" 0)⟩,
    ⟨leaving, .issue (.isOnline "ann")⟩, ⟨looking, .handle [.unregistration]⟩]

theorem traffic : Traffic (.start clock) past told :=
  .cons rfl (.cons rfl (.cons rfl (.cons rfl (.cons rfl (.cons rfl .start)))))

theorem overlooks : Occasion.Overlooks ⟨looking, .handle [.unregistration]⟩ :=
  ⟨2, .isOnline "ann", rfl, rfl, by simp, (1, .unregister "ann" 0), List.mem_cons_self,
    by simp [Request.lane], by decide⟩

end Overlooking

/-- A caller unregisters Ann and then asks for her, and is told that she is there: the query has
been answered while the removal, which was issued before it, still waits. -/
theorem query_answered_before_unregistration :
    Traffic (.start Overtaking.clock) Overlooking.past Overlooking.told ∧
      issued Overlooking.past =
        [(0, .register Overtaking.ann), (1, .unregister "ann" 0), (2, .isOnline "ann")] ∧
      handled Overlooking.past = [(0, .register Overtaking.ann), (2, .isOnline "ann")] ∧
      Overlooking.told.answer? 2 = some (.online true) ∧ ¬ Reflects Overlooking.past := by
  refine ⟨Overlooking.traffic, rfl, rfl, by decide +kernel, fun hr => ?_⟩
  exact Overlooking.traffic.not_overlooks_of_reflects hr (by simp [Overlooking.past])
    Overlooking.overlooks

end Switchboard
