import Switchboard.Proofs.Lanes

/-!
# Traffic

A history of a hub on its own. Whoever has a handle on it issues requests, it handles them one at a
time, and things happen to the queues from outside, all in any order. The lanes are looked into in
turn, and a look may miss what has come in meanwhile, so a request can overtake others that were
issued before it; what no request can do is to overtake one of its own lane.

`Filed` keeps account of that: where every request is that was issued, and that of every lane those
that were issued first have been handled and the others wait.
-/

namespace Switchboard

open Exchange

/-- What can happen to a hub. -/
inductive Occurrence where
  | issue (r : Request)
  /-- The hub handles the request that it finds next by a look that misses some lanes. -/
  | handle (missed : List Lane)
  /-- Something happens to the queues from outside: they are made, emptied, closed or let go of. -/
  | tend (f : Mail → Mail)
  | setClock (clock : Time.Timestamp)

/-- The hub after an occurrence, if that can be: handling takes a request that waits. -/
def Hub.meet? (h : Hub) : Occurrence → Option Hub
  | .issue r => some (h.issue r).2
  | .handle missed => h.step? missed
  | .tend f => some (h.update fun x => { x with mail := f x.mail })
  | .setClock clock => some (h.update fun x => { x with clock })

/-- An occurrence and the hub that met it. -/
structure Occasion where
  hub : Hub
  event : Occurrence

namespace Occasion

/-- The request that is issued, with its ticket. -/
def issues? (o : Occasion) : Option (Ticket × Request) :=
  match o.event with
  | .issue r => some (o.hub.nextTicket, r)
  | _ => none

/-- The request that is handled, with its ticket. -/
def handles? (o : Occasion) : Option (Ticket × Request) :=
  match o.event with
  | .handle missed => o.hub.next? missed
  | _ => none

end Occasion

/-- `Traffic h₀ past h`: the occurrences of `past` lead from `h₀` to `h`. -/
inductive Traffic (h₀ : Hub) : List Occasion → Hub → Prop
  | start : Traffic h₀ [] h₀
  | next {past : List Occasion} {h g : Hub} {e : Occurrence} :
      Traffic h₀ past h → h.meet? e = some g → Traffic h₀ (past ++ [⟨h, e⟩]) g

namespace Traffic

/-- Everything that was issued, in order. -/
def issued (past : List Occasion) : List (Ticket × Request) := past.filterMap Occasion.issues?

/-- Everything that was handled, in order. -/
def handled (past : List Occasion) : List (Ticket × Request) := past.filterMap Occasion.handles?

/-- The requests of one lane. -/
def inLane (l : Lane) (ps : List (Ticket × Request)) : List (Ticket × Request) :=
  ps.filter (·.2.lane = l)

theorem issued_append (a b : List Occasion) : issued (a ++ b) = issued a ++ issued b :=
  List.filterMap_append

theorem handled_append (a b : List Occasion) : handled (a ++ b) = handled a ++ handled b :=
  List.filterMap_append

theorem inLane_append (l : Lane) (ps qs : List (Ticket × Request)) :
    inLane l (ps ++ qs) = inLane l ps ++ inLane l qs := List.filter_append ..

theorem mem_inLane {l : Lane} {ps : List (Ticket × Request)} {p : Ticket × Request} :
    p ∈ inLane l ps ↔ p ∈ ps ∧ p.2.lane = l := by
  unfold inLane
  rw [List.mem_filter, decide_eq_true_eq]

/-! ## Parts of a history -/

variable {h₀ h g : Hub} {past a b : List Occasion} {o : Occasion} {e : Occurrence}

theorem split (ht : Traffic h₀ (a ++ b) h) : ∃ u, Traffic h₀ a u ∧ Traffic u b h := by
  generalize hp : a ++ b = past at ht
  -- a history grows at its end, so it is the end of `b` that the last occasion is taken from
  induction ht generalizing b with
  | start =>
    obtain ⟨rfl, rfl⟩ := List.append_eq_nil_iff.mp hp
    exact ⟨h₀, .start, .start⟩
  | @next past u g e hpast hm ih =>
    rcases List.eq_nil_or_concat b with rfl | ⟨b, x, rfl⟩
    · rw [List.append_nil] at hp
      rw [hp]
      exact ⟨g, hpast.next hm, .start⟩
    · rw [List.concat_eq_append, ← List.append_assoc] at hp
      obtain ⟨hp, hx⟩ := List.append_inj' hp rfl
      obtain ⟨v, ha, hb⟩ := ih hp
      rw [List.concat_eq_append, List.singleton_inj.mp hx]
      exact ⟨v, ha, hb.next hm⟩

theorem eq_of_nil (ht : Traffic h₀ [] h) : h = h₀ := by
  generalize hp : [] = past at ht
  cases ht with
  | start => rfl
  | next _ _ => simp at hp

/-- A history goes on with what the hub then met. -/
theorem uncons (ht : Traffic h₀ (o :: b) h) :
    o.hub = h₀ ∧ ∃ u, h₀.meet? o.event = some u ∧ Traffic u b h := by
  obtain ⟨u, hm, hb⟩ := split (a := [o]) ht
  generalize hl : [o] = past at hm
  cases hm with
  | start => simp at hl
  | @next past v _ e hpast hmeet =>
    have hl : [] ++ [o] = past ++ [⟨v, e⟩] := hl
    obtain ⟨rfl, hx⟩ := List.append_inj' hl rfl
    obtain rfl := List.singleton_inj.mp hx
    obtain rfl := eq_of_nil hpast
    exact ⟨rfl, u, hmeet, hb⟩

theorem trans {u : Hub} (ha : Traffic h₀ a u) (hb : Traffic u b h) : Traffic h₀ (a ++ b) h := by
  induction hb with
  | start =>
    rw [List.append_nil]
    exact ha
  | next _ hm ih =>
    rw [← List.append_assoc]
    exact ih.next hm

theorem cons {u : Hub} (hm : h₀.meet? e = some u) (ht : Traffic u b h) :
    Traffic h₀ (⟨h₀, e⟩ :: b) h := (Traffic.start.next hm).trans ht

/-- The history up to an occasion leads to the hub that met it. -/
theorem upTo (ht : Traffic h₀ (a ++ o :: b) h) : Traffic h₀ a o.hub := by
  obtain ⟨u, ha, hb⟩ := ht.split
  rw [hb.uncons.1]
  exact ha

/-! ## What an occurrence does -/

/-- `Met h e g`: what requests can tell of a hub `h` that becomes `g` by `e`. -/
inductive Met (h : Hub) : Occurrence → Hub → Prop
  | issue {g : Hub} (r : Request) : (h.enter (some r)).Keeps g → Met h (.issue r) g
  | handle {g : Hub} {missed : List Lane} {t : Ticket} {r : Request} :
      h.next? missed = some (t, r) → h.Handled t r g → Met h (.handle missed) g
  | stop {g : Hub} {missed : List Lane} {t : Ticket} :
      h.next? missed = some (t, .shutdown) →
      ({ h with exchange := { h.exchange with registry := [] }, running := false, pending := [] }
        : Hub).Keeps g → Met h (.handle missed) g
  | outside {e : Occurrence} (f : Exchange → Exchange) :
      (∀ r, e ≠ .issue r) → (∀ missed, e ≠ .handle missed) →
      (f h.exchange).registry = h.exchange.registry → Met h e (h.update f)

theorem met_of_meet? (hm : h.meet? e = some g) : Met h e g := by
  cases e with
  | issue r =>
    obtain rfl := Option.some.inj hm
    exact .issue r (h.keeps_issue r)
  | handle =>
    obtain ⟨t, r, hn, rfl⟩ := Hub.step?_eq_some hm
    by_cases hr : r = .shutdown
    · subst hr
      exact .stop hn (h.take t).keeps_stop
    · exact .handle hn (h.handled_handle t hr)
  | tend f =>
    obtain rfl := Option.some.inj hm
    exact .outside _ (by simp) (by simp) rfl
  | setClock clock =>
    obtain rfl := Option.some.inj hm
    exact .outside (fun x => { x with clock }) (by simp) (by simp) rfl

theorem issues?_of_ne (he : ∀ r, e ≠ .issue r) : Occasion.issues? ⟨h, e⟩ = none := by
  cases e with
  | issue r => exact absurd rfl (he r)
  | handle | tend | setClock => rfl

theorem handles?_of_ne (he : ∀ missed, e ≠ .handle missed) :
    Occasion.handles? ⟨h, e⟩ = none := by
  cases e with
  | handle missed => exact absurd rfl (he missed)
  | issue | tend | setClock => rfl

theorem issued_snoc (past : List Occasion) (o : Occasion) :
    issued (past ++ [o]) = issued past ++ o.issues?.toList :=
  filterMap_snoc Occasion.issues? past o

theorem handled_snoc (past : List Occasion) (o : Occasion) :
    handled (past ++ [o]) = handled past ++ o.handles?.toList :=
  filterMap_snoc Occasion.handles? past o

/-! ## Where the requests are -/

/-- How the hub's lanes and answers agree with a history. -/
structure Filed (past : List Occasion) (h : Hub) : Prop where
  /-- Requests are numbered as they are issued. -/
  tickets : (issued past).map Prod.fst = List.range h.nextTicket
  /-- Of every lane, those handled and those that wait are those issued, in the order of issue. -/
  inOrder : h.running = true → ∀ l, inLane l (issued past) = inLane l (handled past) ++ h.lane l
  /-- A hub that has stopped has handled the first of them. -/
  first : ∀ l, inLane l (handled past) <+: inLane l (issued past)
  pending : h.pending.Sublist (issued past)
  stopped : h.running = false → h.pending = []
  answered : ∀ p ∈ h.answers, p.2 ≠ .unavailable → ∃ r, (p.1, r) ∈ handled past

namespace Filed

theorem sorted (hf : Filed past h) : (issued past).Pairwise fun p q => p.1 < q.1 := by
  have hr : (List.range h.nextTicket).Pairwise (· < ·) := List.pairwise_lt_range
  rw [← hf.tickets] at hr
  exact List.pairwise_map.mp hr

theorem lt_nextTicket (hf : Filed past h) {p : Ticket × Request} (hp : p ∈ issued past) :
    p.1 < h.nextTicket := by
  have hm := List.mem_map_of_mem (f := Prod.fst) hp
  rw [hf.tickets] at hm
  exact List.mem_range.mp hm

theorem pending_lt (hf : Filed past h) {p : Ticket × Request} (hp : p ∈ h.pending) :
    p.1 < h.nextTicket :=
  hf.lt_nextTicket (hf.pending.subset hp)

theorem issued_of_handled (hf : Filed past h) {p : Ticket × Request} (hp : p ∈ handled past) :
    p ∈ issued past :=
  (mem_inLane.mp ((hf.first p.2.lane).subset (mem_inLane.mpr ⟨hp, rfl⟩))).1

theorem running_of_next? (hf : Filed past h) {missed : List Lane} {p : Ticket × Request}
    (hn : h.next? missed = some p) : h.running = true := by
  by_contra hr
  have hempty := hf.stopped (Bool.eq_false_iff.mpr hr)
  have hm := Hub.mem_pending_of_next? hn
  rw [hempty] at hm
  cases hm

/-- What was issued has been handled or waits, until the hub stops. -/
theorem handled_or_pending (hf : Filed past h) (hr : h.running = true) {p : Ticket × Request}
    (hp : p ∈ issued past) : p ∈ handled past ∨ p ∈ h.pending := by
  have hl := mem_inLane.mpr ⟨hp, rfl⟩
  rw [hf.inOrder hr p.2.lane] at hl
  rcases List.mem_append.mp hl with hl | hl
  · exact Or.inl (mem_inLane.mp hl).1
  · exact Or.inr (mem_inLane.mp hl).1

theorem start (clock : Time.Timestamp) : Filed [] (.start clock) where
  tickets := rfl
  inOrder _ _ := rfl
  first _ := List.prefix_rfl
  pending := List.Sublist.refl _
  stopped _ := rfl
  answered p hp := by cases hp

theorem issue (hf : Filed past h) {r : Request} (hk : (h.enter (some r)).Keeps g) :
    Filed (past ++ [⟨h, .issue r⟩]) g := by
  have hi : issued (past ++ [⟨h, .issue r⟩]) = issued past ++ [(h.nextTicket, r)] :=
    issued_snoc past _
  have hd : handled (past ++ [⟨h, .issue r⟩]) = handled past := by
    rw [handled_snoc]
    exact List.append_nil _
  have hrun : g.running = h.running := hk.running
  refine ⟨?tickets, ?inOrder, ?first, ?pending, ?stopped, ?answered⟩
  case tickets =>
    rw [hi, hk.nextTicket, List.map_append, hf.tickets]
    exact (List.range_succ ..).symm
  case inOrder =>
    intro hr l
    rw [hrun] at hr
    have hpend : g.pending = h.pending ++ [(h.nextTicket, r)] := by
      rw [hk.pending]
      exact if_pos hr
    show _ = _ ++ inLane l g.pending
    rw [hi, hd, hpend, inLane_append, inLane_append, ← List.append_assoc, hf.inOrder hr l]
    rfl
  case first =>
    intro l
    rw [hi, hd, inLane_append]
    exact (hf.first l).trans (List.prefix_append _ _)
  case pending =>
    rw [hi, hk.pending]
    unfold Hub.enter
    dsimp only
    split
    · exact hf.pending.append (List.Sublist.refl _)
    · exact hf.pending.trans (List.sublist_append_left _ _)
  case stopped =>
    intro hr
    rw [hrun] at hr
    rw [hk.pending]
    unfold Hub.enter
    dsimp only
    rw [hr]
    exact hf.stopped hr
  case answered =>
    intro p hp hu
    rw [hd]
    rcases hk.answers p hp with hp | hp
    · exact hf.answered p hp hu
    · exact absurd hp hu

/-- The next request leaves its lane, and the others are as they were. -/
theorem inLane_take (hf : Filed past h) {missed : List Lane} {t : Ticket} {r : Request}
    (hn : h.next? missed = some (t, r)) (l : Lane) : inLane l h.pending =
      (if r.lane = l then [(t, r)] else []) ++ inLane l (h.pending.filter (·.1 ≠ t)) := by
  obtain ⟨⟨before, after, hp, hb⟩, -⟩ := Hub.next?_spec hn
  have hs := hf.sorted.sublist hf.pending
  rw [hp] at hs
  obtain ⟨-, hs, hcross⟩ := List.pairwise_append.mp hs
  have hbefore : before.filter (·.1 ≠ t) = before := by
    rw [List.filter_eq_self]
    intro p hm
    have := hcross p hm (t, r) List.mem_cons_self
    exact decide_eq_true (Nat.ne_of_lt this)
  have hafter : after.filter (·.1 ≠ t) = after := by
    rw [List.filter_eq_self]
    intro p hm
    have := (List.pairwise_cons.mp hs).1 p hm
    exact decide_eq_true (Nat.ne_of_gt this)
  have htake : h.pending.filter (·.1 ≠ t) = before ++ after := by
    rw [hp, List.filter_append, hbefore, List.filter_cons_of_neg (by simp), hafter]
  rw [htake, hp, inLane_append, inLane_append]
  by_cases hl : r.lane = l
  · have hnone : inLane l before = [] := by
      unfold inLane
      rw [List.filter_eq_nil_iff]
      intro p hm heq
      exact hb p hm ((of_decide_eq_true heq).trans hl.symm)
    have hcons : inLane l ((t, r) :: after) = (t, r) :: inLane l after :=
      List.filter_cons_of_pos (decide_eq_true hl)
    rw [hnone, if_pos hl, hcons]
    rfl
  · have hcons : inLane l ((t, r) :: after) = inLane l after :=
      List.filter_cons_of_neg (by simpa using hl)
    rw [if_neg hl, hcons]
    rfl

/-- A request is handled; `g` may have let go of what waits behind it. -/
theorem handle (hf : Filed past h) {missed : List Lane} {t : Ticket} {r : Request}
    (hn : h.next? missed = some (t, r)) (hnext : g.nextTicket = h.nextTicket)
    (hsub : g.pending.Sublist (h.pending.filter (·.1 ≠ t)))
    (hrun : g.running = true → g.pending = h.pending.filter (·.1 ≠ t))
    (hstop : g.running = false → g.pending = [])
    (hans : ∀ p ∈ g.answers, p ∈ h.answers ∨ p.1 = t ∨ p.2 = .unavailable) :
    Filed (past ++ [⟨h, .handle missed⟩]) g := by
  have hi : issued (past ++ [⟨h, .handle missed⟩]) = issued past := by
    rw [issued_snoc]
    exact List.append_nil _
  have hd : handled (past ++ [⟨h, .handle missed⟩]) = handled past ++ [(t, r)] := by
    rw [handled_snoc]
    show _ ++ (h.next? missed).toList = _
    rw [hn]
    rfl
  have hhead : ∀ l, inLane l [(t, r)] = if r.lane = l then [(t, r)] else [] := by
    intro l
    unfold inLane
    rw [List.filter_singleton, Bool.cond_decide]
  have hlanes : ∀ l, inLane l (issued past) =
      inLane l (handled past ++ [(t, r)]) ++ inLane l (h.pending.filter (·.1 ≠ t)) := by
    intro l
    have hl := hf.inOrder (hf.running_of_next? hn) l
    rw [hl, inLane_append, hhead, List.append_assoc, ← hf.inLane_take hn l]
    rfl
  refine ⟨?tickets, ?inOrder, ?first, ?pending, hstop, ?answered⟩
  case tickets =>
    rw [hi, hnext]
    exact hf.tickets
  case inOrder =>
    intro hr l
    show _ = _ ++ inLane l g.pending
    rw [hi, hd, hrun hr]
    exact hlanes l
  case first =>
    intro l
    rw [hi, hd]
    exact ⟨_, (hlanes l).symm⟩
  case pending =>
    rw [hi]
    exact hsub.trans (List.filter_sublist.trans hf.pending)
  case answered =>
    intro p hp hu
    rw [hd]
    rcases hans p hp with hp | hp | hp
    · obtain ⟨r', hr'⟩ := hf.answered p hp hu
      exact ⟨r', List.mem_append_left _ hr'⟩
    · exact ⟨r, List.mem_append_right _ (List.mem_singleton.mpr (congrArg (·, r) hp))⟩
    · exact absurd hp hu

theorem step (hf : Filed past h) (hm : Met h e g) : Filed (past ++ [⟨h, e⟩]) g := by
  cases hm with
  | issue r hk => exact hf.issue hk
  | handle hn hh =>
    refine hf.handle hn hh.nextTicket (hh.pending ▸ List.Sublist.refl _) (fun _ => hh.pending) ?_ ?_
    · intro hr
      rw [hh.running, hf.running_of_next? hn] at hr
      cases hr
    · intro p hp
      rcases hh.answers p hp with hp | hp
      · exact Or.inl hp
      · exact Or.inr (Or.inl hp)
  | stop hn hk =>
    have hempty : g.pending = [] := hk.pending
    refine hf.handle hn hk.nextTicket (hempty ▸ List.nil_sublist _) ?_ (fun _ => hempty) ?_
    · intro hr
      rw [hk.running] at hr
      cases hr
    · intro p hp
      rcases hk.answers p hp with hp | hp
      · exact Or.inl hp
      · exact Or.inr (Or.inr hp)
  | outside f hi hd hreg =>
    have hissued : issued (past ++ [⟨h, e⟩]) = issued past := by
      rw [issued_snoc, issues?_of_ne hi]
      exact List.append_nil _
    have hhandled : handled (past ++ [⟨h, e⟩]) = handled past := by
      rw [handled_snoc, handles?_of_ne hd]
      exact List.append_nil _
    refine ⟨?tickets, ?inOrder, ?first, ?pending, hf.stopped, ?answered⟩
    case tickets =>
      rw [hissued]
      exact hf.tickets
    case inOrder =>
      rw [hissued, hhandled]
      exact hf.inOrder
    case first =>
      rw [hissued, hhandled]
      exact hf.first
    case pending =>
      rw [hissued]
      exact hf.pending
    case answered =>
      rw [hhandled]
      exact hf.answered

end Filed

/-! ## Tickets and the history -/

section Tickets

variable {clock : Time.Timestamp} {u : Hub}

theorem filed {clock : Time.Timestamp} (ht : Traffic (.start clock) past h) : Filed past h := by
  induction ht with
  | start => exact .start clock
  | next _ hm ih => exact ih.step (met_of_meet? hm)

/-- What is issued later has a later ticket. -/
theorem nextTicket_le (ht : Traffic (.start clock) (a ++ b) h) (ha : Traffic (.start clock) a u)
    {p : Ticket × Request} (hp : p ∈ issued b) : u.nextTicket ≤ p.1 := by
  by_contra hlt
  have hr : (List.range h.nextTicket).Pairwise (· < ·) := List.pairwise_lt_range
  rw [← ht.filed.tickets, issued_append, List.map_append, ha.filed.tickets] at hr
  have hin : p.1 ∈ List.range u.nextTicket := List.mem_range.mpr (Nat.lt_of_not_le hlt)
  have := (List.pairwise_append.mp hr).2.2 p.1 hin p.1 (List.mem_map_of_mem hp)
  exact Nat.lt_irrefl _ this

/-- A ticket is one request's. -/
theorem request_unique (ht : Traffic (.start clock) past h) {t : Ticket} {r r' : Request}
    (hr : (t, r) ∈ issued past) (hr' : (t, r') ∈ issued past) : r = r' := by
  have hnd : ((issued past).map Prod.fst).Nodup := ht.filed.tickets ▸ List.nodup_range
  exact (Prod.mk.inj (List.inj_on_of_nodup_map hnd hr hr' rfl)).2

/-- Requests of one lane are handled in the order of their tickets. -/
theorem handled_sorted (ht : Traffic (.start clock) past h) (l : Lane) :
    (inLane l (handled past)).Pairwise fun p q => p.1 < q.1 :=
  (ht.filed.sorted.sublist List.filter_sublist).sublist (ht.filed.first l).sublist

/-- Of one lane, what is handled after a request has a later ticket. -/
theorem lt_of_handled (ht : Traffic (.start clock) (a ++ o :: b) h) {p q : Ticket × Request}
    (ho : o.handles? = some p) (hq : q ∈ handled b) (hl : q.2.lane = p.2.lane) : p.1 < q.1 := by
  have hs := ht.handled_sorted p.2.lane
  rw [handled_append, inLane_append] at hs
  have hcons : handled (o :: b) = p :: handled b := List.filterMap_cons_some ho
  have hhead : inLane p.2.lane (p :: handled b) = p :: inLane p.2.lane (handled b) :=
    List.filter_cons_of_pos (decide_eq_true rfl)
  rw [hcons, hhead] at hs
  exact (List.pairwise_cons.mp (List.pairwise_append.mp hs).2.1).1 q (mem_inLane.mpr ⟨hq, hl⟩)

/-- Nothing is handled twice. -/
theorem handled_once (ht : Traffic (.start clock) past h) :
    (handled past).Pairwise fun p q => p.1 ≠ q.1 := by
  have hissued : ∀ p ∈ handled past, p ∈ issued past := fun p => ht.filed.issued_of_handled
  have hsorted := ht.handled_sorted
  generalize handled past = ps at hissued hsorted
  induction ps with
  | nil => exact List.Pairwise.nil
  | cons p ps ih =>
    have htail : ∀ l, (inLane l ps).Sublist (inLane l (p :: ps)) := fun l =>
      (List.sublist_cons_self p ps).filter _
    refine List.pairwise_cons.mpr ⟨fun q hq heq => ?_, ih ?_ fun l => (hsorted l).sublist (htail l)⟩
    · -- one ticket is one request's, and a lane does not have it twice
      have hp := hissued p List.mem_cons_self
      have hq' := hissued q (List.mem_cons_of_mem p hq)
      have hr : p.2 = q.2 := ht.request_unique hp (heq ▸ hq')
      have hhead : inLane p.2.lane (p :: ps) = p :: inLane p.2.lane ps :=
        List.filter_cons_of_pos (decide_eq_true rfl)
      have hlane := hsorted p.2.lane
      rw [hhead] at hlane
      have hlt := (List.pairwise_cons.mp hlane).1 q (mem_inLane.mpr ⟨hq, by rw [hr]⟩)
      exact Nat.ne_of_lt hlt heq
    · exact fun q hq => hissued q (List.mem_cons_of_mem p hq)

/-- What is handled is not handled before or afterwards. -/
theorem ne_of_handled (ht : Traffic (.start clock) (a ++ o :: b) h) {p q : Ticket × Request}
    (ho : o.handles? = some p) (hq : q ∈ handled a ∨ q ∈ handled b) : q.1 ≠ p.1 := by
  have honce := ht.handled_once
  rw [handled_append] at honce
  have hcons : handled (o :: b) = p :: handled b := List.filterMap_cons_some ho
  rw [hcons] at honce
  obtain ⟨-, hlater, hcross⟩ := List.pairwise_append.mp honce
  rcases hq with hq | hq
  · exact hcross q hq p List.mem_cons_self
  · exact Ne.symm ((List.pairwise_cons.mp hlater).1 q hq)

/-- What has been handled does not wait any more. -/
theorem ne_of_pending (ht : Traffic (.start clock) past h) (hr : h.running = true)
    {p p' : Ticket × Request} (hp : p ∈ handled past) (hp' : p' ∈ h.pending) : p.1 ≠ p'.1 := by
  intro heq
  have hf := ht.filed
  have hr' : p.2 = p'.2 := by
    have hi' : (p.1, p'.2) ∈ issued past := heq ▸ hf.pending.subset hp'
    exact ht.request_unique (hf.issued_of_handled hp) hi'
  obtain rfl : p = p' := Prod.ext heq hr'
  -- its lane would have it twice
  have hsorted := hf.sorted.sublist (List.filter_sublist (p := (·.2.lane = p.2.lane)))
  have hlane := hf.inOrder hr p.2.lane
  unfold inLane at hlane
  rw [hlane] at hsorted
  have hlt := (List.pairwise_append.mp hsorted).2.2 p (mem_inLane.mpr ⟨hp, rfl⟩) p
    (List.mem_filter.mpr ⟨hp', decide_eq_true rfl⟩)
  exact Nat.lt_irrefl _ hlt

end Tickets

end Traffic

theorem Occasion.next?_of_handles? {o : Occasion} {p : Ticket × Request}
    (ho : o.handles? = some p) :
    ∃ missed, o.event = .handle missed ∧ o.hub.next? missed = some p := by
  unfold Occasion.handles? at ho
  split at ho
  · exact ⟨_, by assumption, ho⟩
  · cases ho

/-! ## Answers -/

/-- What a request is answered when it is handled; some are not answered. -/
def Exchange.answerTo? (x : Exchange) : Request → Option Answer
  | .register _ => some .registered
  | .subscribe user c _ | .unsubscribe user c _ => some (.found (x.findConnection? user c).isSome)
  | .isOnline user => some (.online (x.isOnline user))
  | .onlineCount => some (.count x.registry.length)
  | .unregister .. | .dispatch .. | .shutdown => none

namespace Hub

/-- A request that is handled gets its answer, and no other request gets one. -/
theorem answers_handle (h : Hub) (t : Ticket) {r : Request} (hr : r ≠ .shutdown) :
    (h.handle t r).answers = ((h.exchange.answerTo? r).map (t, ·)).toList ++ h.answers := by
  cases r with
  | shutdown => exact absurd rfl hr
  | register | unregister | dispatch | subscribe | unsubscribe | isOnline | onlineCount => rfl

/-- A request of the last lane is told what the exchange is like. -/
theorem answer?_control (h : Hub) (t : Ticket) {r : Request} (hl : r.lane = .control)
    (hr : r ≠ .shutdown) : (h.handle t r).answer? t = h.exchange.answerTo? r := by
  have hans := h.answers_handle t hr
  unfold answer?
  rw [hans]
  cases r with
  | register | unregister | dispatch => cases hl
  | shutdown => exact absurd rfl hr
  | subscribe | unsubscribe | isOnline | onlineCount => exact List.lookup_cons_self

end Hub

end Switchboard
