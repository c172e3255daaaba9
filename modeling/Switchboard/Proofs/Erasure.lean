import Switchboard.Proofs.Cascade
import Switchboard.Proofs.Traffic

/-!
# Requests that come too late

Connections ask the hub to let go of them, to subscribe them and to unsubscribe them, and they may
ask when they are not registered any more. Such a request might as well not have been made: the
history without it is a history too, and differs in nothing but the numbers of the tickets
(`Hub.without`).

A connection that is not registered stays so until it registers again, so one late request does not
make another timely.
-/

namespace Switchboard

open Exchange Traffic

/-- The connection that a request is about, if it does nothing unless that is registered. -/
def Request.about? : Request → Option (String × ConnectionId)
  | .unregister user k | .subscribe user k _ | .unsubscribe user k _ => some (user, k)
  | .register _ | .dispatch .. | .isOnline _ | .onlineCount | .shutdown => none

/-! ## Striking a ticket out -/

section Tickets

variable {α : Type} {t₀ t t' : Ticket} {ps qs : List (Ticket × α)}

/-- The number of a ticket when another has not been issued. -/
def renumber (t₀ t : Ticket) : Ticket := if t < t₀ then t else t - 1

theorem renumber_of_lt (h : t < t₀) : renumber t₀ t = t := if_pos h

theorem renumber_of_gt (h : t₀ < t) : renumber t₀ t = t - 1 := if_neg (Nat.lt_asymm h)

theorem renumber_injective (ht : t ≠ t₀) (ht' : t' ≠ t₀) (h : renumber t₀ t = renumber t₀ t') :
    t = t' := by
  have key : ∀ s a b : Nat, a ≠ s → b ≠ s →
      (if a < s then a else a - 1) = (if b < s then b else b - 1) → a = b := by
    intro s a b ha hb heq
    split at heq <;> split at heq <;> omega
  exact key t₀ t t' ht ht' h

/-- What is filed under tickets, without what is filed under one of them. -/
def strike (t₀ : Ticket) (ps : List (Ticket × α)) : List (Ticket × α) :=
  (ps.filter (·.1 ≠ t₀)).map fun p => (renumber t₀ p.1, p.2)

theorem strike_append (ps qs : List (Ticket × α)) :
    strike t₀ (ps ++ qs) = strike t₀ ps ++ strike t₀ qs := by
  unfold strike
  rw [List.filter_append, List.map_append]

theorem strike_cons_self (a : α) : strike t₀ ((t₀, a) :: ps) = strike t₀ ps := by
  unfold strike
  rw [List.filter_cons_of_neg (by simp)]

theorem strike_cons_ne (ht : t ≠ t₀) (a : α) :
    strike t₀ ((t, a) :: ps) = (renumber t₀ t, a) :: strike t₀ ps := by
  unfold strike
  rw [List.filter_cons_of_pos (by simpa using ht), List.map_cons]

/-- What was filed before is where it was. -/
theorem strike_of_lt (h : ∀ p ∈ ps, p.1 < t₀) : strike t₀ ps = ps := by
  induction ps with
  | nil => rfl
  | cons p ps ih =>
    obtain ⟨t, a⟩ := p
    have ht : t < t₀ := h (t, a) List.mem_cons_self
    rw [strike_cons_ne (Nat.ne_of_lt ht), renumber_of_lt ht,
      ih fun q hq => h q (List.mem_cons_of_mem _ hq)]

theorem mem_strike {p : Ticket × α} (hp : p ∈ strike t₀ ps) :
    ∃ t, (t, p.2) ∈ ps ∧ t ≠ t₀ ∧ p.1 = renumber t₀ t := by
  obtain ⟨q, hq, rfl⟩ := List.mem_map.mp hp
  obtain ⟨hq, hne⟩ := List.mem_filter.mp hq
  exact ⟨q.1, hq, of_decide_eq_true hne, rfl⟩

theorem strike_filter_self : strike t₀ (ps.filter (·.1 ≠ t₀)) = strike t₀ ps := by
  unfold strike
  rw [List.filter_filter]
  simp only [Bool.and_self]

theorem strike_filter_ne (ht : t ≠ t₀) :
    strike t₀ (ps.filter (·.1 ≠ t)) = (strike t₀ ps).filter (·.1 ≠ renumber t₀ t) := by
  induction ps with
  | nil => rfl
  | cons p ps ih =>
    obtain ⟨t', a⟩ := p
    by_cases h₀ : t' = t₀
    · subst h₀
      rw [strike_cons_self, List.filter_cons_of_pos (by simpa using Ne.symm ht), strike_cons_self]
      exact ih
    · rw [strike_cons_ne h₀]
      by_cases h : t' = t
      · subst h
        rw [List.filter_cons_of_neg (by simp), List.filter_cons_of_neg (by simp)]
        exact ih
      · have hne : renumber t₀ t' ≠ renumber t₀ t := fun heq => h (renumber_injective h₀ ht heq)
        rw [List.filter_cons_of_pos (by simpa using h), strike_cons_ne h₀,
          List.filter_cons_of_pos (by simpa using hne), ih]

end Tickets

/-! ## A hub without a request -/

namespace Hub

variable {h : Hub} {missed : List Lane} {t₀ t : Ticket} {r : Request}

/-- The hub as it would be if a request had not been issued: its exchange is the same, and so are
all other requests that wait and all other answers, but for the numbers of their tickets. -/
def without (h : Hub) (t₀ : Ticket) : Hub :=
  { h with
    pending := strike t₀ h.pending
    nextTicket := h.nextTicket - 1
    answers := strike t₀ h.answers }

theorem without_reply (h : Hub) (ht : t ≠ t₀) (a : Answer) :
    (h.reply t a).without t₀ = (h.without t₀).reply (renumber t₀ t) a := by
  unfold reply without
  dsimp only
  rw [strike_cons_ne ht]

theorem without_reply_self (h : Hub) (t₀ : Ticket) (a : Answer) :
    (h.reply t₀ a).without t₀ = h.without t₀ := by
  unfold reply without
  dsimp only
  rw [strike_cons_self]

theorem without_abandon (h : Hub) (ht : t ≠ t₀) (r : Request) :
    (h.abandon t r).without t₀ = (h.without t₀).abandon (renumber t₀ t) r := by
  cases r with
  | register reg => exact (h.update (·.release reg.queue)).without_reply ht .unavailable
  | unregister | dispatch | shutdown => rfl
  | subscribe | unsubscribe | isOnline | onlineCount => exact h.without_reply ht .unavailable

theorem without_abandon_self (h : Hub) (t₀ : Ticket) (hr : r.about?.isSome = true) :
    (h.abandon t₀ r).without t₀ = h.without t₀ := by
  cases r with
  | unregister => rfl
  | subscribe | unsubscribe => exact h.without_reply_self t₀ .unavailable
  | register | dispatch | isOnline | onlineCount | shutdown => cases hr

theorem without_handle (h : Hub) (ht : t ≠ t₀) (hr : r ≠ .shutdown) :
    (h.handle t r).without t₀ = (h.without t₀).handle (renumber t₀ t) r := by
  cases r with
  | shutdown => exact absurd rfl hr
  | unregister | dispatch => rfl
  | register | subscribe | unsubscribe | isOnline | onlineCount => exact without_reply _ ht _

/-- Whoever waits is let go of, whether or not the request that is struck out is among them. -/
theorem without_stop (hk : ∀ p ∈ h.pending, p.1 = t₀ → p.2.about?.isSome = true) :
    h.stop.without t₀ = (h.without t₀).stop := by
  have fold : ∀ (waiting : List (Ticket × Request)) (g : Hub),
      (∀ p ∈ waiting, p.1 = t₀ → p.2.about?.isSome = true) →
      (waiting.foldl (fun g (p : Ticket × Request) => g.abandon p.1 p.2) g).without t₀ =
        (strike t₀ waiting).foldl (fun g (p : Ticket × Request) => g.abandon p.1 p.2)
          (g.without t₀) := by
    intro waiting
    induction waiting with
    | nil => exact fun _ _ => rfl
    | cons p waiting ih =>
      intro g hw
      obtain ⟨t, r⟩ := p
      have ih := ih (g.abandon t r) fun q hq => hw q (List.mem_cons_of_mem _ hq)
      rw [List.foldl_cons, ih]
      by_cases ht : t = t₀
      · subst ht
        rw [strike_cons_self, without_abandon_self g t (hw (t, r) List.mem_cons_self rfl)]
      · rw [strike_cons_ne ht, without_abandon g ht, List.foldl_cons]
  exact fold h.pending _ hk

theorem without_take (h : Hub) (ht : t ≠ t₀) :
    (h.take t).without t₀ = (h.without t₀).take (renumber t₀ t) := by
  unfold take without
  dsimp only
  rw [strike_filter_ne ht]

theorem without_take_self (h : Hub) (t₀ : Ticket) : (h.take t₀).without t₀ = h.without t₀ := by
  unfold take without
  dsimp only
  rw [strike_filter_self]

/-- The first of a lane that is not missed is next if those in the lanes before it are missed. -/
theorem next?_of_spec {before after : List (Ticket × Request)}
    (hp : h.pending = before ++ (t, r) :: after) (hb : ∀ p ∈ before, p.2.lane ≠ r.lane)
    (hseen : r.lane ∉ missed)
    (hf : ∀ p ∈ h.pending, p.2.lane ∉ missed → r.lane.rank ≤ p.2.lane.rank) :
    h.next? missed = some (t, r) := by
  have hin : (t, r) ∈ h.pending := hp ▸ List.mem_append_right _ List.mem_cons_self
  obtain ⟨⟨t', r'⟩, hn⟩ := Option.isSome_iff_exists.mp (next?_isSome hin hseen)
  obtain ⟨⟨before', after', hp', hb'⟩, hseen', hf'⟩ := next?_spec hn
  have hlane : r'.lane = r.lane :=
    Lane.rank_injective
      (Nat.le_antisymm (hf' _ hin hseen) (hf _ (mem_pending_of_next? hn) hseen'))
  rw [hn]
  -- both are the first of the same lane
  rw [hp] at hp'
  rcases List.append_eq_append_iff.mp hp' with ⟨l, hl, hl'⟩ | ⟨l, hl, hl'⟩
  · cases l with
    | nil => exact congrArg some (List.cons.inj hl').1.symm
    | cons q l =>
      obtain ⟨rfl, -⟩ := List.cons.inj hl'
      exact absurd hlane.symm (hb' (t, r) (hl ▸ List.mem_append_right _ List.mem_cons_self))
  · cases l with
    | nil => exact congrArg some (List.cons.inj hl').1
    | cons q l =>
      obtain ⟨rfl, -⟩ := List.cons.inj hl'
      exact absurd hlane (hb (t', r') (hl ▸ List.mem_append_right _ List.mem_cons_self))

/-- What is next is next without the request that is struck out. -/
theorem next?_without (hn : h.next? missed = some (t, r)) (ht : t ≠ t₀) :
    (h.without t₀).next? missed = some (renumber t₀ t, r) := by
  obtain ⟨⟨before, after, hp, hb⟩, hseen, hf⟩ := next?_spec hn
  have hp' : (h.without t₀).pending =
      strike t₀ before ++ (renumber t₀ t, r) :: strike t₀ after := by
    show strike t₀ h.pending = _
    rw [hp, strike_append, strike_cons_ne ht]
  refine next?_of_spec hp' ?_ hseen ?_
  · intro p hm
    obtain ⟨t', hm', -, -⟩ := mem_strike hm
    exact hb (t', p.2) hm'
  · intro p hm
    obtain ⟨t', hm', -, -⟩ := mem_strike hm
    exact hf (t', p.2) hm'

theorem without_step (hn : h.next? missed = some (t, r)) (ht : t ≠ t₀)
    (hk : ∀ p ∈ h.pending, p.1 = t₀ → p.2.about?.isSome = true) :
    (h.without t₀).step? missed = some (((h.take t).handle t r).without t₀) := by
  unfold step?
  rw [next?_without hn ht]
  dsimp only
  rw [← without_take h ht]
  by_cases hr : r = .shutdown
  · subst hr
    have hstop : ((h.take t).handle t .shutdown).without t₀ = ((h.take t).without t₀).stop :=
      without_stop fun p hp => hk p (List.mem_filter.mp hp).1
    rw [hstop]
    rfl
  · rw [without_handle _ ht hr]

theorem without_issue (h : Hub) (ht : t₀ < h.nextTicket) (r : Request) :
    (h.issue r).2.without t₀ = ((h.without t₀).issue r).2 := by
  have hne : h.nextTicket ≠ t₀ := Nat.ne_of_gt ht
  have hnum : renumber t₀ h.nextTicket = h.nextTicket - 1 := renumber_of_gt ht
  have hnext : h.nextTicket - 1 + 1 = h.nextTicket := Nat.sub_add_cancel (Nat.one_le_of_lt ht)
  have hstart : ({ h with nextTicket := h.nextTicket + 1 } : Hub).without t₀ =
      { h.without t₀ with nextTicket := h.nextTicket - 1 + 1 } := by
    rw [hnext]
    rfl
  unfold issue
  dsimp only
  by_cases hrun : h.running = true
  · have hrun' : (h.without t₀).running = true := hrun
    rw [if_pos hrun, if_pos hrun']
    unfold without
    dsimp only
    rw [strike_append, strike_cons_ne hne, hnum, hnext]
    rfl
  · have hrun' : ¬ (h.without t₀).running = true := hrun
    rw [if_neg hrun, if_neg hrun', without_abandon _ hne, hstart, hnum]
    rfl

/-- A request that has just been issued leaves nothing behind if it is struck out at once. -/
theorem without_issue_self (h : Hub) (hp : ∀ p ∈ h.pending, p.1 < h.nextTicket)
    (ha : ∀ p ∈ h.answers, p.1 < h.nextTicket) (hr : r.about?.isSome = true) :
    (h.issue r).2.without h.nextTicket = h := by
  have hsame : ({ h with nextTicket := h.nextTicket + 1 } : Hub).without h.nextTicket = h := by
    unfold without
    dsimp only
    rw [strike_of_lt hp, strike_of_lt ha]
    rfl
  unfold issue
  dsimp only
  by_cases hrun : h.running = true
  · rw [if_pos hrun]
    refine Eq.trans ?_ hsame
    unfold without
    dsimp only
    have hnone : strike h.nextTicket ([] : List (Ticket × Request)) = [] := rfl
    rw [strike_append, strike_cons_self, hnone, List.append_nil]
  · rw [if_neg hrun, without_abandon_self _ _ hr]
    exact hsame

/-- A request about a connection that is not registered leaves nothing behind. -/
theorem without_handle_self (h : Hub) (hx : h.exchange.handled r = h.exchange)
    (hr : r.about?.isSome = true) : ((h.take t₀).handle t₀ r).without t₀ = h.without t₀ := by
  have hsame : (h.take t₀).update (·.handled r) = h.take t₀ := by
    show ({ h.take t₀ with exchange := h.exchange.handled r } : Hub) = h.take t₀
    rw [hx]
    rfl
  rw [← without_take_self h t₀]
  cases r with
  | unregister => exact congrArg (·.without t₀) hsame
  | subscribe | unsubscribe =>
    exact (without_reply_self _ t₀ _).trans (congrArg (·.without t₀) hsame)
  | register | dispatch | isOnline | onlineCount | shutdown => cases hr

/-! ### Answers -/

theorem mem_answers_abandon {p : Ticket × Answer} (hp : p ∈ (h.abandon t r).answers) :
    p ∈ h.answers ∨ p.1 = t := by
  cases r with
  | unregister | dispatch | shutdown => exact Or.inl hp
  | register | subscribe | unsubscribe | isOnline | onlineCount =>
    rcases mem_answers_reply hp with hp | rfl
    · exact Or.inl hp
    · exact Or.inr rfl

theorem mem_answers_stop {p : Ticket × Answer} (hp : p ∈ h.stop.answers) :
    p ∈ h.answers ∨ ∃ q ∈ h.pending, p.1 = q.1 := by
  have fold : ∀ (waiting : List (Ticket × Request)) (g : Hub),
      p ∈ (waiting.foldl (fun g (q : Ticket × Request) => g.abandon q.1 q.2) g).answers →
      p ∈ g.answers ∨ ∃ q ∈ waiting, p.1 = q.1 := by
    intro waiting
    induction waiting with
    | nil => exact fun _ hp => Or.inl hp
    | cons q waiting ih =>
      intro g hp
      rcases ih _ hp with hp | ⟨q', hq', heq⟩
      · rcases mem_answers_abandon hp with hp | heq
        · exact Or.inl hp
        · exact Or.inr ⟨q, List.mem_cons_self, heq⟩
      · exact Or.inr ⟨q', List.mem_cons_of_mem _ hq', heq⟩
  exact fold h.pending { h with exchange := h.exchange.clear, running := false, pending := [] } hp

end Hub

/-! ## A history without a request -/

/-- An occasion as the hub would have met it without a request. -/
def Occasion.without (o : Occasion) (t₀ : Ticket) : Occasion := ⟨o.hub.without t₀, o.event⟩

/-- A ticket has been issued, and to a request that can be struck out. -/
structure Hub.Knows (h : Hub) (t₀ : Ticket) : Prop where
  issued : t₀ < h.nextTicket
  pending : ∀ p ∈ h.pending, p.1 = t₀ → p.2.about?.isSome = true

namespace Traffic

variable {clock : Time.Timestamp} {h g : Hub} {past b : List Occasion} {e : Occurrence}
  {t₀ : Ticket} {user : String} {k : ConnectionId}

theorem knows_of_met (hk : h.Knows t₀) (hm : Met h e g) : g.Knows t₀ := by
  cases hm with
  | issue r hkeeps =>
    refine ⟨?_, fun p hp heq => ?_⟩
    · rw [hkeeps.nextTicket]
      exact Nat.lt_succ_of_lt hk.issued
    · rw [hkeeps.pending] at hp
      rcases Hub.mem_pending_enter hp with hp | ⟨hp, -⟩
      · exact hk.pending p hp heq
      · exact absurd (hp.symm.trans heq) (Nat.ne_of_gt hk.issued)
  | handle hn hh =>
    refine ⟨hh.nextTicket ▸ hk.issued, fun p hp => ?_⟩
    rw [hh.pending] at hp
    exact hk.pending p (List.mem_filter.mp hp).1
  | stop hn hkeeps =>
    refine ⟨hkeeps.nextTicket ▸ hk.issued, fun p hp => ?_⟩
    rw [hkeeps.pending] at hp
    cases hp
  | outside => exact ⟨hk.issued, hk.pending⟩

/-- Everything but the handling of the request happens without it as it does with it. -/
theorem meet?_without (hk : h.Knows t₀) (hm : h.meet? e = some g)
    (hne : ∀ p, Occasion.handles? ⟨h, e⟩ = some p → p.1 ≠ t₀) :
    (h.without t₀).meet? e = some (g.without t₀) := by
  cases e with
  | issue r =>
    obtain rfl := Option.some.inj hm
    rw [Hub.without_issue h hk.issued r]
    rfl
  | handle =>
    obtain ⟨t, r, hn, rfl⟩ := Hub.step?_eq_some hm
    exact Hub.without_step hn (hne (t, r) hn) hk.pending
  | tend f =>
    obtain rfl := Option.some.inj hm
    rfl
  | setClock clock =>
    obtain rfl := Option.some.inj hm
    rfl

theorem without (ht : Traffic h b g) (hk : h.Knows t₀) (hne : ∀ p ∈ handled b, p.1 ≠ t₀) :
    Traffic (h.without t₀) (b.map (·.without t₀)) (g.without t₀) ∧ g.Knows t₀ := by
  induction ht with
  | start => exact ⟨.start, hk⟩
  | @next b u v e _ hm ih =>
    have hb := handled_snoc b ⟨u, e⟩
    obtain ⟨hwithout, hknows⟩ := ih fun p hp => hne p (hb ▸ List.mem_append_left _ hp)
    refine ⟨?_, knows_of_met hknows (met_of_meet? hm)⟩
    rw [List.map_append]
    refine hwithout.next (meet?_without hknows hm fun p hp => hne p ?_)
    rw [hb]
    exact List.mem_append_right _ (Option.mem_toList.mpr hp)

/-- Only requests that were issued are answered. -/
theorem answers_lt (ht : Traffic (.start clock) past h) : ∀ p ∈ h.answers, p.1 < h.nextTicket := by
  induction ht with
  | start =>
    intro p hp
    cases hp
  | @next past u v e ht hm ih =>
    intro p hp
    cases e with
    | issue r =>
      obtain rfl := Option.some.inj hm
      rw [(u.keeps_issue r).nextTicket]
      unfold Hub.issue at hp
      dsimp only at hp
      split at hp
      · exact Nat.lt_succ_of_lt (ih p hp)
      · rcases Hub.mem_answers_abandon hp with hp | hp
        · exact Nat.lt_succ_of_lt (ih p hp)
        · rw [hp]
          exact Nat.lt_succ_self _
    | handle =>
      obtain ⟨t, r, hn, rfl⟩ := Hub.step?_eq_some hm
      by_cases hr : r = .shutdown
      · subst hr
        have hnext : ((u.take t).handle t .shutdown).nextTicket = u.nextTicket :=
          (u.take t).keeps_stop.nextTicket
        rw [hnext]
        rcases Hub.mem_answers_stop hp with hp | ⟨q, hq, heq⟩
        · exact ih p hp
        · rw [heq]
          exact ht.filed.pending_lt (List.mem_filter.mp hq).1
      · have hh := u.handled_handle t hr
        rw [hh.nextTicket]
        rcases hh.answers p hp with hp | hp
        · exact ih p hp
        · rw [hp]
          exact ht.filed.pending_lt (Hub.mem_pending_of_next? hn)
    | tend | setClock =>
      obtain rfl := Option.some.inj hm
      exact ih p hp

end Traffic

/-! ## Who is not registered -/

/-- Whoever is put out is gone at the end, and so is everyone else of that user. -/
theorem Linked.userId_ne {x y : Exchange} {log : List Sending} (h : Linked x log y)
    (hx : x.UniqueUsers) {s : Sending} (hs : s ∈ log) {e e' : Entry} (he : e ∈ s.refusers)
    (he' : e' ∈ y.registry) : e'.userId ≠ e.userId := by
  induction h with
  | nil x => cases hs
  | @cons s₀ log y hl ih =>
    rcases List.mem_cons.mp hs with rfl | hs
    · intro hu
      obtain ⟨hm, hr⟩ := Sending.mem_refusers.mp he
      obtain ⟨hm', hr'⟩ := Sending.mem_after.mp (hl.sublist.subset he')
      rw [hx.eq_of_userId hm' hm hu, hr] at hr'
      cases hr'
    · exact ih (hx.sublist s₀.after_sublist) hs he'

theorem Exchange.Outset.uniqueUsers {x y : Exchange} {r : Request} (h : x.Outset r y)
    (hx : x.UniqueUsers) : y.UniqueUsers := by
  cases h with
  | join hf => exact uniqueUsers_insert hx hf
  | @replace r previous hf =>
    have hy := uniqueUsers_handled hx (.register r)
    rw [show x.handled (.register r) = x.register r from rfl, register_replace hf] at hy
    exact hy
  | leave => exact hx.sublist List.filter_sublist
  | subscribe user c | unsubscribe user c => exact uniqueUsers_updateTopics hx user c _
  | stay | dispatch | isOnline | onlineCount | shutdown => exact hx

/-- Once a connection has registered, its user has no other. -/
theorem Handling.eq_entry {x y : Exchange} {log : List Sending} {reg : Registration}
    (h : Handling x (.register reg) log y) {e : Entry} (he : e ∈ y.registry)
    (hu : e.userId = reg.identity.userId) : e = reg.entry := by
  cases h with
  | join time hf hs =>
    have hm : e ∈ x.registry ++ [reg.entry] := hs.linked.sublist.subset he
    rcases List.mem_append.mp hm with hm | hm
    · exact absurd hu (find?_eq_none.mp hf e hm)
    · exact List.mem_singleton.mp hm
  | replace hf =>
    rw [register_replace hf] at he
    rcases List.mem_append.mp he with hm | hm
    · exact absurd (hu.trans (userId_of_find? hf).symm) (mem_depart.mp hm).2
    · exact List.mem_singleton.mp hm

namespace Exchange

variable {x : Exchange} {user : String} {k : ConnectionId} {r : Request}

/-- A request about a connection that is not registered changes nothing. -/
theorem handled_of_stale (hx : x.UniqueUsers) (hr : r.about? = some (user, k))
    (hs : x.findConnection? user k = none) : x.handled r = x := by
  have hkept : ∀ f, x.updateTopics user k f = x := by
    intro f
    have hmap : x.registry.map (fun e =>
        if e.userId = user ∧ e.connection = k then { e with topics := f e.topics } else e) =
        x.registry.map id :=
      List.map_congr_left fun e he => if_neg ((findConnection?_eq_none hx).mp hs e he)
    unfold updateTopics
    rw [hmap, List.map_id]
  cases r with
  | unregister user' k' =>
    obtain ⟨rfl, rfl⟩ := Prod.mk.inj (Option.some.inj hr)
    show x.unregister user' k' = x
    unfold Exchange.unregister
    rw [hs]
  | subscribe user' k' topics =>
    obtain ⟨rfl, rfl⟩ := Prod.mk.inj (Option.some.inj hr)
    exact hkept fun current => topics.foldl addTopic current
  | unsubscribe user' k' gone =>
    obtain ⟨rfl, rfl⟩ := Prod.mk.inj (Option.some.inj hr)
    exact hkept fun current => current.filter fun t => !gone.contains t
  | register | dispatch | isOnline | onlineCount | shutdown => cases hr

/-- A connection that is not registered is not registered by requests of others. -/
theorem stale_handled (hx : x.UniqueUsers) (hs : x.findConnection? user k = none)
    (hr : ∀ reg, r = .register reg → reg.identity.userId = user → reg.connection ≠ k) :
    (x.handled r).findConnection? user k = none := by
  rw [findConnection?_eq_none (uniqueUsers_handled hx r)]
  intro e he ⟨hu, hc⟩
  rcases mem_handled he with ⟨reg, hreg, rfl⟩ | ⟨e₀, he₀, heq, -⟩
  · exact hr reg hreg hu hc
  · have hu₀ : e₀.userId = user := (congrArg (·.identity.userId) heq).trans hu
    have hc₀ : e₀.connection = k := (congrArg Registration.connection heq).trans hc
    exact (findConnection?_eq_none hx).mp hs e₀ he₀ ⟨hu₀, hc₀⟩

/-- Handling a request makes a connection leave, whether it is there or not. -/
inductive Ousts (x : Exchange) (user : String) (k : ConnectionId) : Request → Prop
  | unregister : Ousts x user k (.unregister user k)
  /-- Another connection of the user takes its place. -/
  | replace (reg : Registration) : reg.identity.userId = user → reg.connection ≠ k →
      Ousts x user k (.register reg)
  /-- Its queue refuses a frame that is sent on account of the request. -/
  | evict {r : Request} {log : List Sending} {s : Sending} {e : Entry} :
      Handling x r log (x.handled r) → s ∈ log → e ∈ s.refusers → e.userId = user →
      e.connection = k → Ousts x user k r

theorem Ousts.stale (hx : x.UniqueUsers) (h : x.Ousts user k r) :
    (x.handled r).findConnection? user k = none := by
  rw [findConnection?_eq_none (uniqueUsers_handled hx r)]
  intro e he ⟨hu, hc⟩
  cases h with
  | unregister =>
    obtain ⟨log, hh⟩ := handling_handled x (r := .unregister user k) rfl
    exact (hh.unregistered hx he).2 ⟨hu, hc⟩
  | replace reg hru hrk =>
    obtain ⟨log, hh⟩ := handling_handled x (r := .register reg) rfl
    have heq := hh.eq_entry he (hu.trans hru.symm)
    exact hrk ((congrArg Entry.connection heq).symm.trans hc)
  | @evict _ log s e' hh hs hout hu' hc' =>
    exact hh.linked.userId_ne ((Exchange.outset _ r).uniqueUsers hx) hs hout he (hu.trans hu'.symm)

end Exchange

namespace Traffic

variable {clock : Time.Timestamp} {h g : Hub} {past b : List Occasion} {user : String}
  {k : ConnectionId}

theorem uniqueUsers (ht : Traffic h b g) (hx : h.exchange.UniqueUsers) :
    g.exchange.UniqueUsers := by
  induction ht with
  | start => exact hx
  | next _ hm ih =>
    unfold UniqueUsers
    cases met_of_meet? hm with
    | issue r hk =>
      rw [hk.registry]
      exact ih
    | handle _ hh =>
      rw [hh.exchange]
      exact uniqueUsers_handled ih _
    | stop _ hk =>
      rw [hk.registry]
      exact List.nodup_nil
    | outside f _ _ hreg =>
      show ((f _).registry.map Entry.userId).Nodup
      rw [hreg]
      exact ih

/-- A connection that is not registered stays so until it registers. -/
theorem stale (ht : Traffic h b g) (hx : h.exchange.UniqueUsers)
    (hs : h.exchange.findConnection? user k = none)
    (hr : ∀ p ∈ handled b, ∀ reg, p.2 = .register reg → reg.identity.userId = user →
      reg.connection ≠ k) : g.exchange.findConnection? user k = none := by
  have same : ∀ {x y : Exchange}, y.registry = x.registry →
      x.findConnection? user k = none → y.findConnection? user k = none := by
    intro x y hreg hx
    unfold findConnection? find?
    rw [hreg]
    exact hx
  induction ht with
  | start => exact hs
  | @next b u v e ht hm ih =>
    have hb := handled_snoc b ⟨u, e⟩
    have ih := ih fun p hp => hr p (hb ▸ List.mem_append_left _ hp)
    cases met_of_meet? hm with
    | issue r hk => exact same hk.registry ih
    | @handle _ missed t r hn hh =>
      rw [hh.exchange]
      refine stale_handled (ht.uniqueUsers hx) ih (hr (t, r) ?_)
      rw [hb]
      exact List.mem_append_right _ (Option.mem_toList.mpr hn)
    | stop _ hk => exact same hk.registry rfl
    | outside f _ _ hreg => exact same hreg ih

end Traffic

/-! ## Requests that come too late -/

/-- A request about a connection is issued and handled when that is not registered. -/
structure Late (past : List Occasion) (user : String) (k : ConnectionId) where
  before : List Occasion
  asked : Occasion
  between : List Occasion
  turn : Occasion
  after : List Occasion
  request : Request
  past_eq : past = (before ++ asked :: between) ++ turn :: after
  asks : asked.event = .issue request
  about : request.about? = some (user, k)
  comes : turn.handles? = some (asked.hub.nextTicket, request)
  stale : turn.hub.exchange.findConnection? user k = none

namespace Late

variable {clock : Time.Timestamp} {past : List Occasion} {h : Hub} {user : String}
  {k : ConnectionId}

abbrev ticket (s : Late past user k) : Ticket := s.asked.hub.nextTicket

/-- What else happens once the request has been issued. -/
def rest (s : Late past user k) : List Occasion := s.between ++ s.after

theorem ne_shutdown (s : Late past user k) : s.request ≠ .shutdown := by
  intro hr
  have := s.about
  rw [hr] at this
  cases this

theorem about_isSome (s : Late past user k) : s.request.about?.isSome = true := by
  rw [s.about]
  rfl

/-- Handling the request changes nothing. -/
theorem handled_eq (s : Late past user k) (ht : Traffic (.start clock) past h) :
    s.turn.hub.exchange.handled s.request = s.turn.hub.exchange := by
  have ht := s.past_eq ▸ ht
  exact handled_of_stale (ht.upTo.uniqueUsers List.nodup_nil) s.about s.stale

theorem step?_eq (s : Late past user k) : ∃ missed, s.turn.event = .handle missed ∧
    s.turn.hub.step? missed =
      some ((s.turn.hub.take s.ticket).handle s.ticket s.request) := by
  obtain ⟨missed, hevent, hn⟩ := Occasion.next?_of_handles? s.comes
  refine ⟨missed, hevent, ?_⟩
  unfold Hub.step?
  rw [hn]

/-- Once the request has been issued, it is known to be one that can be struck out. -/
theorem knows (s : Late past user k) (ht : Traffic (.start clock) s.before s.asked.hub) :
    (s.asked.hub.issue s.request).2.Knows s.ticket := by
  have hk := s.asked.hub.keeps_issue s.request
  refine ⟨?_, fun p hp heq => ?_⟩
  · rw [hk.nextTicket]
    exact Nat.lt_succ_self _
  · rw [hk.pending] at hp
    rcases Hub.mem_pending_enter hp with hp | ⟨-, hr⟩
    · exact absurd heq (Nat.ne_of_lt (ht.filed.pending_lt hp))
    · rw [← Option.some.inj hr]
      exact s.about_isSome

/-- **The history without the request is a history**, and leads to the same hub without it. -/
theorem erased (s : Late past user k) (ht : Traffic (.start clock) past h) :
    Traffic (.start clock) (s.before ++ s.rest.map (·.without s.ticket)) (h.without s.ticket) := by
  have hall := s.past_eq ▸ ht
  obtain ⟨u, hfirst, hsecond⟩ := hall.split
  obtain ⟨rfl, v, hturn, hafter⟩ := hsecond.uncons
  obtain ⟨u₀, hbefore, hbetween⟩ := hfirst.split
  obtain ⟨rfl, v₀, hasked, hbetween⟩ := hbetween.uncons
  rw [s.asks] at hasked
  obtain rfl := Option.some.inj hasked
  -- until the request is handled, it only waits
  obtain ⟨hwaits, hknows⟩ := hbetween.without (s.knows hbefore) fun p hp => by
    refine hall.ne_of_handled s.comes (Or.inl ?_)
    rw [handled_append]
    refine List.mem_append_right _ ?_
    obtain ⟨o, ho, hh⟩ := List.mem_filterMap.mp hp
    exact List.mem_filterMap.mpr ⟨o, List.mem_cons_of_mem _ ho, hh⟩
  have hpending : ∀ p ∈ s.asked.hub.pending, p.1 < s.ticket := fun p hp =>
    hbefore.filed.pending_lt hp
  rw [Hub.without_issue_self _ hpending hbefore.answers_lt s.about_isSome] at hwaits
  -- then it is gone
  obtain ⟨missed, hevent, hstep⟩ := s.step?_eq
  rw [hevent] at hturn
  obtain rfl := Option.some.inj (hstep.symm.trans hturn)
  have hknows := knows_of_met hknows (met_of_meet? hturn)
  obtain ⟨hrest, -⟩ := hafter.without hknows fun p hp =>
    hall.ne_of_handled s.comes (Or.inr hp)
  rw [Hub.without_handle_self _ (s.handled_eq ht) s.about_isSome] at hrest
  unfold rest
  rw [List.map_append]
  exact hbefore.trans (hwaits.trans hrest)

end Late

/-- How little requests matter that come too late. -/
structure Erasable (clock : Time.Timestamp) (past : List Occasion) (h : Hub) : Prop where
  /-- Without such a request everything else happens as it did: the exchanges are the same, and so
  are the requests that wait and the answers, but for the numbers of their tickets. -/
  erased : ∀ user k (s : Late past user k),
    Traffic (.start clock) (s.before ++ s.rest.map (·.without s.ticket)) (h.without s.ticket)
  /-- Who asked to be subscribed or unsubscribed is told that they are not there. -/
  refused : ∀ user k (s : Late past user k), s.request.lane = .control →
    ∃ g, s.turn.hub.meet? s.turn.event = some g ∧ g.answer? s.ticket = some (.found false)
  /-- A connection that has been unregistered, put out or replaced is not registered until it
  registers again. -/
  gone : ∀ a o b t r user k, past = a ++ o :: b → o.handles? = some (t, r) →
    o.hub.exchange.Ousts user k r →
    (∀ p ∈ handled b, ∀ reg, p.2 = .register reg → reg.identity.userId = user →
      reg.connection ≠ k) → h.exchange.findConnection? user k = none

section Results

variable {clock : Time.Timestamp} {past : List Occasion} {h : Hub}

/--
**Requests that come too late leave no trace.** Whatever is asked of a hub in whichever order, a
request to let go of a connection, to subscribe or to unsubscribe it that is handled when the
connection is not registered might as well not have been issued; and a connection that has left is
not registered until it registers again.
-/
theorem stale_requests_erasable (ht : Traffic (.start clock) past h) : Erasable clock past h where
  erased _ _ s := s.erased ht
  refused := by
    intro user k s hl
    obtain ⟨missed, hevent, hstep⟩ := s.step?_eq
    rw [hevent]
    refine ⟨_, hstep, ?_⟩
    rw [Hub.answer?_control _ _ hl s.ne_shutdown]
    have hstale := s.stale
    have habout := s.about
    show s.turn.hub.exchange.answerTo? s.request = _
    generalize s.request = r at hl habout
    cases r with
    | subscribe | unsubscribe =>
      obtain ⟨rfl, rfl⟩ := Prod.mk.inj (Option.some.inj habout)
      unfold answerTo?
      dsimp only
      rw [hstale]
      rfl
    | unregister => cases hl
    | register | dispatch | isOnline | onlineCount | shutdown => cases habout
  gone := by
    rintro a o b t r user k rfl ho hout hr
    obtain ⟨u, ha, hb⟩ := ht.split
    obtain ⟨rfl, v, hm, hb⟩ := hb.uncons
    obtain ⟨missed, hevent, hn⟩ := Occasion.next?_of_handles? ho
    rw [hevent] at hm
    have hx := ha.uniqueUsers List.nodup_nil
    have hv : v.exchange.UniqueUsers := (Traffic.start.next hm).uniqueUsers hx
    refine hb.stale hv ?_ hr
    cases met_of_meet? hm with
    | handle hn' hh =>
      obtain ⟨rfl, rfl⟩ := Prod.mk.inj (Option.some.inj (hn'.symm.trans hn))
      rw [hh.exchange]
      exact hout.stale hx
    | stop _ hk =>
      rw [findConnection?_eq_none hv]
      intro e he
      rw [hk.registry] at he
      cases he
    | outside _ _ hne => exact absurd rfl (hne missed)

end Results

/-! ## A second login -/

namespace Relogin

def clock : Time.Timestamp := ⟨⟨2024, 1, 1⟩, 0, 0, 0, 0⟩

/-- Ann's connection of a number, with the queue of that number. -/
def ann (k : ConnectionId) : Registration := ⟨k, ⟨"ann", "Ann", false⟩, k⟩

def opening (m : Mail) : Mail := ((m.create 4).2.create 4).2

/-- There are two queues, -/
def open₀ : Hub := (Hub.start clock).update fun x => { x with mail := opening x.mail }

/-- Ann is connected, -/
def first : Hub := ((open₀.issue (.register (ann 0))).2.take 0).handle 0 (.register (ann 0))

/-- and connected anew. -/
def second : Hub := ((first.issue (.register (ann 1))).2.take 1).handle 1 (.register (ann 1))

/-- The old connection subscribes, and somebody asks for Ann. -/
def asked : Hub := (second.issue (.subscribe "ann" 0 [.posts])).2

def waiting : Hub := (asked.issue (.isOnline "ann")).2

/-- The subscription is handled, -/
def refused : Hub := (waiting.take 2).handle 2 (.subscribe "ann" 0 [.posts])

/-- and then the question. -/
def told : Hub := (refused.take 3).handle 3 (.isOnline "ann")

def past : List Occasion :=
  [⟨.start clock, .tend opening⟩, ⟨open₀, .issue (.register (ann 0))⟩,
    ⟨(open₀.issue (.register (ann 0))).2, .handle []⟩, ⟨first, .issue (.register (ann 1))⟩,
    ⟨(first.issue (.register (ann 1))).2, .handle []⟩,
    ⟨second, .issue (.subscribe "ann" 0 [.posts])⟩, ⟨asked, .issue (.isOnline "ann")⟩,
    ⟨waiting, .handle []⟩, ⟨refused, .handle []⟩]

theorem traffic : Traffic (.start clock) past told :=
  .cons rfl (.cons rfl (.cons rfl (.cons rfl (.cons rfl (.cons rfl (.cons rfl (.cons rfl
    (.cons rfl .start))))))))

def late : Late past "ann" 0 where
  before := past.take 5
  asked := ⟨second, .issue (.subscribe "ann" 0 [.posts])⟩
  between := (past.drop 6).take 1
  turn := ⟨waiting, .handle []⟩
  after := past.drop 8
  request := .subscribe "ann" 0 [.posts]
  past_eq := rfl
  asks := rfl
  about := rfl
  comes := rfl
  stale := by decide +kernel

end Relogin

/-- What Ann's old connection asks for is refused; without it, whoever asked for her would have got
the same answer one ticket earlier. -/
theorem stale_requests_erasable_relogin : Traffic (.start Relogin.clock) Relogin.past Relogin.told ∧
    Relogin.told.answer? 2 = some (.found false) ∧
    Relogin.told.answer? 3 = some (.online true) ∧
    (Relogin.told.without 2).answer? 2 = some (.online true) ∧
    Traffic (.start Relogin.clock)
      (Relogin.past.take 5 ++ Relogin.late.rest.map (·.without 2)) (Relogin.told.without 2) :=
  ⟨Relogin.traffic, by decide +kernel, by decide +kernel, by decide +kernel,
    (stale_requests_erasable Relogin.traffic).erased "ann" 0 Relogin.late⟩

end Switchboard
