import Switchboard.Proofs.Course

/-!
# Tickets

Requests are numbered as they are issued, and everything a hub does with one is recorded under its
number. `Booked` says how the hub's books agree with a history: what waits was issued and has not
been handled, what was handled was handled once, and whoever was given an answer other than that
the hub is unavailable was handled. So a reader that gets one knows that its request took effect.
-/

namespace Switchboard

open Exchange

theorem ledger_snoc (past : List Moment) (m : Moment) :
    ledger (past ++ [m]) = ledger past ++ m.request?.toList :=
  filterMap_snoc Moment.request? past m

theorem handledIn_snoc (past : List Moment) (m : Moment) :
    handledIn (past ++ [m]) = handledIn past ++ m.handles?.toList :=
  filterMap_snoc Moment.handles? past m

/-- What has been asked stays in its place. -/
theorem ledger_mono {past : List Moment} {t : Ticket} {r : Request}
    (h : (ledger past)[t]? = some r) (m : Moment) : (ledger (past ++ [m]))[t]? = some r := by
  rw [ledger_snoc, List.getElem?_append_left (List.getElem?_eq_some_iff.mp h).1]
  exact h

/-- A hub's books agree with what it has been asked and what it has handled. -/
structure Books (asked : List Request) (done : List (Ticket × Request)) (h : Hub) : Prop where
  count : h.nextTicket = asked.length
  pending : ∀ p ∈ h.pending, asked[p.1]? = some p.2
  /-- Requests wait in the order of issue. -/
  sorted : h.pending.Pairwise fun p p' => p.1 < p'.1
  handled : ∀ p ∈ done, asked[p.1]? = some p.2
  /-- What has been handled does not wait any more. -/
  apart : ∀ p ∈ done, ∀ p' ∈ h.pending, p.1 ≠ p'.1
  once : done.Pairwise fun p p' => p.1 ≠ p'.1
  answered : ∀ p ∈ h.answers, p.2 ≠ .unavailable → ∃ r, (p.1, r) ∈ done
  stopped : h.running = false → h.exchange.registry = [] ∧ h.pending = []

/-- The hub's books agree with what has happened. -/
abbrev Booked (past : List Moment) (h : Hub) : Prop := Books (ledger past) (handledIn past) h

namespace Books

variable {asked : List Request} {done : List (Ticket × Request)} {h g : Hub}

theorem lt_nextTicket (hb : Books asked done h) {t : Ticket} {r : Request}
    (ht : asked[t]? = some r) : t < h.nextTicket := by
  rw [hb.count]
  exact (List.getElem?_eq_some_iff.mp ht).1

theorem keeps (hb : Books asked done h) (hk : h.Keeps g) : Books asked done g where
  count := hk.nextTicket.trans hb.count
  pending := by
    rw [hk.pending]
    exact hb.pending
  sorted := by
    rw [hk.pending]
    exact hb.sorted
  handled := hb.handled
  apart := by
    rw [hk.pending]
    exact hb.apart
  once := hb.once
  answered := by
    intro p hp hu
    rcases hk.answers p hp with hp | hp
    · exact hb.answered p hp hu
    · exact absurd hp hu
  stopped := by
    intro hr
    rw [hk.registry, hk.pending]
    exact hb.stopped (hk.running.symm.trans hr)

/-- A request that is issued gets the next number. -/
theorem enter (hb : Books asked done h) (r : Request) :
    Books (asked ++ [r]) done (h.enter (some r)) := by
  have old : ∀ {t : Ticket} {r' : Request}, asked[t]? = some r' →
      (asked ++ [r])[t]? = some r' := by
    intro t r' ht
    rw [List.getElem?_append_left (List.getElem?_eq_some_iff.mp ht).1]
    exact ht
  refine ⟨?_, ?_, ?_, fun p hp => old (hb.handled p hp), ?_, hb.once, hb.answered, ?_⟩
  · show h.nextTicket + 1 = _
    rw [hb.count, List.length_append]
    rfl
  · intro p hp
    rcases Hub.mem_pending_enter hp with hp | ⟨hp, hr⟩
    · exact old (hb.pending p hp)
    · rw [hp, hb.count, Option.some.inj hr]
      exact List.getElem?_concat_length
  · unfold Hub.enter
    dsimp only
    split
    · rw [List.pairwise_append]
      refine ⟨hb.sorted, List.pairwise_singleton _ _, fun p hp p' hp' => ?_⟩
      rw [List.mem_singleton.mp hp']
      exact hb.lt_nextTicket (hb.pending p hp)
    · exact hb.sorted
  · intro p hp p' hp'
    rcases Hub.mem_pending_enter hp' with hp' | ⟨hp', -⟩
    · exact hb.apart p hp p' hp'
    · rw [hp']
      exact Nat.ne_of_lt (hb.lt_nextTicket (hb.handled p hp))
  · intro hrun
    have hrun : h.running = false := hrun
    obtain ⟨hreg, hpend⟩ := hb.stopped hrun
    refine ⟨hreg, ?_⟩
    show (if h.running then _ else h.pending) = []
    rw [hrun]
    exact hpend

/-- A request that is handled is crossed out. -/
theorem cross {missed : List Lane} {t : Ticket} {r : Request} (hb : Books asked done h)
    (hn : h.next? missed = some (t, r)) (hpend : g.pending.Sublist (h.pending.filter (·.1 ≠ t)))
    (hnext : g.nextTicket = h.nextTicket)
    (hans : ∀ p ∈ g.answers, p ∈ h.answers ∨ p.1 = t ∨ p.2 = .unavailable)
    (hstop : g.running = false → g.exchange.registry = [] ∧ g.pending = []) :
    Books asked (done ++ [(t, r)]) g := by
  have hmem := Hub.mem_pending_of_next? hn
  have hwait : ∀ p ∈ g.pending, p ∈ h.pending ∧ p.1 ≠ t := by
    intro p hp
    obtain ⟨hp, hne⟩ := List.mem_filter.mp (hpend.subset hp)
    exact ⟨hp, of_decide_eq_true hne⟩
  have hdone : ∀ p ∈ done ++ [(t, r)], p ∈ done ∨ p = (t, r) := by
    intro p hp
    rcases List.mem_append.mp hp with hp | hp
    · exact Or.inl hp
    · exact Or.inr (List.mem_singleton.mp hp)
  refine ⟨hnext.trans hb.count, fun p hp => hb.pending p (hwait p hp).1,
    (hb.sorted.sublist List.filter_sublist).sublist hpend, ?_, ?_, ?_, ?_, hstop⟩
  · intro p hp
    rcases hdone p hp with hp | rfl
    · exact hb.handled p hp
    · exact hb.pending _ hmem
  · intro p hp p' hp'
    obtain ⟨hp', hne⟩ := hwait p' hp'
    rcases hdone p hp with hp | rfl
    · exact hb.apart p hp p' hp'
    · exact Ne.symm hne
  · refine List.pairwise_append.mpr ⟨hb.once, List.pairwise_singleton _ _, fun p hp p' hp' => ?_⟩
    rw [List.mem_singleton.mp hp']
    exact hb.apart p hp _ hmem
  · intro p hp hu
    rcases hans p hp with hp | hp | hp
    · obtain ⟨r', hr'⟩ := hb.answered p hp hu
      exact ⟨r', List.mem_append_left _ hr'⟩
    · exact ⟨r, List.mem_append_right _ (List.mem_singleton.mpr (congrArg (·, r) hp))⟩
    · exact absurd hp hu

end Books

namespace Booked

variable {past : List Moment} {m : Moment} {v : World}

theorem hub_step {missed : List Lane} {t : Ticket} {r : Request}
    (hm : m.move = .act (.hub missed)) (hn : m.hub.next? missed = some (t, r)) :
    ledger (past ++ [m]) = ledger past ∧
      handledIn (past ++ [m]) = handledIn past ++ [(t, r)] := by
  rw [ledger_snoc, handledIn_snoc]
  unfold Moment.request? Moment.handles?
  rw [hm]
  dsimp only
  rw [hn]
  exact ⟨List.append_nil _, rfl⟩

theorem step (hb : Booked past m.hub) (he : Effect m v) : Booked (past ++ [m]) v.site.hub := by
  cases he with
  | other hn hk _ =>
    refine Books.keeps ?_ hk
    rw [ledger_snoc, handledIn_snoc, hn]
    cases m.request? with
    | none =>
      show Books (ledger past ++ []) (handledIn past ++ []) m.hub
      rw [List.append_nil, List.append_nil]
      exact hb
    | some r =>
      show Books (ledger past ++ [r]) (handledIn past ++ []) (m.hub.enter (some r))
      rw [List.append_nil]
      exact hb.enter r
  | @handle _ t r hm hn hh _ =>
    obtain ⟨hl, hd⟩ := hub_step hm hn
    unfold Booked
    rw [hl, hd]
    refine hb.cross hn ?_ hh.nextTicket ?_ ?_
    · rw [hh.pending]
    · intro p hp
      rcases hh.answers p hp with hp | hp
      · exact Or.inl hp
      · exact Or.inr (Or.inl hp)
    · intro hr
      have hempty := (hb.stopped (hh.running.symm.trans hr)).2
      have hmem := Hub.mem_pending_of_next? hn
      rw [hempty] at hmem
      cases hmem
  | @stop _ t hm hn hk _ =>
    have hempty : v.site.hub.pending = [] := hk.pending
    obtain ⟨hl, hd⟩ := hub_step hm hn
    unfold Booked
    rw [hl, hd]
    refine hb.cross hn ?_ hk.nextTicket ?_ fun _ => ⟨hk.registry, hempty⟩
    · rw [hempty]
      exact List.nil_sublist _
    · intro p hp
      rcases hk.answers p hp with hp | hp
      · exact Or.inl hp
      · exact Or.inr (Or.inr hp)

end Booked

end Switchboard
