import Mathlib.Algebra.Ring.Nat
import Switchboard.Proofs.Keys
import Switchboard.Proofs.Lanes
import Switchboard.Proofs.Stopping

/-!
# The counters balance

What the counters of a hub say about its history. Whoever has registered is in the registry, has
been unregistered, or was replaced (`Exchange.Owes`); a frame counts as delivered for each queue it
was put on; and an eviction is an entry that left because its queue was full.

A hub that is stopped lets everyone go without counting them. `Span` is a history that may end so.
-/

namespace Switchboard

open Wire Exchange

/-! ## What a history counts -/

/-- Those on whose queues the frame is put. -/
def Sending.takers (s : Sending) : List Entry :=
  s.before.registry.filter (s.before.takes s.target)

/-- The entries that leave by a sending because their queues are full. -/
def Sending.evicted (s : Sending) : List Entry :=
  (s.before.lostTo s.after).filter fun e => s.before.refusal? e = some .queueFull

/-- The entries that have left because their queues were full. -/
def evicted (past : List Incident) : List Entry := (sendings past).flatMap Sending.evicted

/-- Whether a registration takes the place of another. -/
def Exchange.replaces (x : Exchange) : Request → Bool
  | .register r => x.isOnline r.identity.userId
  | _ => false

/-- Whether a request is to publish something. -/
def Request.isDispatch : Request → Bool
  | dispatch .. => true
  | _ => false

namespace Incident

def replaces : Incident → Bool
  | handled x r _ _ => x.replaces r
  | taken .. => false

def isDispatch : Incident → Bool
  | handled _ r _ _ => r.isDispatch
  | taken .. => false

/-- The queue that is handed over. -/
def queue? : Incident → Option QueueId
  | handled _ r _ _ => r.queue?
  | taken .. => none

end Incident

/-- How many registrations have taken the place of another. -/
def replacements (past : List Incident) : Nat := past.countP Incident.replaces

/-- How many requests to publish something have been handled. -/
def dispatches (past : List Incident) : Nat := past.countP Incident.isDispatch

/-- The queues of all who have ever registered. -/
def handedOver (past : List Incident) : List QueueId := past.filterMap Incident.queue?

/-! ## Coming and going -/

namespace Exchange

/-- Whoever has registered is there, has been unregistered, or is one of `n` others. -/
def Owes (x : Exchange) (n : Nat) : Prop :=
  x.stats.registered = x.registry.length + x.stats.unregistered + n

variable {x : Exchange}

/-- One entry leaves with its user. -/
theorem length_depart (hx : x.UniqueUsers) {e : Entry} (he : e ∈ x.registry) :
    (x.depart e).registry.length + 1 = x.registry.length := by
  have hmap : (x.depart e).registry.map Entry.userId =
      (x.registry.map Entry.userId).erase e.userId := by
    rw [List.Nodup.erase_eq_filter hx, List.filter_map]
    refine congrArg (List.map Entry.userId) (List.filter_congr fun e' _ => ?_)
    rw [Bool.eq_iff_iff]
    simp
  have hlength := List.length_erase_add_one (List.mem_map_of_mem (f := Entry.userId) he)
  rw [← hmap, List.length_map, List.length_map] at hlength
  exact hlength

/-- A request changes what is owed by the registration that it replaces. -/
theorem Outset.owes {y : Exchange} {r : Request} (hc : x.Outset r y) (hx : x.UniqueUsers) {n : Nat}
    (h : x.Owes n) : y.Owes (n + if x.replaces r then 1 else 0) := by
  unfold Owes at *
  cases hc with
  | @join r hf =>
    have hrep : x.replaces (.register r) = false := isOnline_of_find?_none hf
    rw [hrep]
    show x.stats.registered + 1 = (x.registry ++ [r.entry]).length + x.stats.unregistered + _
    rw [List.length_append, List.length_singleton, h]
    simp
    omega
  | @replace r previous hf =>
    have hrep : x.replaces (.register r) = true := isOnline_of_find? hf
    have hlength := length_depart hx (mem_of_find? hf)
    rw [hrep]
    show x.stats.registered + 1 =
      ((x.depart previous).registry ++ [r.entry]).length + x.stats.unregistered + _
    rw [List.length_append, List.length_singleton, hlength, h, if_pos rfl]
    omega
  | @leave user c e hf =>
    have hlength := length_depart hx (mem_of_find? (findConnection?_eq_some.mp hf).1)
    show x.stats.registered = (x.depart e).registry.length + (x.stats.unregistered + 1) + n
    rw [h]
    omega
  | subscribe user c | unsubscribe user c =>
    show x.stats.registered = (x.updateTopics user c _).registry.length + _ + n
    rw [updateTopics, List.length_map]
    exact h
  | stay | dispatch | isOnline | onlineCount | shutdown => exact h

/-- A request by itself counts what it is, and nothing that is sent. -/
theorem Outset.counts {y : Exchange} {r : Request} (hc : x.Outset r y) :
    y.stats.published = x.stats.published + (if r.isDispatch then 1 else 0) ∧
      y.stats.delivered = x.stats.delivered ∧
      y.stats.slowConsumerEvictions = x.stats.slowConsumerEvictions ∧
      x.stats.unregistered ≤ y.stats.unregistered := by
  cases hc with
  | leave => exact ⟨rfl, rfl, rfl, Nat.le_succ _⟩
  | join | replace | stay | dispatch | subscribe | unsubscribe => exact ⟨rfl, rfl, rfl, le_rfl⟩
  | isOnline | onlineCount | shutdown => exact ⟨rfl, rfl, rfl, le_rfl⟩

end Exchange

/-! ## Sending -/

/-- What the counters of `y` say about the sendings that have led there from `x`. -/
structure Tally (x : Exchange) (log : List Sending) (y : Exchange) : Prop where
  registered : y.stats.registered = x.stats.registered
  published : y.stats.published = x.stats.published
  /-- Whoever leaves is counted. -/
  left : y.registry.length + y.stats.unregistered = x.registry.length + x.stats.unregistered
  delivered : y.stats.delivered = x.stats.delivered + (log.map fun s => s.takers.length).sum
  evictions : y.stats.slowConsumerEvictions =
    x.stats.slowConsumerEvictions + (log.flatMap Sending.evicted).length
  /-- Whoever is evicted leaves. -/
  among : y.stats.slowConsumerEvictions + x.stats.unregistered ≤
    y.stats.unregistered + x.stats.slowConsumerEvictions

namespace Sending

/-- Those whom a frame puts out are those who leave by it. -/
theorem lostTo_after (s : Sending) : s.before.lostTo s.after = s.refusers := by
  refine List.filter_congr fun e he => ?_
  rw [Bool.eq_iff_iff, decide_eq_true_eq, mem_after]
  simp [he]

theorem evicted_eq (s : Sending) :
    s.evicted = s.refusers.filter fun e => s.before.refusal? e = some .queueFull := by
  rw [evicted, lostTo_after]

theorem tally (s : Sending) : Tally s.before [s] s.after := by
  have hleft : s.refusers.length + s.after.registry.length = s.before.registry.length :=
    length_fanOut s.before s.target s.frame
  refine ⟨rfl, rfl, ?_, by simp [stats_after, takers], by simp [stats_after, evicted_eq], ?_⟩
  · show _ + (s.before.stats.unregistered + s.refusers.length) = _
    omega
  · have hslow := List.length_filter_le (fun e => decide (s.before.refusal? e = some .queueFull))
      s.refusers
    rw [stats_after]
    dsimp only
    omega

end Sending

theorem Tally.trans {x y z : Exchange} {a b : List Sending} (h : Tally x a y) (h' : Tally y b z) :
    Tally x (a ++ b) z where
  registered := h'.registered.trans h.registered
  published := h'.published.trans h.published
  left := h'.left.trans h.left
  delivered := by
    rw [h'.delivered, h.delivered, List.map_append, List.sum_append]
    omega
  evictions := by
    rw [h'.evictions, h.evictions, List.flatMap_append, List.length_append]
    omega
  among := by
    have h₁ := h.among
    have h₂ := h'.among
    omega

theorem Linked.tally {x y : Exchange} {log : List Sending} (h : Linked x log y) :
    Tally x log y := by
  induction h with
  | nil x => exact ⟨rfl, rfl, rfl, rfl, rfl, (Nat.add_comm _ _).le⟩
  | @cons s log y _ ih => exact s.tally.trans ih

/-! ## Queues -/

/-- A frame is put on as many queues as there are entries that take it. -/
theorem Sending.length_takers {s : Sending} (hx : s.before.WellKept) {queues : List QueueId}
    (hn : queues.Nodup) (hq : ∀ e ∈ s.before.registry, e.queue ∈ queues) :
    s.takers.length = queues.countP s.reaches := by
  have hperm : (s.takers.map Entry.queue).Perm (queues.filter s.reaches) := by
    refine (List.perm_ext_iff_of_nodup ?_ (hn.filter _)).mpr fun q => ?_
    · exact hx.queues.sublist (List.filter_sublist.map _)
    · have hany := s.any_takers q
      rw [List.mem_filter, ← hany, List.any_eq_true, List.mem_map]
      constructor
      · rintro ⟨e, he, rfl⟩
        exact ⟨hq e (List.mem_filter.mp he).1, e, he, decide_eq_true rfl⟩
      · rintro ⟨-, e, he, heq⟩
        exact ⟨e, he, of_decide_eq_true heq⟩
  rw [List.countP_eq_length_filter, ← hperm.length_eq, List.length_map]

/-- Whoever is put out takes their queue along. -/
theorem Sending.retired_of_refuser {s : Sending} (hx : s.before.WellKept) {e : Entry}
    (he : e ∈ s.refusers) : s.after.Retired e.queue := by
  obtain ⟨hm, hr⟩ := mem_refusers.mp he
  rcases (precedes_after hx).entries e hm with hretired | ⟨e', he', heq⟩
  · exact hretired
  · obtain ⟨hm', hr'⟩ := mem_after.mp he'
    rw [hx.eq_of_queue hm' hm (congrArg Registration.queue heq), hr] at hr'
    cases hr'

theorem sum_map_ite_add {α : Type} (p : α → Bool) (g : α → Nat) (l : List α) :
    (l.map fun a => (if p a then 1 else 0) + g a).sum = l.countP p + (l.map g).sum := by
  induction l with
  | nil => rfl
  | cons a l ih =>
    rw [List.map_cons, List.sum_cons, ih, List.map_cons, List.sum_cons, List.countP_cons]
    omega

/-- Counted by frames or by queues, as much has been delivered. -/
theorem sum_takers {log : List Sending} {queues : List QueueId} (hn : queues.Nodup)
    (hx : ∀ s ∈ log, s.before.WellKept)
    (hq : ∀ s ∈ log, ∀ e ∈ s.before.registry, e.queue ∈ queues) :
    (log.map fun s => s.takers.length).sum =
      (queues.map fun q => (log.filter (·.reaches q)).length).sum := by
  induction log with
  | nil => simp
  | cons s log ih =>
    have hhead := s.length_takers (hx s List.mem_cons_self) hn (hq s List.mem_cons_self)
    have htail := ih (fun t ht => hx t (List.mem_cons_of_mem s ht))
      fun t ht => hq t (List.mem_cons_of_mem s ht)
    have hcons : ∀ q, ((s :: log).filter (·.reaches q)).length =
        (if s.reaches q then 1 else 0) + (log.filter (·.reaches q)).length := by
      intro q
      rw [List.filter_cons]
      split
      · rw [List.length_cons, Nat.add_comm]
      · rw [Nat.zero_add]
    rw [List.map_cons, List.sum_cons, htail, hhead]
    simp only [hcons]
    rw [sum_map_ite_add]

/-- Whoever is in the registry once a request has changed it came by the request or was there. -/
theorem Exchange.Outset.queue_mem {x y : Exchange} {r : Request} (hc : x.Outset r y) {e : Entry}
    (he : e ∈ y.registry) :
    e.queue ∈ r.queue?.toList ∨ e.queue ∈ x.registry.map Entry.queue := by
  cases hc with
  | join =>
    rcases List.mem_append.mp he with he | he
    · exact Or.inr (List.mem_map_of_mem he)
    · rw [List.mem_singleton.mp he]
      exact Or.inl (List.mem_singleton.mpr rfl)
  | replace =>
    rcases List.mem_append.mp he with he | he
    · exact Or.inr (List.mem_map_of_mem (mem_depart.mp he).1)
    · rw [List.mem_singleton.mp he]
      exact Or.inl (List.mem_singleton.mpr rfl)
  | leave => exact Or.inr (List.mem_map_of_mem (mem_depart.mp he).1)
  | subscribe | unsubscribe =>
    obtain ⟨e₀, he₀, heq, -⟩ := mem_updateTopics he
    exact Or.inr (List.mem_map.mpr ⟨e₀, he₀, congrArg Registration.queue heq⟩)
  | stay | dispatch | isOnline | onlineCount | shutdown => exact Or.inr (List.mem_map_of_mem he)

/-- Nobody enters the registry between sendings. -/
theorem Linked.before_sublist {x y : Exchange} {log : List Sending} (h : Linked x log y)
    {s : Sending} (hs : s ∈ log) : s.before.registry.Sublist x.registry := by
  induction h with
  | nil x => cases hs
  | @cons t log y _ ih =>
    rcases List.mem_cons.mp hs with rfl | hs
    · exact List.Sublist.refl _
    · exact (ih hs).trans t.after_sublist

theorem handedOver_snoc (past : List Incident) (i : Incident) :
    handedOver (past ++ [i]) = handedOver past ++ i.queue?.toList :=
  filterMap_snoc _ _ _

theorem handedOver_receiving {m m' : Mail} {new : List Incident} (h : Receiving m new m')
    (past : List Incident) : handedOver (past ++ new) = handedOver past := by
  cases h <;> simp [handedOver, Incident.queue?]

namespace Exchange.Run

variable {past : List Incident} {x : Exchange}

/-- Every entry there has been had a queue that was handed over. -/
theorem queues_handedOver (h : Run past x) :
    (∀ e ∈ x.registry, e.queue ∈ handedOver past) ∧
      ∀ s ∈ sendings past, ∀ e ∈ s.before.registry, e.queue ∈ handedOver past := by
  induction h with
  | start clock => exact ⟨fun _ he => (nomatch he), fun _ hs => (nomatch hs)⟩
  | @handle past x y r log hr ha hh ih =>
    rw [handedOver_snoc, sendings_append, sendings_singleton]
    have hbegun : ∀ e ∈ (x.begun r).registry, e.queue ∈ handedOver past ++ r.queue?.toList := by
      intro e he
      rcases (Exchange.outset _ _).queue_mem he with hq | hq
      · exact List.mem_append_right _ hq
      · obtain ⟨e₀, he₀, heq⟩ := List.mem_map.mp hq
        exact List.mem_append_left _ (heq ▸ ih.1 e₀ he₀)
    refine ⟨fun e he => hbegun e (hh.linked.sublist.subset he), fun s hs e he => ?_⟩
    rcases List.mem_append.mp hs with hs | hs
    · exact List.mem_append_left _ (ih.2 s hs e he)
    · exact hbegun e ((hh.linked.before_sublist hs).subset he)
  | receive _ hm ih =>
    rw [handedOver_receiving hm, sendings_append, hm.sends_nothing, List.append_nil]
    exact ih

/-- A queue that has been handed over cannot be handed over again. -/
theorem not_fresh_of_handedOver (h : Run past x) {q : QueueId} (hq : q ∈ handedOver past) :
    ¬ x.Fresh q := by
  obtain ⟨i, hi, hqueue⟩ := List.mem_filterMap.mp hq
  obtain ⟨earlier, later, hp⟩ := List.append_of_mem hi
  cases i with
  | handled x₀ r log x₁ =>
    cases r with
    | register r =>
      obtain rfl : r.queue = q := Option.some.inj hqueue
      obtain ⟨-, x', hholds, hprecedes, -⟩ := h.since hp
      intro hfresh
      rcases hprecedes.holds hholds with hretired | ⟨e, he, heq⟩
      · exact hfresh.not_retired hretired
      · exact hfresh.2 e he (congrArg Registration.queue heq)
    | unregister | dispatch | subscribe | unsubscribe | isOnline | onlineCount | shutdown =>
      cases hqueue
  | taken => cases hqueue

/-- No queue is handed over twice. -/
theorem handedOver_nodup (h : Run past x) : (handedOver past).Nodup := by
  induction h with
  | start clock => exact List.nodup_nil
  | @handle past x y r log hr ha hh ih =>
    rw [handedOver_snoc]
    cases r with
    | register r =>
      refine List.nodup_append.mpr ⟨ih, List.nodup_singleton _, ?_⟩
      rintro q hq q' hq' rfl
      obtain rfl := List.mem_singleton.mp hq'
      exact hr.not_fresh_of_handedOver hq ha
    | unregister | dispatch | subscribe | unsubscribe | isOnline | onlineCount | shutdown =>
      rw [Incident.queue?, Request.queue?, Option.toList_none, List.append_nil]
      exact ih
  | receive _ hm ih =>
    rw [handedOver_receiving hm]
    exact ih

/-- Nobody is evicted twice. -/
theorem evicted_nodup (h : Run past x) : ((evicted past).map Entry.queue).Nodup := by
  unfold evicted
  rw [List.map_flatMap, List.nodup_flatMap]
  refine ⟨fun s hs => ?_, ?_⟩
  · rw [s.evicted_eq]
    exact (h.between hs).1.queues.sublist ((List.filter_sublist.trans List.filter_sublist).map _)
  · have hlater : (sendings past).Pairwise fun s t =>
        s.before.WellKept ∧ s.after.Precedes t.before :=
      List.Pairwise.imp_of_mem (fun hs _ hp => ⟨(h.between hs).1, hp⟩) h.pairwise
    refine hlater.imp fun {s t} ⟨hw, hp⟩ q hs ht => ?_
    obtain ⟨e, he, rfl⟩ := List.mem_map.mp hs
    obtain ⟨e', he', heq⟩ := List.mem_map.mp ht
    rw [Sending.evicted_eq] at he he'
    have hretired := hp.retired _ (Sending.retired_of_refuser hw (List.mem_filter.mp he).1)
    exact hretired.2 e' (Sending.mem_refusers.mp (List.mem_filter.mp he').1).1 heq

end Exchange.Run

/-! ## The balance -/

/-- What the counters of an exchange say about its history, given how many were let go without
being counted and the registry as it is kept by keys. -/
structure Balanced (past : List Incident) (letGo : Nat) (table : Table) (x : Exchange) : Prop where
  registered : x.stats.registered =
    x.registry.length + x.stats.unregistered + replacements past + letGo
  evictions : x.stats.slowConsumerEvictions = (evicted past).length
  evictedOnce : ((evicted past).map Entry.queue).Nodup
  evictionsLe : x.stats.slowConsumerEvictions ≤ x.stats.unregistered
  delivered : x.stats.delivered =
    ((handedOver past).map fun q => (enqueued past x q).length).sum
  handedOverOnce : (handedOver past).Nodup
  published : x.stats.published = dispatches past
  entries : table.map Prod.snd = x.registry
  keys : ∀ p ∈ table, p.1 = p.2.identity.userId

/--
`Span past letGo table x`: the history `past` leads to `x`, where the registry is `table` by keys.
If the hub has been stopped in between, `letGo` were let go then; from then on something happens
only at the receiving ends.
-/
inductive Span : List Incident → Nat → Table → Exchange → Prop
  | run {past : List Incident} {x : Exchange} :
      Run past x → Span past 0 (Table.ofHistory past) x
  | stop {past : List Incident} {h : Hub} :
      Run past h.exchange → Span past h.exchange.registry.length [] h.stop.exchange
  | receive {past new : List Incident} {letGo : Nat} {table : Table} {x : Exchange} {m : Mail} :
      Span past letGo table x → Receiving x.mail new m →
      Span (past ++ new) letGo table { x with mail := m }

theorem replacements_snoc (past : List Incident) (x y : Exchange) (r : Request)
    (log : List Sending) : replacements (past ++ [.handled x r log y]) =
      replacements past + if x.replaces r then 1 else 0 := by
  unfold replacements
  rw [List.countP_append, List.countP_singleton]
  rfl

theorem dispatches_snoc (past : List Incident) (x y : Exchange) (r : Request)
    (log : List Sending) : dispatches (past ++ [.handled x r log y]) =
      dispatches past + if r.isDispatch then 1 else 0 := by
  unfold dispatches
  rw [List.countP_append, List.countP_singleton]
  rfl

theorem evicted_snoc (past : List Incident) (x y : Exchange) (r : Request) (log : List Sending) :
    evicted (past ++ [.handled x r log y]) = evicted past ++ log.flatMap Sending.evicted := by
  unfold evicted
  rw [sendings_append, sendings_singleton, List.flatMap_append]
  rfl

/-- What happens at the receiving ends is not counted. -/
theorem Receiving.counts {m m' : Mail} {new : List Incident} (h : Receiving m new m')
    (past : List Incident) : replacements (past ++ new) = replacements past ∧
      dispatches (past ++ new) = dispatches past ∧ evicted (past ++ new) = evicted past := by
  refine ⟨?_, ?_, ?_⟩
  · unfold replacements
    rw [List.countP_append]
    cases h <;> rfl
  · unfold dispatches
    rw [List.countP_append]
    cases h <;> rfl
  · unfold evicted
    rw [sendings_append, h.sends_nothing, List.append_nil]

/-- What a run has counted. -/
structure Exchange.Counted (past : List Incident) (x : Exchange) : Prop where
  owed : x.Owes (replacements past)
  published : x.stats.published = dispatches past
  evictions : x.stats.slowConsumerEvictions = (evicted past).length
  among : x.stats.slowConsumerEvictions ≤ x.stats.unregistered
  delivered : x.stats.delivered = ((sendings past).map fun s => s.takers.length).sum

namespace Exchange

variable {past : List Incident} {x y : Exchange} {r : Request} {log : List Sending}

theorem Counted.handle (h : x.Counted past) (hx : x.UniqueUsers) (hh : Handling x r log y) :
    y.Counted (past ++ [.handled x r log y]) := by
  have htally := hh.linked.tally
  have hout := x.outset r
  have howed := hout.owes hx h.owed
  obtain ⟨hpublished, hdelivered, hevictions, hunregistered⟩ := hout.counts
  refine ⟨?_, ?_, ?_, ?_, ?_⟩
  · rw [replacements_snoc]
    unfold Owes at howed ⊢
    rw [htally.registered, howed]
    have := htally.left
    omega
  · rw [dispatches_snoc, htally.published, hpublished, h.published]
  · rw [evicted_snoc, List.length_append, htally.evictions, hevictions, h.evictions]
  · have h₁ := htally.among
    have h₂ := h.among
    omega
  · rw [sendings_append, sendings_singleton, List.map_append, List.sum_append, ← h.delivered,
      htally.delivered, hdelivered]
    rfl

theorem Run.counted (h : Run past x) : x.Counted past := by
  induction h with
  | start clock => exact ⟨rfl, rfl, rfl, le_rfl, rfl⟩
  | handle hr ha hh ih => exact ih.handle hr.wellKept.users hh
  | receive _ hm ih =>
    obtain ⟨hreplacements, hdispatches, hevicted⟩ := hm.counts _
    refine ⟨?_, ?_, ?_, ih.among, ?_⟩
    · rw [hreplacements]
      exact ih.owed
    · rw [hdispatches]
      exact ih.published
    · rw [hevicted]
      exact ih.evictions
    · rw [sendings_append, hm.sends_nothing, List.append_nil]
      exact ih.delivered

/-- As much has been delivered as has come into the queues. -/
theorem Run.delivered (h : Run past x) :
    x.stats.delivered = ((handedOver past).map fun q => (enqueued past x q).length).sum := by
  simp only [h.enqueued_eq, List.length_map]
  rw [h.counted.delivered]
  exact sum_takers h.handedOver_nodup (fun s hs => (h.between hs).1) h.queues_handedOver.2

theorem Run.balances (h : Run past x) : Balanced past 0 (Table.ofHistory past) x where
  registered := h.counted.owed
  evictions := h.counted.evictions
  evictedOnce := h.evicted_nodup
  evictionsLe := h.counted.among
  delivered := h.delivered
  handedOverOnce := h.handedOver_nodup
  published := h.counted.published
  entries := by
    rw [Table.ofHistory_eq h, Table.keyed, List.map_map]
    exact List.map_id _
  keys p hp := by
    rw [Table.ofHistory_eq h] at hp
    obtain ⟨e, -, rfl⟩ := List.mem_map.mp hp
    rfl

end Exchange

/-- **The counters balance**, whatever was handled and whatever happened at the receiving ends, and
also once the hub has been stopped. -/
theorem counters_balance {past : List Incident} {letGo : Nat} {table : Table} {x : Exchange}
    (h : Span past letGo table x) : Balanced past letGo table x := by
  induction h with
  | run h => exact h.balances
  | @stop past hub h =>
    -- everyone who is in the registry is let go of, and nothing is counted
    have hb := h.balances
    have hsame : ∀ q, enqueued past hub.stop.exchange q = enqueued past hub.exchange q := by
      intro q
      unfold enqueued
      rw [hub.framesOf_stop]
    refine ⟨?_, ?_, hb.evictedOnce, ?_, ?_, hb.handedOverOnce, ?_, ?_, fun p hp => nomatch hp⟩
    · have hregistered := hb.registered
      rw [hub.stats_stop, hub.registry_stop, List.length_nil]
      omega
    · rw [hub.stats_stop]
      exact hb.evictions
    · rw [hub.stats_stop]
      exact hb.evictionsLe
    · rw [hub.stats_stop, hb.delivered]
      simp only [hsame]
    · rw [hub.stats_stop]
      exact hb.published
    · rw [hub.registry_stop]
      rfl
  | @receive past new letGo table x m _ hm hb =>
    obtain ⟨hreplacements, hdispatches, hevicted⟩ := hm.counts past
    refine ⟨?_, ?_, ?_, hb.evictionsLe, ?_, ?_, ?_, hb.entries, hb.keys⟩
    · rw [hreplacements]
      exact hb.registered
    · rw [hevicted]
      exact hb.evictions
    · rw [hevicted]
      exact hb.evictedOnce
    · rw [handedOver_receiving hm]
      simp only [hm.enqueued_eq]
      exact hb.delivered
    · rw [handedOver_receiving hm]
      exact hb.handedOverOnce
    · rw [hdispatches]
      exact hb.published

/-! ## A hub's own steps -/

/-- Whatever a hub handles next, its history goes on. -/
theorem Span.step {past : List Incident} {h g : Hub} {missed : List Lane}
    (hp : Run past h.exchange) (ha : ∀ t r, h.next? missed = some (t, r) → h.exchange.Admits r)
    (hs : h.step? missed = some g) :
    ∃ new letGo table, Span (past ++ new) letGo table g.exchange ∧
      (g.running = true → Run (past ++ new) g.exchange) := by
  obtain ⟨t, r, hn, rfl⟩ := Hub.step?_eq_some hs
  by_cases hr : r = .shutdown
  · subst hr
    have hstop : Span past h.exchange.registry.length [] (h.take t).stop.exchange :=
      Span.stop (h := h.take t) hp
    refine ⟨[], _, _, (List.append_nil past).symm ▸ hstop, fun hrunning => ?_⟩
    cases (h.take t).running_stop.symm.trans hrunning
  · have hx := (h.handled_handle t hr).exchange
    by_cases hchange : r.isExchange = true
    · obtain ⟨log, hh⟩ := handling_handled h.exchange hchange
      have hrun := hp.handle (ha t r hn) (hx ▸ hh)
      exact ⟨_, _, _, .run hrun, fun _ => hrun⟩
    · have hrun : Run (past ++ []) ((h.take t).handle t r).exchange := by
        rw [List.append_nil, hx, handled_of_not_isExchange h.exchange hchange]
        exact hp
      exact ⟨_, _, _, .run hrun, fun _ => hrun⟩

/-! ## A sample that is stopped -/

/-- A hub that has gone through the sample. -/
def Sample.hub : Hub := ⟨annGoes.after, true, [], 4, []⟩

/-- Bob is let go, after Ann was evicted. -/
theorem counters_balance_sample : Span Sample.past 1 [] Sample.hub.stop.exchange ∧
    Balanced Sample.past 1 [] Sample.hub.stop.exchange ∧
    Sample.hub.stop.exchange.stats = ⟨2, 1, 2, 3, 1⟩ :=
  have hone : Sample.hub.exchange.registry.length = 1 := rfl
  have hspan : Span Sample.past 1 [] Sample.hub.stop.exchange :=
    hone ▸ Span.stop (h := Sample.hub) Sample.run
  ⟨hspan, counters_balance hspan, rfl⟩

namespace Closing

def ann : Registration := ⟨0, ⟨"ann", "Ann", false⟩, 0⟩

def start : Hub :=
  (Hub.start Sample.midnight).update fun x => { x with mail := (x.mail.create 8).2 }

/-- Ann registers, and the hub is to stop. -/
def asked : Hub := ((start.issue (.register ann)).2.issue .shutdown).2

def served : Hub := (asked.take 0).handle 0 (.register ann)

def stopped : Hub := (served.take 1).handle 1 .shutdown

theorem steps : asked.step? [] = some served ∧ served.step? [] = some stopped := ⟨rfl, rfl⟩

theorem admits : start.exchange.Admits (.register ann) :=
  ⟨⟨_, rfl, rfl⟩, fun _ he => nomatch he⟩

/-- What was handled before the hub stopped. -/
def past (log : List Sending) : List Incident :=
  [.handled start.exchange (.register ann) log served.exchange]

theorem run : ∃ log, Run (past log) served.exchange := by
  obtain ⟨log, hh⟩ := handling_register start.exchange ann
  have hstart : Run [] start.exchange := .receive (.start Sample.midnight) (.create _ 8)
  exact ⟨log, hstart.handle admits hh⟩

end Closing

/-- Ann registered and is not there any more, but she has neither been unregistered nor replaced. -/
theorem stopped_unbalanced : ∃ log, Run (Closing.past log) Closing.served.exchange ∧
    Closing.served.step? [] = some Closing.stopped ∧
    Closing.stopped.exchange.stats.registered ≠ Closing.stopped.exchange.registry.length +
      Closing.stopped.exchange.stats.unregistered + replacements (Closing.past log) := by
  obtain ⟨log, hrun⟩ := Closing.run
  have hstats : Closing.stopped.exchange.stats = ⟨1, 0, 0, 0, 0⟩ := by decide +kernel
  have hregistry : Closing.stopped.exchange.registry = [] := by decide +kernel
  have hreplacements : replacements (Closing.past log) = 0 := rfl
  refine ⟨log, hrun, Closing.steps.2, ?_⟩
  rw [hstats, hregistry, hreplacements]
  decide

end Switchboard
