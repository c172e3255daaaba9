import Switchboard.Proofs.Erasure
import Switchboard.Proofs.Ordering
import Switchboard.Proofs.Stopping

/-!
# What becomes of a queue that is handed over

A registration brings the sending end of a queue. It waits with the registration, then stands in the
registry with the entry, and is let go of when the entry leaves. So a queue that was brought always
is with a registration that waits, with an entry, or let go of (`Proper.held`). Frames only ever
join it at its end and leave it at its front, so none comes or goes unaccounted for
(`Proper.passed`).
-/

namespace Switchboard

open Wire Exchange

/-! ## Held or let go of -/

namespace Exchange

/-- The hub has let go of a queue. -/
def LetsGo (x : Exchange) (q : QueueId) : Prop :=
  ∃ a, x.mail.get? q = some a ∧ a.hasSender = false

/-- An entry has the queue, or the hub has let go of it. -/
def Settles (x : Exchange) (q : QueueId) : Prop := (∃ e ∈ x.registry, e.queue = q) ∨ x.LetsGo q

variable {x y : Exchange} {q : QueueId}

theorem letsGo_release (hq : (x.mail.get? q).isSome = true) : (x.release q).LetsGo q := by
  obtain ⟨a, ha⟩ := Option.isSome_iff_exists.mp hq
  refine ⟨a.release, ?_, rfl⟩
  rw [get?_release, if_pos rfl, ha]
  rfl

/-- Letting go of a queue gives none back. -/
theorem LetsGo.release (h : x.LetsGo q) (q' : QueueId) : (x.release q').LetsGo q := by
  obtain ⟨a, ha, hs⟩ := h
  unfold LetsGo
  rw [get?_release, ha]
  split
  · exact ⟨a.release, rfl, rfl⟩
  · exact ⟨a, rfl, hs⟩

theorem isSome_get? (x : Exchange) (q : QueueId) :
    (x.mail.get? q).isSome = decide (q < x.queueCount) := by
  unfold Mail.get? queueCount
  rw [Bool.eq_iff_iff, isSome_getElem?, decide_eq_true_eq]

/-- Whoever leaves lets go of their queue. -/
theorem Settles.depart (h : x.Settles q) (hx : x.UniqueUsers)
    (hq : (x.mail.get? q).isSome = true) {e : Entry} (he : e ∈ x.registry) :
    (x.depart e).Settles q := by
  rcases h with ⟨e', he', rfl⟩ | hgone
  · by_cases hu : e'.userId = e.userId
    · rw [hx.eq_of_userId he' he hu] at hq ⊢
      exact Or.inr (letsGo_release hq)
    · exact Or.inl ⟨e', mem_depart.mpr ⟨he', hu⟩, rfl⟩
  · exact Or.inr (hgone.release e.queue)

theorem Settles.insert (h : x.Settles q) (e : Entry) : (x.insert e).Settles q := by
  rcases h with ⟨e', he', heq⟩ | hgone
  · exact Or.inl ⟨e', List.mem_append_left _ he', heq⟩
  · exact Or.inr hgone

theorem Settles.updateTopics (h : x.Settles q) (user : String) (c : ConnectionId)
    (f : List Topic → List Topic) : (x.updateTopics user c f).Settles q := by
  rcases h with ⟨e, he, rfl⟩ | hgone
  · have hm : e.registration ∈ (x.updateTopics user c f).registry.map Entry.registration := by
      rw [map_registration_updateTopics]
      exact List.mem_map_of_mem he
    obtain ⟨e', he', heq⟩ := List.mem_map.mp hm
    exact Or.inl ⟨e', he', congrArg Registration.queue heq⟩
  · exact Or.inr hgone

end Exchange

/-- Whoever is put out lets go of their queue. -/
theorem Sending.settles_after {s : Sending} {q : QueueId} (h : s.before.Settles q)
    (hq : (s.before.mail.get? q).isSome = true) : s.after.Settles q := by
  obtain ⟨a, ha⟩ := Option.isSome_iff_exists.mp hq
  rcases h with ⟨e, he, rfl⟩ | ⟨b, hb, hsender⟩
  · by_cases hr : s.before.refuses s.target e = true
    · have hout : s.putsOut e.queue = true := by
        rw [← any_refusers, List.any_eq_true]
        exact ⟨e, mem_refusers.mpr ⟨he, hr⟩, decide_eq_true rfl⟩
      refine Or.inr ⟨a.release, ?_, rfl⟩
      rw [get?_after, ha, not_reaches_of_putsOut hout, hout]
      rfl
    · exact Or.inl ⟨e, mem_after.mpr ⟨he, Bool.eq_false_iff.mpr hr⟩, rfl⟩
  · refine Or.inr ⟨_, by rw [get?_after, hb]; rfl, ?_⟩
    split
    · exact hsender
    · split
      · rfl
      · exact hsender

theorem Linked.settles {x y : Exchange} {log : List Sending} (h : Linked x log y) {q : QueueId}
    (hx : x.Settles q) (hq : (x.mail.get? q).isSome = true) : y.Settles q := by
  induction h with
  | nil x => exact hx
  | @cons s log y _ ih =>
    refine ih (s.settles_after hx hq) ?_
    rw [Sending.get?_after, Option.isSome_map]
    exact hq

namespace Exchange

variable {x : Exchange} {q : QueueId}

/-- What a request changes directly leaves a queue settled, and settles the one that it brings. -/
theorem Outset.settles {y : Exchange} {r : Request} (hc : x.Outset r y) (hx : x.UniqueUsers)
    (hq : (x.mail.get? q).isSome = true) (h : x.Settles q ∨ r.queue? = some q) :
    y.Settles q := by
  have hnew : ∀ (z : Exchange) (reg : Registration), reg.queue = q →
      (z.insert reg.entry).Settles q := fun z reg heq =>
    Or.inl ⟨reg.entry, List.mem_append_right _ (List.mem_singleton.mpr rfl), heq⟩
  cases hc with
  | @join r hf =>
    rcases h with h | h
    · exact h.insert r.entry
    · exact hnew x r (Option.some.inj h)
  | @replace r previous hf =>
    rcases h with h | h
    · exact (h.depart hx hq (mem_of_find? hf)).insert r.entry
    · exact hnew (x.depart previous) r (Option.some.inj h)
  | leave hf =>
    have h := h.resolve_right (by simp [Request.queue?])
    exact h.depart hx hq (mem_of_find? (findConnection?_eq_some.mp hf).1)
  | subscribe user c | unsubscribe user c =>
    exact (h.resolve_right (by simp [Request.queue?])).updateTopics user c _
  | stay | dispatch | isOnline | onlineCount | shutdown =>
    exact h.resolve_right (by simp [Request.queue?])

theorem linked_handled (x : Exchange) (r : Request) :
    ∃ log, Linked (x.begun r) log (x.handled r) := by
  by_cases hr : r.isExchange
  · obtain ⟨log, h⟩ := handling_handled x hr
    exact ⟨log, h.linked⟩
  · cases r <;> first | exact absurd rfl hr | exact ⟨[], .nil x⟩

theorem isSome_get?_handled (x : Exchange) (r : Request) (q : QueueId) :
    ((x.handled r).mail.get? q).isSome = (x.mail.get? q).isSome := by
  rw [isSome_get?, isSome_get?, queueCount_handled]

theorem settles_handled (hx : x.UniqueUsers) (hq : (x.mail.get? q).isSome = true) {r : Request}
    (h : x.Settles q ∨ r.queue? = some q) : (x.handled r).Settles q := by
  obtain ⟨log, hl⟩ := x.linked_handled r
  refine hl.settles ((x.outset r).settles hx hq h) ?_
  rw [isSome_get?, ← hl.queueCount, ← isSome_get?, isSome_get?_handled]
  exact hq

/-! ## Frames join at the end -/

theorem Outset.framesOf {y : Exchange} {r : Request} (hc : x.Outset r y) (q : QueueId) :
    y.framesOf q = x.framesOf q := by
  cases hc with
  | @replace r previous => exact framesOf_depart x previous q
  | @leave user c e => exact framesOf_depart x e q
  | join | stay | dispatch | subscribe | unsubscribe | isOnline | onlineCount | shutdown => rfl

theorem framesOf_handled (x : Exchange) (r : Request) (q : QueueId) :
    x.framesOf q <+: (x.handled r).framesOf q := by
  obtain ⟨log, hl⟩ := x.linked_handled r
  rw [hl.framesOf, (x.outset r).framesOf]
  exact List.prefix_append _ _

theorem framesOf_foldl_release (x : Exchange) (queues : List QueueId) (q : QueueId) :
    (queues.foldl Exchange.release x).framesOf q = x.framesOf q := by
  induction queues generalizing x with
  | nil => rfl
  | cons q₀ queues ih => exact (ih (x.release q₀)).trans (framesOf_release x q₀ q)

end Exchange

/-! ## Histories -/

/-- From `m` to `m'` frames only leave queues at the front. No queue is lost, none is made with
frames in it, and no sending end that was let go of comes back. -/
structure Mail.Drains (m m' : Mail) : Prop where
  kept : ∀ q a, m.get? q = some a → ∃ b, m'.get? q = some b ∧ b.frames <:+ a.frames ∧
    (a.hasSender = false → b.hasSender = false)
  made : ∀ q b, m.get? q = none → m'.get? q = some b → b.frames = []

/-- What happens to queues from outside drains them, and a registration brings a queue that there
is. -/
def Occasion.IsProper (o : Occasion) : Prop :=
  (∀ f, o.event = .tend f → o.hub.exchange.mail.Drains (f o.hub.exchange.mail)) ∧
    ∀ r q, o.event = .issue r → r.queue? = some q → (o.hub.exchange.mail.get? q).isSome = true

namespace Occasion

variable {h : Hub}

theorem isProper_tend {f : Mail → Mail} (hd : h.exchange.mail.Drains (f h.exchange.mail)) :
    IsProper ⟨h, .tend f⟩ := by
  refine ⟨fun g hg => ?_, fun _ _ h => nomatch h⟩
  rw [← Occurrence.tend.inj hg]
  exact hd

theorem isProper_handle (h : Hub) (missed : List Lane) : IsProper ⟨h, .handle missed⟩ :=
  ⟨(fun _ h => nomatch h), fun _ _ h => nomatch h⟩

theorem isProper_issue {r : Request}
    (hq : ∀ q, r.queue? = some q → (h.exchange.mail.get? q).isSome = true) :
    IsProper ⟨h, .issue r⟩ := by
  refine ⟨nofun, fun r' q hr => ?_⟩
  rw [← Occurrence.issue.inj hr]
  exact hq q

end Occasion

namespace Mail

variable {m m' : Mail}

theorem drains_create (m : Mail) (capacity : Nat) : m.Drains (m.create capacity).2 where
  kept := by
    intro q a ha
    refine ⟨a, ?_, List.suffix_rfl, id⟩
    have hne : q ≠ m.queues.length := by
      intro hq
      subst hq
      have hnone : m.get? m.queues.length = none := List.getElem?_eq_none (Nat.le_refl _)
      rw [hnone] at ha
      cases ha
    rw [get?_create, if_neg hne]
    exact ha
  made := by
    intro q b hnone hb
    rw [get?_create] at hb
    split at hb
    · rw [← Option.some.inj hb]
      rfl
    · rw [hnone] at hb
      cases hb

theorem drains_modify (m : Mail) (q : QueueId) {f : Queue → Queue}
    (hframes : ∀ a, m.get? q = some a → (f a).frames <:+ a.frames)
    (hsender : ∀ a, m.get? q = some a → a.hasSender = false → (f a).hasSender = false) :
    m.Drains (m.modify q f) where
  kept := by
    intro q' a ha
    rw [get?_modify]
    by_cases hq : q = q'
    · subst hq
      rw [if_pos rfl, ha]
      exact ⟨f a, rfl, hframes a ha, hsender a ha⟩
    · rw [if_neg hq]
      exact ⟨a, ha, List.suffix_rfl, id⟩
  made := by
    intro q' b hnone hb
    rw [get?_modify, hnone] at hb
    split at hb <;> cases hb

end Mail

namespace Exchange

variable {x : Exchange} {m : Mail} {q : QueueId}

theorem LetsGo.drains (h : x.LetsGo q) (hm : x.mail.Drains m) :
    ({ x with mail := m } : Exchange).LetsGo q := by
  obtain ⟨a, ha, hs⟩ := h
  obtain ⟨b, hb, -, hsender⟩ := hm.kept q a ha
  exact ⟨b, hb, hsender hs⟩

theorem Settles.drains (h : x.Settles q) (hm : x.mail.Drains m) :
    ({ x with mail := m } : Exchange).Settles q :=
  h.imp id fun hgone => hgone.drains hm

theorem isSome_get?_drains (hq : (x.mail.get? q).isSome = true) (hm : x.mail.Drains m) :
    (m.get? q).isSome = true := by
  obtain ⟨a, ha⟩ := Option.isSome_iff_exists.mp hq
  obtain ⟨b, hb, -, -⟩ := hm.kept q a ha
  rw [hb]
  rfl

theorem framesOf_drains (hm : x.mail.Drains m) (q : QueueId) :
    ({ x with mail := m } : Exchange).framesOf q <:+ x.framesOf q := by
  unfold framesOf
  cases ha : x.mail.get? q with
  | some a =>
    obtain ⟨b, hb, hframes, -⟩ := hm.kept q a ha
    rw [hb]
    exact hframes
  | none =>
    cases hb : m.get? q with
    | none => exact List.suffix_rfl
    | some b =>
      have hempty : b.frames = [] := hm.made q b ha hb
      show b.frames <:+ _
      rw [hempty]
      exact List.nil_suffix

end Exchange

namespace Hub

variable {h : Hub} {q : QueueId}

/-- A queue is taken care of: it is with a registration that waits, with an entry, or let go of. -/
structure Minds (h : Hub) (q : QueueId) : Prop where
  there : (h.exchange.mail.get? q).isSome = true
  place : q ∈ brought h.pending ∨ h.exchange.Settles q

/-- A registration that is issued waits. -/
theorem minds_issue {r : Request} (hr : h.running = true)
    (hthere : (h.exchange.mail.get? q).isSome = true) (hq : h.Minds q ∨ r.queue? = some q) :
    (h.issue r).2.Minds q := by
  rw [Hub.issue_of_running hr]
  refine ⟨hthere, ?_⟩
  dsimp only
  rw [brought_append]
  rcases hq with hq | hq
  · exact hq.place.imp (List.mem_append_left _) id
  · exact Or.inl (List.mem_append_right _ (mem_brought.mpr ⟨_, List.mem_singleton.mpr rfl, hq⟩))

/-- A registration that is handled becomes an entry; what waits goes on waiting. -/
theorem Minds.handle (hm : h.Minds q) (hu : h.exchange.UniqueUsers) {t : Ticket} {r : Request}
    (hr : r ≠ .shutdown) (hticket : ∀ r', (t, r') ∈ h.pending → r' = r) :
    ((h.take t).handle t r).Minds q := by
  have hh := h.handled_handle t hr
  refine ⟨?_, ?_⟩
  · rw [hh.exchange, Exchange.isSome_get?_handled]
    exact hm.there
  · rw [hh.exchange, hh.pending]
    rcases hm.place with hwaits | hsettles
    · obtain ⟨p, hmem, hqueue⟩ := mem_brought.mp hwaits
      by_cases hpt : p.1 = t
      · -- it is the registration that is handled
        have hpr : p.2 = r := hticket p.2 (hpt ▸ hmem)
        exact Or.inr (Exchange.settles_handled hu hm.there (Or.inr (hpr ▸ hqueue)))
      · refine Or.inl (mem_brought.mpr ⟨p, ?_, hqueue⟩)
        exact List.mem_filter.mpr ⟨hmem, decide_eq_true hpt⟩
    · exact Or.inr (Exchange.settles_handled hu hm.there (Or.inl hsettles))

end Hub

namespace Traffic

variable {clock : Time.Timestamp} {h₀ h g : Hub} {past a b : List Occasion} {q : QueueId}

/-- A history in which everything is proper. -/
def Proper (past : List Occasion) : Prop := ∀ o ∈ past, o.IsProper

theorem Proper.init {o : Occasion} (hp : Proper (past ++ [o])) : Proper past :=
  fun o ho => hp o (List.mem_append_left _ ho)

theorem Proper.last {o : Occasion} (hp : Proper (past ++ [o])) : o.IsProper :=
  hp o (List.mem_append_right _ (List.mem_singleton.mpr rfl))

/-- While the hub runs, a queue that was brought is taken care of. -/
theorem Proper.held (hp : Proper past) (ht : Traffic (.start clock) past h)
    (hr : h.running = true) (hq : q ∈ brought (issued past)) : h.Minds q := by
  induction ht with
  | start => cases hq
  | @next past u v e ht hm ih =>
    obtain ⟨hrun, -⟩ := effect_of_meet? hm hr
    have ih := ih hp.init hrun
    rw [issued_snoc, brought_append] at hq
    cases e with
    | issue r =>
      obtain rfl := Option.some.inj hm
      rcases List.mem_append.mp hq with hq | hq
      · exact Hub.minds_issue hrun (ih hq).there (Or.inl (ih hq))
      · obtain ⟨p, hmem, hqueue⟩ := mem_brought.mp hq
        obtain rfl := List.mem_singleton.mp hmem
        exact Hub.minds_issue hrun (hp.last.2 r q rfl hqueue) (Or.inr hqueue)
    | handle =>
      obtain ⟨t, r, hn, rfl⟩ := Hub.step?_eq_some hm
      have hpending := ht.filed.pending
      refine (ih (by simpa [brought, Occasion.issues?] using hq)).handle
        (ht.uniqueUsers List.nodup_nil) (Hub.ne_shutdown_of_running hr) fun r' hmem => ?_
      exact ht.request_unique (hpending.subset hmem)
        (hpending.subset (Hub.mem_pending_of_next? hn))
    | tend f =>
      have hminds := ih (by simpa [brought, Occasion.issues?] using hq)
      have hd := hp.last.1 f rfl
      obtain rfl := Option.some.inj hm
      exact ⟨Exchange.isSome_get?_drains hminds.there hd,
        hminds.place.imp id fun hs => hs.drains hd⟩
    | setClock clock =>
      have hminds := ih (by simpa [brought, Occasion.issues?] using hq)
      obtain rfl := Option.some.inj hm
      exact ⟨hminds.there, hminds.place⟩

end Traffic

/-! ## Frames come and go -/

namespace Occasion

/-- The frames that the hub puts on a queue. -/
def puts (q : QueueId) (o : Occasion) : List Envelope :=
  match o.event with
  | .handle missed =>
    match o.hub.step? missed with
    | some g => (g.exchange.framesOf q).drop (o.hub.exchange.framesOf q).length
    | none => []
  | _ => []

/-- The frames that are taken off a queue, or are lost with its receiver. -/
def takes (q : QueueId) (o : Occasion) : List Envelope :=
  match o.event with
  | .tend f =>
    let frames := o.hub.exchange.framesOf q
    let rest := ({ o.hub.exchange with mail := f o.hub.exchange.mail } : Exchange).framesOf q
    frames.take (frames.length - rest.length)
  | _ => []

end Occasion

namespace Hub

theorem framesOf_handle (h : Hub) (t : Ticket) (r : Request) (q : QueueId) :
    h.exchange.framesOf q <+: ((h.take t).handle t r).exchange.framesOf q := by
  by_cases hr : r = .shutdown
  · subst hr
    show _ <+: (h.take t).stop.exchange.framesOf q
    rw [framesOf_stop]
    exact List.prefix_rfl
  · rw [(h.handled_handle t hr).exchange]
    exact Exchange.framesOf_handled h.exchange r q

theorem framesOf_issue (h : Hub) (r : Request) (q : QueueId) :
    (h.issue r).2.exchange.framesOf q = h.exchange.framesOf q := by
  unfold issue
  dsimp only
  split
  · rfl
  · rw [exchange_abandon]
    exact Exchange.framesOf_foldl_release _ _ q

theorem framesOf_meet? {h g : Hub} {e : Occurrence} (hm : h.meet? e = some g)
    (hp : Occasion.IsProper ⟨h, e⟩) (q : QueueId) :
    h.exchange.framesOf q ++ Occasion.puts q ⟨h, e⟩ =
      Occasion.takes q ⟨h, e⟩ ++ g.exchange.framesOf q := by
  cases e with
  | issue r =>
    obtain rfl := Option.some.inj hm
    rw [framesOf_issue]
    exact List.append_nil _
  | handle missed =>
    have hs : h.step? missed = some g := hm
    obtain ⟨t, r, -, rfl⟩ := step?_eq_some hs
    have hputs : Occasion.puts q ⟨h, .handle missed⟩ =
        (((h.take t).handle t r).exchange.framesOf q).drop (h.exchange.framesOf q).length := by
      unfold Occasion.puts
      dsimp only
      rw [hs]
    rw [hputs]
    exact List.prefix_iff_eq_append.mp (h.framesOf_handle t r q)
  | tend f =>
    obtain rfl := Option.some.inj hm
    have hsuffix := Exchange.framesOf_drains (hp.1 f rfl) q
    exact (List.append_nil _).trans (List.suffix_iff_eq_append.mp hsuffix).symm
  | setClock clock =>
    obtain rfl := Option.some.inj hm
    exact List.append_nil _

end Hub

namespace Traffic

variable {h₀ h : Hub} {past : List Occasion}

/-- Everything that was put on a queue, in order. -/
def put (q : QueueId) (past : List Occasion) : List Envelope := past.flatMap (Occasion.puts q)

/-- Everything that was taken off a queue, in order. -/
def taken (q : QueueId) (past : List Occasion) : List Envelope := past.flatMap (Occasion.takes q)

theorem put_append (q : QueueId) (a b : List Occasion) : put q (a ++ b) = put q a ++ put q b :=
  List.flatMap_append

theorem taken_append (q : QueueId) (a b : List Occasion) :
    taken q (a ++ b) = taken q a ++ taken q b := List.flatMap_append

theorem put_eq_nil (q : QueueId) (hn : ∀ o ∈ past, ∀ missed, o.event ≠ .handle missed) :
    put q past = [] := by
  refine List.flatMap_eq_nil_iff.mpr fun o ho => ?_
  have hne := hn o ho
  unfold Occasion.puts
  split
  · exact absurd (by assumption) (hne _)
  · rfl

/-- What was on a queue and what was put on it has been taken off or is still there. -/
theorem Proper.passed (hp : Proper past) (ht : Traffic h₀ past h) (q : QueueId) :
    h₀.exchange.framesOf q ++ put q past = taken q past ++ h.exchange.framesOf q := by
  induction ht with
  | start => exact List.append_nil _
  | @next past u v e ht hm ih =>
    have hstep := Hub.framesOf_meet? hm hp.last q
    have hput : put q [⟨u, e⟩] = Occasion.puts q ⟨u, e⟩ := List.flatMap_singleton _ _
    have htaken : taken q [⟨u, e⟩] = Occasion.takes q ⟨u, e⟩ := List.flatMap_singleton _ _
    rw [put_append, taken_append, hput, htaken, ← List.append_assoc, ih hp.init,
      List.append_assoc, hstep, List.append_assoc]

end Traffic

end Switchboard
